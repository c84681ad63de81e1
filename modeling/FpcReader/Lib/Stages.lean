/-
**Stages that fail with what they have done.**

A routine runs through stages that change a state.  A stage that fails leaves the state as it has
changed it so far, so what holds after a failure is a property of the stages as well.

Main definitions:

* `Stages.Holds` — a property of the state a stage leaves, whether it fails or not;
* `Stages.Fails` — a property of the error a stage fails with.

Main results:

* `Stages.Holds.bind`, `Stages.Holds.foldlM`, `Stages.Fails.bind`, `Stages.Fails.foldlM` —
  sequences and loops of stages;
* `Stages.foldlM_ok` — a loop that runs through: what each round preserves, with its number.
-/

import Mathlib.Data.List.Basic

set_option relaxedAutoImplicit false
set_option autoImplicit false

namespace Stages

variable {ε σ : Type}

/-- The state a stage leaves has the property, whether the stage fails or not. -/
def Holds (p : σ → Prop) : Except (ε × σ) σ → Prop
  | .error e => p e.2
  | .ok s => p s

variable {p : σ → Prop}

theorem Holds.mono {q : σ → Prop} {x : Except (ε × σ) σ} (h : Holds p x) (hpq : ∀ s, p s → q s) :
    Holds q x := by
  cases x with
  | error e => exact hpq _ h
  | ok s => exact hpq _ h

/-- Two stages, one after the other; the first may fail. -/
theorem Holds.bind {q : σ → Prop} {x : Except (ε × σ) σ} {f : σ → Except (ε × σ) σ}
    (h : Holds p x) (hpq : ∀ s, p s → q s) (hf : ∀ s, p s → Holds q (f s)) :
    Holds q (x >>= f) := by
  cases x with
  | error e => exact hpq _ h
  | ok s => exact hf s h

theorem bind_ok {x : Except (ε × σ) σ} {f : σ → Except (ε × σ) σ} {last : σ}
    (h : x >>= f = .ok last) : ∃ s, x = .ok s ∧ f s = .ok last := by
  cases x with
  | error e => cases h
  | ok s => exact ⟨s, rfl, h⟩

/-- A loop of stages. -/
theorem Holds.foldlM {α : Type} {step : σ → α → Except (ε × σ) σ} {s : σ} (items : List α)
    (h : p s) (hstep : ∀ s, p s → ∀ a, Holds p (step s a)) : Holds p (items.foldlM step s) := by
  induction items generalizing s with
  | nil => exact h
  | cons a items ih =>
      rw [List.foldlM_cons]
      have hfirst := hstep s h a
      cases hrun : step s a with
      | error e =>
          rw [hrun] at hfirst
          exact hfirst
      | ok next =>
          rw [hrun] at hfirst
          exact ih hfirst

/-- A loop over the first `n` numbers that runs through: the property counts the rounds. -/
theorem foldlM_ok {q : ℕ → σ → Prop} {step : σ → ℕ → Except (ε × σ) σ} {n : ℕ} {s last : σ}
    (h : q 0 s) (hstep : ∀ i < n, ∀ s next, q i s → step s i = .ok next → q (i + 1) next)
    (hrun : (List.range n).foldlM step s = .ok last) : q n last := by
  induction n generalizing last with
  | zero =>
      obtain rfl := Except.ok.inj hrun
      exact h
  | succ n ih =>
      rw [List.range_succ, List.foldlM_append] at hrun
      obtain ⟨before, hbefore, hlast⟩ := bind_ok hrun
      rw [List.foldlM_cons] at hlast
      obtain ⟨next, hnext, hdone⟩ := bind_ok hlast
      obtain rfl := Except.ok.inj hdone
      exact hstep n (Nat.lt_succ_self n) before next
        (ih (fun i hi => hstep i (Nat.lt_succ_of_lt hi)) hbefore) hnext

/-- If the stage fails, its error has the property. -/
def Fails (r : ε → Prop) : Except (ε × σ) σ → Prop
  | .error e => r e.1
  | .ok _ => True

variable {r : ε → Prop}

theorem Fails.bind {x : Except (ε × σ) σ} {f : σ → Except (ε × σ) σ} (h : Fails r x)
    (hf : ∀ s, Fails r (f s)) : Fails r (x >>= f) := by
  cases x with
  | error e => exact h
  | ok s => exact hf s

theorem Fails.foldlM {α : Type} {step : σ → α → Except (ε × σ) σ} (items : List α)
    (hstep : ∀ s a, Fails r (step s a)) (s : σ) : Fails r (items.foldlM step s) := by
  induction items generalizing s with
  | nil => exact True.intro
  | cons a items ih =>
      rw [List.foldlM_cons]
      exact (hstep s a).bind ih

end Stages
