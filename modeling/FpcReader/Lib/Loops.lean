/-
**Counting loops.**

A loop that counts from zero carries an invariant indexed by the counter.  When the body can stop
the loop early, the loop runs to its end exactly when no round stops it, and what the round that
stops it leaves behind is what the loop leaves behind.

Main results:

* `Loops.foldl_range` — the invariant of a loop that cannot stop early;
* `Loops.foldlM_range` — **a loop that can stop early**: either every round is good and the
  invariant holds at the end, or some round is not and the loop has stopped as that round stops it;
* `Loops.foldlM_range_or` — a loop that may be stopped in any round;
* `Loops.foldlM_range_option` — a loop whose state may be lost.
-/

import FpcReader.Lib.Fallible
import FpcReader.Lib.Scans

set_option relaxedAutoImplicit false
set_option autoImplicit false

namespace Loops

variable {ε σ : Type*}

/-- The invariant of a counting loop. -/
theorem foldl_range {step : σ → ℕ → σ} (P : ℕ → σ → Prop) {n : ℕ} {s : σ} (hstart : P 0 s)
    (hstep : ∀ k < n, ∀ t, P k t → P (k + 1) (step t k)) : P n ((List.range n).foldl step s) := by
  induction n with
  | zero => exact hstart
  | succ n ih =>
      rw [Scans.foldl_range_succ]
      exact hstep n (Nat.lt_succ_self n) _ (ih fun k hk => hstep k (Nat.lt_succ_of_lt hk))

theorem foldlM_range_succ (step : σ → ℕ → Except ε σ) (s : σ) (n : ℕ) :
    (List.range (n + 1)).foldlM step s =
      (List.range n).foldlM step s >>= fun t => step t n := by
  rw [List.range_succ, List.foldlM_append]
  refine bind_congr ?_
  intro t
  rw [List.foldlM_cons]
  cases step t n <;> rfl

/-- **A counting loop that can stop early.** -/
theorem foldlM_range {step : σ → ℕ → Except ε σ} (P : ℕ → σ → Prop) (good : ℕ → Prop)
    (stopped : ε → Prop) {n : ℕ} {s : σ} (hstart : P 0 s)
    (hstep : ∀ k < n, ∀ t, P k t →
      (good k ∧ ∃ t', step t k = .ok t' ∧ P (k + 1) t') ∨
        (¬good k ∧ ∃ e, step t k = .error e ∧ stopped e)) :
    ((∀ k < n, good k) ∧ ∃ t, (List.range n).foldlM step s = .ok t ∧ P n t) ∨
      (¬(∀ k < n, good k) ∧ ∃ e, (List.range n).foldlM step s = .error e ∧ stopped e) := by
  induction n with
  | zero => exact Or.inl ⟨by simp, s, rfl, hstart⟩
  | succ n ih =>
      rw [foldlM_range_succ]
      rcases ih fun k hk => hstep k (Nat.lt_succ_of_lt hk) with
        ⟨hgood, t, ht, hP⟩ | ⟨hbad, e, he, hstopped⟩
      · rw [ht]
        rcases hstep n (Nat.lt_succ_self n) t hP with ⟨hn, t', ht', hP'⟩ | ⟨hn, e, he, hstopped⟩
        · refine Or.inl ⟨?_, t', ht', hP'⟩
          intro k hk
          rcases Nat.lt_succ_iff_lt_or_eq.1 hk with hk | rfl
          · exact hgood k hk
          · exact hn
        · exact Or.inr ⟨fun h => hn (h n (Nat.lt_succ_self n)), e, he, hstopped⟩
      · rw [he]
        exact Or.inr ⟨fun h => hbad fun k hk => h k (Nat.lt_succ_of_lt hk), e, rfl, hstopped⟩

/-- A loop that may be stopped in any round, for one of the reasons named. -/
theorem foldlM_range_or {step : σ → ℕ → Except ε σ} (P : ℕ → σ → Prop) (stopped : ε → Prop)
    {n : ℕ} {s : σ} (hstart : P 0 s)
    (hstep : ∀ k < n, ∀ t, P k t → (∃ e, step t k = .error e ∧ stopped e) ∨
      ∃ t', step t k = .ok t' ∧ P (k + 1) t') :
    (∃ e, (List.range n).foldlM step s = .error e ∧ stopped e) ∨
      ∃ t, (List.range n).foldlM step s = .ok t ∧ P n t := by
  induction n with
  | zero => exact Or.inr ⟨s, rfl, hstart⟩
  | succ n ih =>
      rw [foldlM_range_succ]
      rcases ih fun k hk => hstep k (Nat.lt_succ_of_lt hk) with ⟨e, he, hstopped⟩ | ⟨t, ht, hP⟩
      · rw [he]
        exact Or.inl ⟨e, rfl, hstopped⟩
      · rw [ht]
        exact hstep n (Nat.lt_succ_self n) t hP

/-- A counting loop over a state that may be lost. -/
theorem foldlM_range_option {step : σ → ℕ → Option σ} (P : ℕ → σ → Prop) (good : ℕ → Prop)
    {n : ℕ} {s : σ} (hstart : P 0 s)
    (hstep : ∀ k < n, ∀ t, P k t →
      (good k ∧ ∃ t', step t k = some t' ∧ P (k + 1) t') ∨ (¬good k ∧ step t k = none)) :
    ((∀ k < n, good k) ∧ ∃ t, (List.range n).foldlM step s = some t ∧ P n t) ∨
      (¬(∀ k < n, good k) ∧ (List.range n).foldlM step s = none) := by
  induction n with
  | zero => exact Or.inl ⟨by simp, s, rfl, hstart⟩
  | succ n ih =>
      have hsucc : (List.range (n + 1)).foldlM step s =
          (List.range n).foldlM step s >>= fun t => step t n := by
        rw [List.range_succ, List.foldlM_append]
        refine bind_congr ?_
        intro t
        rw [List.foldlM_cons]
        cases step t n <;> rfl
      rw [hsucc]
      rcases ih fun k hk => hstep k (Nat.lt_succ_of_lt hk) with ⟨hgood, t, ht, hP⟩ | ⟨hbad, hnone⟩
      · rw [ht]
        rcases hstep n (Nat.lt_succ_self n) t hP with ⟨hn, t', ht', hP'⟩ | ⟨hn, hnone⟩
        · refine Or.inl ⟨?_, t', ht', hP'⟩
          intro k hk
          rcases Nat.lt_succ_iff_lt_or_eq.1 hk with hlt | rfl
          · exact hgood k hlt
          · exact hn
        · exact Or.inr ⟨fun h => hn (h n (Nat.lt_succ_self n)), hnone⟩
      · rw [hnone]
        exact Or.inr ⟨fun h => hbad fun k hk => h k (Nat.lt_succ_of_lt hk), rfl⟩

/-- What every round keeps holds at the end, if the state is not lost. -/
theorem foldlM_range_some {step : σ → ℕ → Option σ} (P : ℕ → σ → Prop) {n : ℕ} {s last : σ}
    (hstart : P 0 s) (hstep : ∀ k < n, ∀ t t', P k t → step t k = some t' → P (k + 1) t')
    (h : (List.range n).foldlM step s = some last) : P n last := by
  induction n generalizing last with
  | zero =>
      obtain rfl : s = last := Option.some.inj h
      exact hstart
  | succ n ih =>
      rw [List.range_succ, List.foldlM_append] at h
      obtain ⟨t, ht, hlast⟩ := Option.bind_eq_some_iff.1 h
      rw [List.foldlM_cons] at hlast
      obtain ⟨t', ht', hlast⟩ := Option.bind_eq_some_iff.1 hlast
      obtain rfl : t' = last := Option.some.inj hlast
      exact hstep n (Nat.lt_succ_self n) t t'
        (ih (fun k hk => hstep k (Nat.lt_succ_of_lt hk)) ht) ht'

end Loops
