/-
**Runs of a transition system.**

A system is given by a partial step function: what an action does to a state, or nothing when the
action is not possible there.  A run is a list of actions.  Properties of all states a run reaches
are proved from what one step preserves, and a property of the steps of a run is compared with a
condition on them step by step.

Main definitions:

* `Transition.run` — the state after a list of actions;
* `Transition.Reaches` — the states that runs reach whose steps all meet a condition;
* `Transition.EveryStep` — a property of every step of a run.

Main results:

* `Transition.Reaches.invariant` — **what every step preserves holds in every state reached**;
* `Transition.EveryStep.iff_of_reachable` — **two properties that agree on the steps from reachable
  states agree on runs**;
* `Transition.reaches_of_run`, `Transition.reaches_of_checkedRun` — a computed run reaches its last
  state.
-/

import Mathlib.Data.List.Basic

set_option relaxedAutoImplicit false
set_option autoImplicit false

namespace Transition

variable {σ α : Type}

/-! ### Runs -/

/-- The state after the actions, if all of them are possible. -/
def run (step : σ → α → Option σ) : σ → List α → Option σ
  | s, [] => some s
  | s, a :: as => (step s a).bind fun s' => run step s' as

/-- The states reached by runs whose steps all meet a condition. -/
inductive Reaches (step : σ → α → Option σ) (ok : σ → α → Prop) (start : σ → Prop) : σ → Prop
  | start {s : σ} : start s → Reaches step ok start s
  | step {s s' : σ} {a : α} : Reaches step ok start s → ok s a → step s a = some s' →
      Reaches step ok start s'

/-- The states reached by any run. -/
def Reachable (step : σ → α → Option σ) (start : σ → Prop) (s : σ) : Prop :=
  Reaches step (fun _ _ => True) start s

/-- The state after the actions, if all of them are possible and meet a condition. -/
def checkedRun (step : σ → α → Option σ) (ok : σ → α → Prop) [∀ s a, Decidable (ok s a)] :
    σ → List α → Option σ
  | s, [] => some s
  | s, a :: as => if ok s a then (step s a).bind fun s' => checkedRun step ok s' as else none

/-- A property of every step of a run. -/
def EveryStep (step : σ → α → Option σ) (p : σ → α → σ → Prop) : σ → List α → Prop
  | _, [] => True
  | s, a :: as => ∀ s', step s a = some s' → p s a s' ∧ EveryStep step p s' as

section Rules

variable {step : σ → α → Option σ} {ok : σ → α → Prop} {start : σ → Prop}

theorem run_cons {s : σ} {a : α} {as : List α} {s' : σ} :
    run step s (a :: as) = some s' ↔ ∃ m, step s a = some m ∧ run step m as = some s' :=
  Option.bind_eq_some_iff

/-- A run of reachable steps ends in a reachable state. -/
theorem reachable_of_run {s s' : σ} {as : List α} (hs : Reachable step start s)
    (h : run step s as = some s') : Reachable step start s' := by
  induction as generalizing s with
  | nil =>
      obtain rfl := Option.some.inj h
      exact hs
  | cons a as ih =>
      obtain ⟨m, hm, hrest⟩ := run_cons.1 h
      exact ih (.step hs trivial hm) hrest

/-- A computed run reaches its last state. -/
theorem reaches_of_run {s s' : σ} {as : List α} (hs : start s) (h : run step s as = some s') :
    Reachable step start s' :=
  reachable_of_run (.start hs) h

/-- A computed run whose steps meet the condition reaches its last state. -/
theorem reaches_of_checkedRun [∀ s a, Decidable (ok s a)] {s s' : σ} {as : List α}
    (hs : Reaches step ok start s) (h : checkedRun step ok s as = some s') :
    Reaches step ok start s' := by
  induction as generalizing s with
  | nil =>
      obtain rfl := Option.some.inj h
      exact hs
  | cons a as ih =>
      rw [checkedRun] at h
      split at h
      · rename_i hok
        obtain ⟨m, hm, hrest⟩ := Option.bind_eq_some_iff.1 h
        exact ih (.step hs hok hm) hrest
      · exact absurd h nofun

/-- The steps of a computed run whose steps meet the condition meet it. -/
theorem everyStep_of_checkedRun [∀ s a, Decidable (ok s a)] {s s' : σ} {as : List α}
    (h : checkedRun step ok s as = some s') : EveryStep step (fun s a _ => ok s a) s as := by
  induction as generalizing s with
  | nil => trivial
  | cons a as ih =>
      rw [checkedRun] at h
      split at h
      · rename_i hok
        obtain ⟨m, hm, hrest⟩ := Option.bind_eq_some_iff.1 h
        intro s' hs'
        obtain rfl := Option.some.inj (hm.symm.trans hs')
        exact ⟨hok, ih hrest⟩
      · exact absurd h nofun

/-- Steps that go on from a state that is reached. -/
theorem Reaches.trans {s s' : σ} (hs : Reaches step ok start s)
    (h : Reaches step ok (· = s) s') : Reaches step ok start s' := by
  induction h with
  | start heq => exact heq ▸ hs
  | step _ hok hstep ih => exact .step ih hok hstep

/-- A run that goes on from a reachable state ends in a reachable one. -/
theorem Reachable.trans {s s' : σ} (hs : Reachable step start s)
    (h : Reaches step ok (· = s) s') : Reachable step start s' := by
  induction h with
  | start heq => exact heq ▸ hs
  | step _ _ hstep ih => exact .step ih trivial hstep

/-- **What every step preserves holds in every state reached.**  A step may use that the state it
starts from is reached. -/
theorem Reaches.invariant {inv : σ → Prop} (hstart : ∀ s, start s → inv s)
    (hstep : ∀ {s a s'}, Reaches step ok start s → inv s → ok s a → step s a = some s' → inv s')
    {s : σ} (h : Reaches step ok start s) : inv s := by
  induction h with
  | start hs => exact hstart _ hs
  | step hreach hok hs ih => exact hstep hreach ih hok hs

/-! ### Properties of steps -/

/-- **Two properties that agree on the steps from reachable states agree on runs.** -/
theorem EveryStep.iff_of_reachable {p q : σ → α → σ → Prop}
    (h : ∀ {s a s'}, Reachable step start s → step s a = some s' → (p s a s' ↔ q s a s'))
    {s : σ} (hs : Reachable step start s) (as : List α) :
    EveryStep step p s as ↔ EveryStep step q s as := by
  induction as generalizing s with
  | nil => exact Iff.rfl
  | cons a as ih =>
      constructor
      · intro hp s' hs'
        exact ⟨(h hs hs').1 (hp s' hs').1, (ih (.step hs trivial hs')).1 (hp s' hs').2⟩
      · intro hq s' hs'
        exact ⟨(h hs hs').2 (hq s' hs').1, (ih (.step hs trivial hs')).2 (hq s' hs').2⟩

end Rules

end Transition
