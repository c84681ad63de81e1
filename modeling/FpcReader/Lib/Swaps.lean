/-
**Swaps in an array.**

Two places of an array may be exchanged by reading both and writing both.  A sequence of exchanges
makes every place take the value of another one; when no place takes part in two of them, that one
is its partner, and doing the sequence again restores the array.

Main definitions:

* `Swaps.swapAt`, `Swaps.swapAll` — one exchange, and a sequence of them;
* `Swaps.origin` — the place a value comes from;
* `Swaps.Apart` — exchanges without a common place.

Main results:

* `Swaps.swapAll_getElem?` — **every place takes the value of its origin**;
* `Swaps.origin_left`, `Swaps.origin_right`, `Swaps.origin_of_not_mem` — the origin is the partner;
* `Swaps.origin_origin` — **a sequence of exchanges that do not meet undoes itself**.
-/

import Mathlib.Data.List.Basic
import Mathlib.Logic.Equiv.Basic

set_option relaxedAutoImplicit false
set_option autoImplicit false

namespace Swaps

variable {α : Type*}

/-! ### Exchanges -/

/-- Exchange two places; `none` when one of them is not there. -/
def swapAt (values : List α) (a b : ℕ) : Option (List α) :=
  match values[a]?, values[b]? with
  | some x, some y => some ((values.set a y).set b x)
  | _, _ => none

/-- Exchange the places of each pair in turn. -/
def swapAll : List (ℕ × ℕ) → List α → Option (List α)
  | [], values => some values
  | p :: ps, values => (swapAt values p.1 p.2).bind (swapAll ps)

theorem swapAt_isSome {values : List α} {a b : ℕ} (ha : a < values.length)
    (hb : b < values.length) : (swapAt values a b).isSome = true := by
  rw [swapAt, List.getElem?_eq_getElem ha, List.getElem?_eq_getElem hb]
  rfl

theorem swapAt_spec {values swapped : List α} {a b : ℕ} (h : swapAt values a b = some swapped) :
    swapped.length = values.length ∧ ∀ k : ℕ, swapped[k]? = values[Equiv.swap a b k]? := by
  unfold swapAt at h
  split at h
  · rename_i x y hx hy
    obtain rfl := Option.some.inj h
    have ha := (List.getElem?_eq_some_iff.1 hx).1
    have hb := (List.getElem?_eq_some_iff.1 hy).1
    refine ⟨by rw [List.length_set, List.length_set], ?_⟩
    intro k
    rw [List.getElem?_set, List.length_set, List.getElem?_set, Equiv.swap_apply_def]
    by_cases hkb : k = b
    · subst hkb
      by_cases hka : k = a
      · subst hka
        have hsome : values[k] = x := (List.getElem?_eq_some_iff.1 hx).2
        simp [hb, hsome]
      · simp [hb, hka, hx]
    · by_cases hka : k = a
      · subst hka
        simp [Ne.symm hkb, ha, hy]
      · simp [Ne.symm hkb, Ne.symm hka, hka, hkb]
  · exact absurd h (by simp)

/-- The place the value of a place comes from. -/
def origin : List (ℕ × ℕ) → ℕ → ℕ
  | [], k => k
  | p :: ps, k => Equiv.swap p.1 p.2 (origin ps k)

/-- **Every place takes the value of its origin.** -/
theorem swapAll_getElem? {ps : List (ℕ × ℕ)} {values swapped : List α}
    (h : swapAll ps values = some swapped) :
    swapped.length = values.length ∧ ∀ k : ℕ, swapped[k]? = values[origin ps k]? := by
  induction ps generalizing values with
  | nil =>
      obtain rfl := Option.some.inj h
      exact ⟨rfl, fun k => rfl⟩
  | cons p ps ih =>
      obtain ⟨first, hfirst, hrest⟩ := Option.bind_eq_some_iff.1 h
      obtain ⟨hlength, hplaces⟩ := swapAt_spec hfirst
      obtain ⟨hlengths, hrests⟩ := ih hrest
      refine ⟨hlengths.trans hlength, ?_⟩
      intro k
      rw [hrests, hplaces, origin]

/-- Places that are there can be exchanged. -/
theorem swapAll_isSome {ps : List (ℕ × ℕ)} {values : List α}
    (h : ∀ p ∈ ps, p.1 < values.length ∧ p.2 < values.length) :
    ∃ swapped, swapAll ps values = some swapped := by
  induction ps generalizing values with
  | nil => exact ⟨values, rfl⟩
  | cons p ps ih =>
      have hp := h p (by simp)
      obtain ⟨first, hfirst⟩ := Option.isSome_iff_exists.1 (swapAt_isSome hp.1 hp.2)
      have hlength := (swapAt_spec hfirst).1
      obtain ⟨swapped, hswapped⟩ := ih fun q hq => by
        rw [hlength]
        exact h q (by simp [hq])
      exact ⟨swapped, by rw [swapAll, hfirst, Option.bind_some, hswapped]⟩

/-! ### Exchanges that do not meet -/

/-- Two exchanges without a common place. -/
def Apart (p q : ℕ × ℕ) : Prop := p.1 ≠ q.1 ∧ p.1 ≠ q.2 ∧ p.2 ≠ q.1 ∧ p.2 ≠ q.2

theorem origin_of_not_mem {ps : List (ℕ × ℕ)} {k : ℕ} (h : ∀ p ∈ ps, k ≠ p.1 ∧ k ≠ p.2) :
    origin ps k = k := by
  induction ps with
  | nil => rfl
  | cons p ps ih =>
      have hp := h p (by simp)
      rw [origin, ih fun q hq => h q (by simp [hq]), Equiv.swap_apply_of_ne_of_ne hp.1 hp.2]

theorem origin_left {ps : List (ℕ × ℕ)} (h : ps.Pairwise Apart) {p : ℕ × ℕ} (hp : p ∈ ps) :
    origin ps p.1 = p.2 := by
  induction ps with
  | nil => exact absurd hp (by simp)
  | cons q ps ih =>
      obtain ⟨hq, hps⟩ := List.pairwise_cons.1 h
      rcases List.mem_cons.1 hp with rfl | hp
      · rw [origin, origin_of_not_mem fun r hr => ⟨(hq r hr).1, (hq r hr).2.1⟩,
          Equiv.swap_apply_left]
      · have hapart := hq p hp
        rw [origin, ih hps hp, Equiv.swap_apply_of_ne_of_ne hapart.2.1.symm hapart.2.2.2.symm]

theorem origin_right {ps : List (ℕ × ℕ)} (h : ps.Pairwise Apart) {p : ℕ × ℕ} (hp : p ∈ ps) :
    origin ps p.2 = p.1 := by
  induction ps with
  | nil => exact absurd hp (by simp)
  | cons q ps ih =>
      obtain ⟨hq, hps⟩ := List.pairwise_cons.1 h
      rcases List.mem_cons.1 hp with rfl | hp
      · rw [origin, origin_of_not_mem fun r hr => ⟨(hq r hr).2.2.1, (hq r hr).2.2.2⟩,
          Equiv.swap_apply_right]
      · have hapart := hq p hp
        rw [origin, ih hps hp, Equiv.swap_apply_of_ne_of_ne hapart.1.symm hapart.2.2.1.symm]

/-- **Exchanges that do not meet undo themselves.** -/
theorem origin_origin {ps : List (ℕ × ℕ)} (h : ps.Pairwise Apart) (k : ℕ) :
    origin ps (origin ps k) = k := by
  by_cases hk : ∀ p ∈ ps, k ≠ p.1 ∧ k ≠ p.2
  · rw [origin_of_not_mem hk, origin_of_not_mem hk]
  · push Not at hk
    obtain ⟨p, hp, hplace⟩ := hk
    by_cases hleft : k = p.1
    · rw [hleft, origin_left h hp, origin_right h hp]
    · rw [hplace hleft, origin_right h hp, origin_left h hp]

/-- Doing the exchanges twice restores the array. -/
theorem swapAll_swapAll {ps : List (ℕ × ℕ)} (h : ps.Pairwise Apart) {values swapped : List α}
    (hplaces : ∀ p ∈ ps, p.1 < values.length ∧ p.2 < values.length)
    (hswapped : swapAll ps values = some swapped) : swapAll ps swapped = some values := by
  obtain ⟨hlength, hvalues⟩ := swapAll_getElem? hswapped
  have hstill : ∀ p ∈ ps, p.1 < swapped.length ∧ p.2 < swapped.length := by
    intro p hp
    rw [hlength]
    exact hplaces p hp
  obtain ⟨again, hagain⟩ := swapAll_isSome hstill
  have hsame : again = values := by
    apply List.ext_getElem?
    intro k
    rw [(swapAll_getElem? hagain).2, hvalues, origin_origin h]
  rw [hagain, hsame]

end Swaps
