/-
**Bubble sort up to the last exchange.**

A pass compares neighbours from left to right and exchanges them when the right one has the smaller
key; the next pass ends where the last exchange was, and the sort ends when that is at most one.
Elements with equal keys are never exchanged, so the sort is stable.  An array is a function here,
of which the sort touches the first `n` values.

Main definitions:

* `Bubble.exchange`, `Bubble.step`, `Bubble.pass`, `Bubble.round` — the sort;
* `Bubble.SortedFrom` — what a round leaves behind.

Main results:

* `Bubble.InPass.next` — one comparison;
* `Bubble.round_sortedFrom` — one round;
* `Bubble.rounds_end` — **the sort ends, and the array is then sorted and stable**.
-/

import Mathlib.Data.List.Range
import Mathlib.Logic.Function.Iterate
import Mathlib.Order.Lattice

set_option relaxedAutoImplicit false
set_option autoImplicit false

namespace Bubble

variable {α β : Type*} [LinearOrder β]

/-- An array and the index of the last exchange. -/
structure State (α : Type*) where
  slot : ℕ → α
  last : ℕ

/-- Exchange value `i` with the one before it. -/
def exchange (f : ℕ → α) (i : ℕ) : ℕ → α := fun j =>
  if j + 1 = i then f i else if j = i then f (i - 1) else f j

variable (key : α → β)

/-- One comparison. -/
def step (s : State α) (i : ℕ) : State α :=
  if key (s.slot i) < key (s.slot (i - 1)) then ⟨exchange s.slot i, i⟩ else s

/-- One pass over the first `finish` values. -/
def pass (s : State α) (finish : ℕ) : State α :=
  (List.range' 1 (finish - 1)).foldl (step key) ⟨s.slot, 0⟩

/-- One pass, and where the next one ends. -/
def round (p : ℕ × State α) : ℕ × State α := ((pass key p.2 p.1).last, pass key p.2 p.1)

/-- From `finish` on, values are in order and no smaller than everything before them; values with
equal keys stand in their original order; values from `n` on are those of the start. -/
structure SortedFrom (earlier : α → α → Prop) (start : ℕ → α) (n finish : ℕ) (s : State α) :
    Prop where
  tail : ∀ i j, i < j → j < n → finish ≤ j → key (s.slot i) ≤ key (s.slot j)
  stable : ∀ i j, i < j → j < n → key (s.slot i) = key (s.slot j) → earlier (s.slot i) (s.slot j)
  outside : ∀ j, n ≤ j → s.slot j = start j

/-- A pass that has compared up to value `m`: from the last exchange on, what it has passed is in
order. -/
structure InPass (earlier : α → α → Prop) (start : ℕ → α) (n finish m : ℕ) (s : State α) : Prop
    extends SortedFrom key earlier start n finish s where
  last_le : s.last ≤ m
  passed : ∀ i j, i < j → j ≤ m → s.last ≤ j → key (s.slot i) ≤ key (s.slot j)

section Pass

variable {key} {earlier : α → α → Prop} {start : ℕ → α} {n finish : ℕ}

/-- One comparison. -/
theorem InPass.next {m : ℕ} {s : State α} (h : InPass key earlier start n finish m s)
    (hm : m + 1 < finish) (hfinish : finish ≤ n) :
    InPass key earlier start n finish (m + 1) (step key s (m + 1)) := by
  rw [step, Nat.add_sub_cancel]
  split_ifs with hlt
  · -- the largest value so far moves on
    have hslot : ∀ j, exchange s.slot (m + 1) j =
        if j = m then s.slot (m + 1) else if j = m + 1 then s.slot m else s.slot j := by
      intro j
      simp only [exchange, Nat.add_right_cancel_iff, Nat.add_sub_cancel]
    refine ⟨⟨?_, ?_, ?_⟩, le_rfl, ?_⟩
    · intro i j hij hj hf
      have hj1 : j ≠ m := by omega
      have hj2 : j ≠ m + 1 := by omega
      simp only [hslot, hj1, hj2, if_false]
      split_ifs with h1 h2
      · exact h.tail _ _ (by omega) hj hf
      · exact h.tail _ _ (by omega) hj hf
      · exact h.tail _ _ hij hj hf
    · intro i j hij hj
      simp only [hslot]
      split_ifs with h1 h2 h3 h4 h5
      · omega
      · intro heq
        exact absurd heq hlt.ne
      · intro heq
        exact h.stable _ _ (by omega) hj heq
      · omega
      · omega
      · intro heq
        exact h.stable _ _ (by omega) hj heq
      · intro heq
        exact h.stable _ _ (by omega) (by omega) heq
      · intro heq
        exact h.stable _ _ (by omega) (by omega) heq
      · intro heq
        exact h.stable _ _ hij hj heq
    · intro j hj
      change exchange s.slot (m + 1) j = start j
      rw [hslot, if_neg (by omega), if_neg (by omega)]
      exact h.outside j hj
    · intro i j hij hj hlast
      have hjm : j = m + 1 := by
        dsimp only at hlast
        omega
      subst hjm
      simp only [hslot, Nat.succ_ne_self, if_false, if_true]
      split_ifs with h1 h2
      · exact hlt.le
      · omega
      · exact h.passed i m (by omega) le_rfl h.last_le
  · -- the larger value is in its place already
    refine ⟨h.toSortedFrom, h.last_le.trans (Nat.le_succ m), ?_⟩
    intro i j hij hj hlast
    rcases Nat.le_or_eq_of_le_succ hj with hj | rfl
    · exact h.passed i j hij hj hlast
    · have hstep : key (s.slot m) ≤ key (s.slot (m + 1)) := not_lt.1 hlt
      rcases Nat.lt_or_ge i m with hi | hi
      · exact (h.passed i m hi le_rfl h.last_le).trans hstep
      · have him : i = m := by omega
        rw [him]
        exact hstep

/-- One pass. -/
theorem pass_inPass {s : State α} (h : SortedFrom key earlier start n finish s)
    (hfinish : finish ≤ n) (m : ℕ) (hm : m + 1 ≤ finish) :
    InPass key earlier start n finish m ((List.range' 1 m).foldl (step key) ⟨s.slot, 0⟩) := by
  induction m with
  | zero => exact ⟨⟨h.tail, h.stable, h.outside⟩, le_rfl, fun i j hij hj _ => by omega⟩
  | succ m ih =>
      rw [List.range'_1_concat, List.foldl_append, Nat.add_comm 1 m]
      exact (ih (by omega)).next (by omega) hfinish

/-- **One round**: the next one is shorter, and from its end on the array is sorted. -/
theorem round_sortedFrom {s : State α} (h : SortedFrom key earlier start n finish s)
    (hfinish : finish ≤ n) (hmore : 1 < finish) :
    (round key (finish, s)).1 < finish ∧
      SortedFrom key earlier start n (round key (finish, s)).1 (round key (finish, s)).2 := by
  have hpass : InPass key earlier start n finish (finish - 1) (pass key s finish) :=
    pass_inPass h hfinish (finish - 1) (by omega)
  have hlast : (pass key s finish).last < finish := by
    have := hpass.last_le
    omega
  refine ⟨hlast, ?_, hpass.stable, hpass.outside⟩
  intro i j hij hj hfrom
  rcases Nat.lt_or_ge j finish with hjf | hjf
  · exact hpass.passed i j hij (by omega) hfrom
  · exact hpass.tail i j hij hj hjf

/-- **The sort ends**: after at most `finish` rounds there is nothing left to do, and what is left
behind is sorted. -/
theorem rounds_end (finish : ℕ) {s : State α} (h : SortedFrom key earlier start n finish s)
    (hfinish : finish ≤ n) :
    ∃ k ≤ finish, ((round key)^[k] (finish, s)).1 ≤ 1 ∧
      (∀ i < k, 1 < ((round key)^[i] (finish, s)).1) ∧
      (∀ i ≤ k, ((round key)^[i] (finish, s)).1 ≤ finish) ∧
      SortedFrom key earlier start n 1 ((round key)^[k] (finish, s)).2 := by
  induction finish using Nat.strong_induction_on generalizing s with
  | _ finish ih =>
      rcases Nat.lt_or_ge 1 finish with hmore | hdone
      · obtain ⟨hlt, hsorted⟩ := round_sortedFrom h hfinish hmore
        obtain ⟨k, hk, hend, hbefore, hshrink, hlast⟩ := ih _ hlt hsorted (hlt.le.trans hfinish)
        refine ⟨k + 1, by omega, ?_, ?_, ?_, ?_⟩
        · rw [Function.iterate_succ_apply]
          exact hend
        · intro i hi
          cases i with
          | zero => exact hmore
          | succ i =>
              rw [Function.iterate_succ_apply]
              exact hbefore i (by omega)
        · intro i hi
          cases i with
          | zero => exact le_rfl
          | succ i =>
              rw [Function.iterate_succ_apply]
              exact (hshrink i (by omega)).trans hlt.le
        · rw [Function.iterate_succ_apply]
          exact hlast
      · refine ⟨0, Nat.zero_le _, hdone, by simp, by simp, ?_⟩
        exact ⟨fun i j hij hj hf => h.tail i j hij hj (hdone.trans hf), h.stable, h.outside⟩

end Pass

end Bubble
