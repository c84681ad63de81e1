/-
**Pairs in an array.**

A symmetric relation on `n` nodes without diagonal needs `n (n - 1) / 2` places.  There are two
usual orders: node by node as nodes are appended, the pairs of a node with the earlier ones standing
together, and row by row, the pairs of a node with the later ones standing together.  The second one
is the first one read backwards.

Main definitions:

* `Triangle.pairs` — the number of pairs of `n` nodes;
* `Triangle.append`, `Triangle.row` — the place of a pair in both orders.

Main results:

* `Triangle.append_lt`, `Triangle.append_inj`, `Triangle.sum_append` — places in the order of
  appending;
* `Triangle.row_lt`, `Triangle.row_inj`, `Triangle.exists_row` — **places in the order of rows**.
-/

import Mathlib.Algebra.BigOperators.Group.Finset.Basic
import Mathlib.Algebra.Order.Ring.Nat
import Mathlib.Data.Nat.Choose.Basic
import Mathlib.Tactic.Linarith
import Mathlib.Tactic.Ring

set_option relaxedAutoImplicit false
set_option autoImplicit false

namespace Triangle

/-- The number of pairs of `n` nodes. -/
def pairs (n : ℕ) : ℕ := n * (n - 1) / 2

theorem pairs_succ (n : ℕ) : pairs (n + 1) = pairs n + n := Nat.triangle_succ n

theorem pairs_mono {m n : ℕ} (h : m ≤ n) : pairs m ≤ pairs n := by
  induction h with
  | refl => exact le_rfl
  | step _ ih =>
      rw [pairs_succ]
      omega

/-- The pairs of both parts and those across. -/
theorem pairs_add (m n : ℕ) : pairs (m + n) = pairs m + m * n + pairs n := by
  induction n with
  | zero => simp [pairs]
  | succ n ih =>
      rw [← Nat.add_assoc, pairs_succ, ih, pairs_succ]
      ring

/-- The place of a pair when nodes are appended. -/
def append (later earlier : ℕ) : ℕ := later * (later - 1) / 2 + earlier

/-- The place of a pair when `n` nodes stand row by row. -/
def row (n low high : ℕ) : ℕ := low * (n - 2) - low * (low - 1) / 2 + high - 1

theorem append_lt {later earlier n : ℕ} (h : earlier < later) (hn : later < n) :
    append later earlier < pairs n := by
  have hstep := pairs_mono (Nat.succ_le_of_lt hn)
  rw [pairs_succ] at hstep
  unfold append
  unfold pairs at *
  omega

/-- A later node has later places. -/
theorem append_lt_append {later earlier later' earlier' : ℕ} (h : earlier < later)
    (hlt : later < later') : append later earlier < append later' earlier' := by
  have := append_lt h hlt
  unfold append pairs at *
  omega

theorem append_inj {later earlier later' earlier' : ℕ} (h : earlier < later)
    (h' : earlier' < later') (heq : append later earlier = append later' earlier') :
    later = later' ∧ earlier = earlier' := by
  have hsame : later = later' := by
    rcases Nat.lt_trichotomy later later' with hlt | rfl | hlt
    · exact absurd heq (append_lt_append h hlt).ne
    · rfl
    · exact absurd heq (append_lt_append h' hlt).ne'
  subst hsame
  unfold append at heq
  exact ⟨rfl, by omega⟩

/-- Every place is that of a pair. -/
theorem exists_append {k n : ℕ} (h : k < pairs n) :
    ∃ later earlier, earlier < later ∧ later < n ∧ append later earlier = k := by
  induction n with
  | zero => exact absurd h (Nat.not_lt_zero k)
  | succ n ih =>
      by_cases hk : k < pairs n
      · obtain ⟨later, earlier, hlt, hlater, happend⟩ := ih hk
        exact ⟨later, earlier, hlt, Nat.lt_succ_of_lt hlater, happend⟩
      · -- one of the pairs of the last node
        rw [pairs_succ] at h
        refine ⟨n, k - pairs n, by omega, Nat.lt_succ_self n, ?_⟩
        exact Nat.add_sub_cancel' (not_lt.1 hk)

/-- A sum taken pair by pair is a sum taken place by place. -/
theorem sum_append (n : ℕ) (f : ℕ → ℕ) :
    ∑ later ∈ Finset.range n, ∑ earlier ∈ Finset.range later, f (append later earlier) =
      ∑ i ∈ Finset.range (pairs n), f i := by
  induction n with
  | zero => rfl
  | succ n ih =>
      rw [Finset.sum_range_succ, ih, pairs_succ, Finset.sum_range_add]
      rfl

/-- Rows are the order of appending, read backwards. -/
theorem row_eq {n low high : ℕ} (h : low < high) (hn : high < n) :
    row n low high + append (n - 1 - low) (n - 1 - high) + 1 = pairs n := by
  obtain ⟨rest, rfl⟩ : ∃ rest, n = low + rest + 2 := ⟨n - low - 2, by omega⟩
  have hall := pairs_add low (rest + 2)
  rw [← Nat.add_assoc] at hall
  have hrest : pairs (rest + 2) = pairs (rest + 1) + (rest + 1) := pairs_succ (rest + 1)
  have hlow : low * (low + rest + 2 - 2) = low * low + low * rest := by
    rw [Nat.add_sub_cancel]
    ring
  have hsquare : low * low = 2 * pairs low + low := by
    clear hlow hall hrest h hn
    induction low with
    | zero => rfl
    | succ low ih =>
        rw [pairs_succ]
        linarith
  have hsub : low + rest + 2 - 1 - low = rest + 1 := by omega
  have hcross : low * (rest + 2) = low * rest + 2 * low := by ring
  have hrow : row (low + rest + 2) low high = 2 * pairs low + low + low * rest - pairs low +
      high - 1 := by
    rw [← hsquare, ← hlow]
    rfl
  have happend : append (rest + 1) (low + rest + 2 - 1 - high) =
      pairs (rest + 1) + (low + rest + 2 - 1 - high) := rfl
  rw [hsub, hrow, happend]
  omega

theorem row_lt {n low high : ℕ} (h : low < high) (hn : high < n) : row n low high < pairs n := by
  have := row_eq h hn
  omega

/-- **Different pairs have different places.** -/
theorem row_inj {n low high low' high' : ℕ} (h : low < high) (hn : high < n) (h' : low' < high')
    (hn' : high' < n) (heq : row n low high = row n low' high') : low = low' ∧ high = high' := by
  have hplace := row_eq h hn
  have hplace' := row_eq h' hn'
  have hback : append (n - 1 - low) (n - 1 - high) = append (n - 1 - low') (n - 1 - high') := by
    omega
  have hsame := append_inj (by omega) (by omega) hback
  omega

/-- **Every place is that of a pair.** -/
theorem exists_row {n k : ℕ} (h : k < pairs n) :
    ∃ low high, low < high ∧ high < n ∧ row n low high = k := by
  have hback : pairs n - 1 - k < pairs n := by omega
  obtain ⟨later, earlier, hlt, hlater, hk⟩ := exists_append hback
  have hlow : n - 1 - later < n - 1 - earlier := by omega
  have hrow := row_eq hlow (n := n) (by omega)
  have hl : n - 1 - (n - 1 - later) = later := by omega
  have he : n - 1 - (n - 1 - earlier) = earlier := by omega
  rw [hl, he, hk] at hrow
  exact ⟨n - 1 - later, n - 1 - earlier, by omega, by omega, by omega⟩

end Triangle
