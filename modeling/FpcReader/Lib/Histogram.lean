/-
**Histograms.**

A histogram counts how often each of the first `n` numbers occurs in a list.  A scan adds up the
counts from one end and stops where the total exceeds a limit: from below and from above it finds
the two ends of a window that leaves out no more than the limits say.

Main definitions:

* `Histogram.tally` — the counts;
* `Histogram.firstAbove` — where the running total exceeds a limit.

Main results:

* `Histogram.sum_take_tally` — a running total counts what lies below a place;
* `Histogram.firstAbove_tally`, `Histogram.firstAbove_reverse` — the scans from below and above;
* `Histogram.window` — **the window between the two scans**.
-/

import Mathlib.Algebra.BigOperators.Group.List.Basic
import Mathlib.Data.List.GetD
import Mathlib.Tactic.Linarith

set_option relaxedAutoImplicit false
set_option autoImplicit false

namespace Histogram

/-- How often each of the first `n` numbers occurs. -/
def tally (n : ℕ) (bins : List ℕ) : List ℕ :=
  bins.foldl (fun counts bin => counts.modify bin (· + 1)) (List.replicate n 0)

/-- The first place where the running total exceeds the limit, or the number of places. -/
def firstAbove (limit : ℕ) : List ℕ → ℕ → ℕ
  | [], _ => 0
  | count :: counts, total =>
      if limit < total + count then 0 else firstAbove limit counts (total + count) + 1

/-! ### The counts -/

theorem foldl_modify (bins : List ℕ) (counts : List ℕ) :
    (bins.foldl (fun counts bin => counts.modify bin (· + 1)) counts).length = counts.length ∧
      ∀ b < counts.length,
        (bins.foldl (fun counts bin => counts.modify bin (· + 1)) counts).getD b 0 =
          counts.getD b 0 + bins.count b := by
  induction bins generalizing counts with
  | nil => simp
  | cons bin bins ih =>
      obtain ⟨hlength, hcount⟩ := ih (counts.modify bin (· + 1))
      rw [List.length_modify] at hlength hcount
      refine ⟨hlength, fun b hb => ?_⟩
      rw [List.foldl_cons, hcount b hb, List.count_cons, List.getD_eq_getElem _ _ hb,
        List.getD_eq_getElem _ _ (by rwa [List.length_modify]), List.getElem_modify]
      by_cases hbin : bin = b
      · simp [hbin]
        omega
      · simp [hbin]

@[simp] theorem tally_length (n : ℕ) (bins : List ℕ) : (tally n bins).length = n :=
  (foldl_modify bins _).1.trans List.length_replicate

theorem tally_eq (n : ℕ) (bins : List ℕ) : tally n bins = (List.range n).map (bins.count ·) := by
  refine List.ext_getElem (by simp) fun b hb hb' => ?_
  have hlt : b < n := by simpa using hb
  have hcount := (foldl_modify bins (List.replicate n 0)).2 b (by simpa using hlt)
  rw [List.getD_eq_getElem _ _ (by simpa [tally] using hb)] at hcount
  simp only [List.getElem_map, List.getElem_range]
  rw [show (tally n bins)[b] = _ from hcount]
  simp

theorem countP_lt_succ (bins : List ℕ) (k : ℕ) :
    bins.countP (· < k + 1) = bins.countP (· < k) + bins.count k := by
  induction bins with
  | nil => rfl
  | cons bin bins ih =>
      rw [List.countP_cons, List.countP_cons, List.count_cons, ih]
      rcases Nat.lt_trichotomy bin k with h | h | h
      · simp [h, h.ne, Nat.lt_succ_of_lt h]
        omega
      · simp [h]
        omega
      · simp [h.ne', not_lt.2 h.le]
        omega

/-- **A running total counts what lies below a place.** -/
theorem sum_take_tally (bins : List ℕ) {n k : ℕ} (hk : k ≤ n) :
    ((tally n bins).take k).sum = bins.countP (· < k) := by
  rw [tally_eq, ← List.map_take, List.take_range, Nat.min_eq_left hk]
  clear hk
  induction k with
  | zero => simp
  | succ k ih => rw [List.range_succ, List.map_append, List.sum_append, ih, countP_lt_succ]; simp

theorem sum_tally {bins : List ℕ} {n : ℕ} (hbins : ∀ b ∈ bins, b < n) :
    (tally n bins).sum = bins.length := by
  have hall := sum_take_tally bins (le_refl n)
  rw [List.take_of_length_le (by simp)] at hall
  rw [hall, List.countP_eq_length]
  simpa using hbins

/-- A running total from above counts what does not lie below a place. -/
theorem sum_take_reverse {bins : List ℕ} {n k : ℕ} (hbins : ∀ b ∈ bins, b < n) :
    ((tally n bins).reverse.take k).sum = bins.countP (n - k ≤ ·) := by
  have hsplit := List.sum_take_add_sum_drop (tally n bins) (n - k)
  rw [sum_tally hbins, sum_take_tally bins (Nat.sub_le n k)] at hsplit
  rw [List.take_reverse, List.sum_reverse, tally_length]
  have hcount : bins.length = bins.countP (· < n - k) + bins.countP (n - k ≤ ·) := by
    rw [List.length_eq_countP_add_countP fun b => decide (b < n - k)]
    simp
  omega

/-! ### The scans -/

/-- **Where a scan stops**: before that place the total is within the limit, and with that place it
is not. -/
theorem firstAbove_spec (limit : ℕ) (counts : List ℕ) {total : ℕ} (htotal : total ≤ limit) :
    firstAbove limit counts total ≤ counts.length ∧
      total + (counts.take (firstAbove limit counts total)).sum ≤ limit ∧
      (firstAbove limit counts total < counts.length →
        limit < total + (counts.take (firstAbove limit counts total + 1)).sum) := by
  induction counts generalizing total with
  | nil => exact ⟨le_rfl, by simpa [firstAbove] using htotal, fun h => absurd h (Nat.lt_irrefl 0)⟩
  | cons count counts ih =>
      rw [firstAbove]
      split_ifs with hstop
      · exact ⟨Nat.zero_le _, by simpa using htotal, fun _ => by simpa using hstop⟩
      · obtain ⟨hle, hwithin, hbeyond⟩ := ih (not_lt.1 hstop)
        refine ⟨by simpa using hle, ?_, ?_⟩
        · rw [List.take_succ_cons, List.sum_cons]
          omega
        · intro hlt
          have hbeyond := hbeyond (by simpa using hlt)
          rw [List.take_succ_cons, List.sum_cons]
          omega

/-- A scan stops before the end if the total of all counts exceeds the limit. -/
theorem firstAbove_lt {limit : ℕ} {counts : List ℕ} (h : limit < counts.sum) :
    firstAbove limit counts 0 < counts.length := by
  obtain ⟨hle, hwithin, -⟩ := firstAbove_spec limit counts (Nat.zero_le limit)
  refine lt_of_le_of_ne hle fun heq => ?_
  rw [heq, List.take_length] at hwithin
  omega

/-- The scan from below. -/
theorem firstAbove_tally {limit n : ℕ} {bins : List ℕ} (hbins : ∀ b ∈ bins, b < n)
    (hlimit : limit < bins.length) :
    firstAbove limit (tally n bins) 0 < n ∧
      bins.countP (· < firstAbove limit (tally n bins) 0) ≤ limit ∧
      limit < bins.countP (· ≤ firstAbove limit (tally n bins) 0) := by
  have hlt := firstAbove_lt (hlimit.trans_eq (sum_tally hbins).symm)
  obtain ⟨-, hwithin, hbeyond⟩ := firstAbove_spec limit (tally n bins) (Nat.zero_le limit)
  have hbeyond := hbeyond hlt
  rw [tally_length] at hlt
  rw [sum_take_tally bins hlt.le, Nat.zero_add] at hwithin
  rw [sum_take_tally bins hlt, Nat.zero_add] at hbeyond
  refine ⟨hlt, hwithin, ?_⟩
  simpa only [Nat.lt_succ_iff] using hbeyond

/-- The scan from above. -/
theorem firstAbove_reverse {limit n : ℕ} {bins : List ℕ} (hbins : ∀ b ∈ bins, b < n)
    (hlimit : limit < bins.length) :
    firstAbove limit (tally n bins).reverse 0 < n ∧
      bins.countP (n - 1 - firstAbove limit (tally n bins).reverse 0 < ·) ≤ limit ∧
      limit < bins.countP (n - 1 - firstAbove limit (tally n bins).reverse 0 ≤ ·) := by
  have hsum : (tally n bins).reverse.sum = bins.length := by
    rw [List.sum_reverse, sum_tally hbins]
  have hlt := firstAbove_lt (hlimit.trans_eq hsum.symm)
  obtain ⟨-, hwithin, hbeyond⟩ := firstAbove_spec limit (tally n bins).reverse (Nat.zero_le limit)
  have hbeyond := hbeyond hlt
  rw [List.length_reverse, tally_length] at hlt
  rw [sum_take_reverse hbins, Nat.zero_add] at hwithin
  rw [sum_take_reverse hbins, Nat.zero_add] at hbeyond
  generalize firstAbove limit (tally n bins).reverse 0 = k at hlt hwithin hbeyond
  refine ⟨hlt, ?_, ?_⟩
  · have hkey : ∀ b, n - 1 - k < b ↔ n - k ≤ b := fun b => by omega
    simpa only [hkey] using hwithin
  · have hkey : ∀ b, n - 1 - k ≤ b ↔ n - (k + 1) ≤ b := fun b => by omega
    simpa only [hkey] using hbeyond

/-- **The window between the two scans** is not empty when both limits together leave something. -/
theorem window {lower upper n : ℕ} {bins : List ℕ} (hbins : ∀ b ∈ bins, b < n)
    (hlimits : lower + upper < bins.length) :
    firstAbove lower (tally n bins) 0 ≤ n - 1 - firstAbove upper (tally n bins).reverse 0 := by
  obtain ⟨hlow, hbelow, -⟩ := @firstAbove_tally lower n bins hbins (by omega)
  obtain ⟨hhigh, habove, -⟩ := @firstAbove_reverse upper n bins hbins (by omega)
  generalize firstAbove lower (tally n bins) 0 = low at *
  generalize firstAbove upper (tally n bins).reverse 0 = k at *
  by_contra hcross
  -- every number would lie below the one end or above the other
  have hcover : bins.length ≤ bins.countP (· < low) + bins.countP (n - 1 - k < ·) := by
    clear hbelow habove hlimits
    induction bins with
    | nil => exact Nat.zero_le _
    | cons b bins ih =>
        have hrest := ih fun b hb => hbins b (List.mem_cons_of_mem _ hb)
        rw [List.countP_cons, List.countP_cons, List.length_cons]
        by_cases hb : b < low
        · simp only [hb, decide_true, if_true]
          omega
        · have habove : n - 1 - k < b := by omega
          simp only [habove, decide_true, if_true]
          omega
  omega

end Histogram
