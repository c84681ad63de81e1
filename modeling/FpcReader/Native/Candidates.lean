/-
**Mutual nearest neighbours.**

The matcher pairs feature `i` of one capture with feature `j` of the other when each is the
nearest of the other, ties going to the first index, and their distance is below a threshold.  The
distances come as a byte matrix whose rows may be padded.

Main definitions:

* `Fpc.Candidate` — a pair of feature indices, its distance and its flag;
* `Fpc.mutualCandidates` — the two scans over the matrix;
* `Fpc.IsMutualPair` — what a candidate is supposed to be.

Main results:

* `Fpc.mem_mutualCandidates` — **every candidate is a mutual nearest pair below the threshold**;
* `Fpc.mutualCandidates_first_sorted`, `Fpc.mutualCandidates_second_nodup` — no feature of either
  capture occurs in two candidates;
* `Fpc.mutualCandidates_exact` — **the candidates are all the mutual pairs and nothing else**, for
  every stride, threshold and pair of offsets.
-/

import FpcReader.Lib.Scans
import FpcReader.Native.Descriptor
import Mathlib.Data.List.Perm.Subperm

set_option relaxedAutoImplicit false
set_option autoImplicit false

namespace Fpc

open Scans

/-- A candidate pair of features.  All four fields are small unsigned integers in the source. -/
structure Candidate where
  first : ℕ
  second : ℕ
  distance : ℕ
  flag : ℕ
  deriving DecidableEq, Repr

/-- An entry of the distance matrix. -/
def matrixEntry (matrix : List UInt8) (stride i j : ℕ) : ℕ :=
  (matrix.getD (i * stride + j) 0).toNat

/-- The mutual nearest pairs of a distance matrix, in increasing order of the first index. -/
def mutualCandidates (matrix : List UInt8) (firstCount secondCount stride threshold : ℕ)
    (firstOffset secondOffset capacity : ℕ) : Option (List Candidate) :=
  if 32767 < firstCount ∨ 32767 < secondCount ∨ stride < secondCount ∨ capacity < firstCount ∨
      (firstCount ≠ 0 ∧ (2 ^ 64 - 1) / firstCount < stride) then none
  else if firstCount = 0 ∨ secondCount = 0 then some []
  else
    -- a row or column that is saturated throughout has its first entry as its nearest
    let nearest := (List.range secondCount).map fun j =>
      (firstMin 255 (fun i => matrixEntry matrix stride i j) firstCount).2
    some ((List.range firstCount).filterMap fun i =>
      let best := firstMin 255 (fun j => matrixEntry matrix stride i j) secondCount
      if nearest.getD best.2 0 = i ∧ best.1 < threshold then
        some ⟨(i + firstOffset) % 65536, (best.2 + secondOffset) % 65536, best.1, 0⟩
      else none)

/-- Features `i` and `j` are each the first nearest of the other, at a distance below the
threshold. -/
structure IsMutualPair (distance : ℕ → ℕ → ℕ) (firstCount secondCount threshold i j : ℕ) :
    Prop where
  row : IsFirstMin (fun j => distance i j) secondCount j
  column : IsFirstMin (fun i => distance i j) firstCount i
  below : distance i j < threshold

/-- The second index determines the first. -/
theorem IsMutualPair.first_unique {distance : ℕ → ℕ → ℕ} {n m threshold i i' j : ℕ}
    (h : IsMutualPair distance n m threshold i j) (h' : IsMutualPair distance n m threshold i' j) :
    i = i' :=
  h.column.unique h'.column

section Spec

variable {matrix : List UInt8} {firstCount secondCount stride threshold : ℕ}
variable {firstOffset secondOffset capacity : ℕ} {candidates : List Candidate}

theorem matrixEntry_le (matrix : List UInt8) (stride i j : ℕ) :
    matrixEntry matrix stride i j ≤ 255 :=
  Nat.lt_succ_iff.1 (UInt8.toNat_lt _)

/-- The scans, read off as one description of the list. -/
theorem mutualCandidates_eq
    (h : mutualCandidates matrix firstCount secondCount stride threshold firstOffset secondOffset
      capacity = some candidates) :
    firstCount ≤ 32767 ∧ secondCount ≤ 32767 ∧
      ∃ pick : ℕ → Option Candidate,
        candidates = (List.range firstCount).filterMap pick ∧
        ∀ i c, i < firstCount → pick i = some c →
          ∃ j, IsMutualPair (matrixEntry matrix stride) firstCount secondCount threshold i j ∧
            c = ⟨(i + firstOffset) % 65536, (j + secondOffset) % 65536,
              matrixEntry matrix stride i j, 0⟩ := by
  unfold mutualCandidates at h
  split_ifs at h with hguard hempty
  · push Not at hguard
    refine ⟨by omega, by omega, fun _ => none, ?_, by simp⟩
    simp only [Option.some.injEq] at h
    simp [← h]
  · push Not at hguard hempty
    refine ⟨by omega, by omega, _, (Option.some.inj h).symm, ?_⟩
    intro i c hi hc
    have hrow := firstMin_spec 255 (fun j => matrixEntry matrix stride i j)
      (Nat.pos_of_ne_zero hempty.2) (fun j _ => matrixEntry_le matrix stride i j)
    set best := firstMin 255 (fun j => matrixEntry matrix stride i j) secondCount with hbest
    dsimp only at hc
    split_ifs at hc with hpick
    obtain ⟨hnear, hbelow⟩ := hpick
    have hcol := firstMin_spec 255 (fun i => matrixEntry matrix stride i best.2)
      (Nat.pos_of_ne_zero hempty.1) (fun i _ => matrixEntry_le matrix stride i best.2)
    have hnear' :
        (firstMin 255 (fun i => matrixEntry matrix stride i best.2) firstCount).2 = i := by
      rw [List.getD_eq_getElem _ _ (by simpa using hrow.1.lt)] at hnear
      simpa using hnear
    rw [hnear'] at hcol
    exact ⟨best.2, ⟨hrow.1, hcol.1, hrow.2 ▸ hbelow⟩, by rw [← hrow.2, ← Option.some.inj hc]⟩

/-- **Every candidate is a mutual nearest pair below the threshold.** -/
theorem mem_mutualCandidates
    (h : mutualCandidates matrix firstCount secondCount stride threshold 0 0 capacity =
      some candidates) {c : Candidate} (hc : c ∈ candidates) :
    IsMutualPair (matrixEntry matrix stride) firstCount secondCount threshold c.first c.second ∧
      c.flag = 0 := by
  obtain ⟨hfirst, hsecond, pick, rfl, hpick⟩ := mutualCandidates_eq h
  obtain ⟨i, hi, hci⟩ := List.mem_filterMap.1 hc
  obtain ⟨j, hpair, rfl⟩ := hpick i c (List.mem_range.1 hi) hci
  have hj := hpair.row.lt
  have hi := hpair.column.lt
  have h1 : (i + 0) % 65536 = i := by omega
  have h2 : (j + 0) % 65536 = j := by omega
  simp only [h1, h2, and_true]
  exact hpair

/-- The first indices of the candidates increase strictly. -/
theorem mutualCandidates_first_sorted
    (h : mutualCandidates matrix firstCount secondCount stride threshold 0 0 capacity =
      some candidates) :
    candidates.Pairwise (fun c d => c.first < d.first) := by
  obtain ⟨hfirst, -, pick, rfl, hpick⟩ := mutualCandidates_eq h
  have hval : ∀ i ∈ List.range firstCount, ∀ c, pick i = some c → c.first = i := by
    intro i hi c hc
    obtain ⟨j, hpair, rfl⟩ := hpick i c (List.mem_range.1 hi) hc
    have := List.mem_range.1 hi
    show (i + 0) % 65536 = i
    omega
  refine List.Pairwise.filterMap (R := fun i i' => i ∈ List.range firstCount ∧
    i' ∈ List.range firstCount ∧ i < i') _ ?_ ?_
  · rintro i i' ⟨hi, hi', hlt⟩ c hc d hd
    rw [hval i hi c hc, hval i' hi' d hd]
    exact hlt
  · exact (List.pairwise_lt_range (n := firstCount)).imp_of_mem fun hi hi' hlt => ⟨hi, hi', hlt⟩

/-- The second indices of the candidates are pairwise distinct. -/
theorem mutualCandidates_second_nodup
    (h : mutualCandidates matrix firstCount secondCount stride threshold 0 0 capacity =
      some candidates) :
    (candidates.map Candidate.second).Nodup := by
  refine List.pairwise_map.2 ((mutualCandidates_first_sorted h).imp_of_mem ?_)
  intro c d hc hd hlt hcd
  have hpc := (mem_mutualCandidates h hc).1
  have hpd := (mem_mutualCandidates h hd).1
  rw [hcd] at hpc
  exact hlt.ne (hpc.first_unique hpd)

end Spec

/-! ### The candidates are exactly the mutual pairs -/

/-- The candidate the pair `(i, j)` is reported as. -/
def candidateOf (matrix : List UInt8) (stride firstOffset secondOffset : ℕ) (pair : ℕ × ℕ) :
    Candidate :=
  ⟨(pair.1 + firstOffset) % 65536, (pair.2 + secondOffset) % 65536,
    matrixEntry matrix stride pair.1 pair.2, 0⟩

/-- What the second scan finds at row `i`. -/
def mutualPick (distance : ℕ → ℕ → ℕ) (firstCount secondCount threshold i : ℕ) :
    Option (ℕ × ℕ) :=
  let best := firstMin 255 (fun j => distance i j) secondCount
  if (firstMin 255 (fun i => distance i best.2) firstCount).2 = i ∧ best.1 < threshold then
    some (i, best.2)
  else none

/-- A row is picked exactly when it has a mutual pair, and then with its first nearest column.  The
two scans start at the largest distance and at index zero, which is right for a saturated row
or column as well. -/
theorem mutualPick_eq_some {distance : ℕ → ℕ → ℕ} {firstCount secondCount threshold i j k : ℕ}
    (hle : ∀ i j, distance i j ≤ 255) (hsecond : 0 < secondCount) (hi : i < firstCount) :
    mutualPick distance firstCount secondCount threshold i = some (j, k) ↔
      j = i ∧ IsMutualPair distance firstCount secondCount threshold i k := by
  obtain ⟨hrow, hvalue⟩ := firstMin_spec 255 (fun j => distance i j) hsecond (fun j _ => hle i j)
  obtain ⟨hcol, -⟩ := firstMin_spec 255
    (fun i' => distance i' (firstMin 255 (fun j => distance i j) secondCount).2)
    (Nat.zero_lt_of_lt hi) (fun i' _ => hle i' _)
  unfold mutualPick
  dsimp only at hvalue ⊢
  constructor
  · intro h
    split_ifs at h with hpick
    simp only [Option.some.injEq, Prod.mk.injEq] at h
    obtain ⟨rfl, rfl⟩ := h
    rw [hpick.1] at hcol
    exact ⟨rfl, hrow, hcol, hvalue ▸ hpick.2⟩
  · rintro ⟨rfl, hpair⟩
    have hk := hrow.unique hpair.row
    rw [hk] at hcol hvalue ⊢
    rw [if_pos ⟨hcol.unique hpair.column, hvalue ▸ hpair.below⟩]

/-- The pairs in the order in which the second scan writes them. -/
def mutualPairs (distance : ℕ → ℕ → ℕ) (firstCount secondCount threshold : ℕ) : List (ℕ × ℕ) :=
  if secondCount = 0 then []
  else (List.range firstCount).filterMap (mutualPick distance firstCount secondCount threshold)

theorem mem_mutualPairs {distance : ℕ → ℕ → ℕ} {firstCount secondCount threshold : ℕ}
    (hle : ∀ i j, distance i j ≤ 255) {i j : ℕ} :
    (i, j) ∈ mutualPairs distance firstCount secondCount threshold ↔
      IsMutualPair distance firstCount secondCount threshold i j := by
  rw [mutualPairs]
  split_ifs with hsecond
  · simp only [List.not_mem_nil, false_iff]
    intro h
    have := h.row.lt
    omega
  · rw [List.mem_filterMap]
    constructor
    · rintro ⟨a, ha, hpick⟩
      obtain ⟨rfl, h⟩ := (mutualPick_eq_some hle (Nat.pos_of_ne_zero hsecond)
        (List.mem_range.1 ha)).1 hpick
      exact h
    · intro h
      refine ⟨i, List.mem_range.2 h.column.lt, ?_⟩
      exact (mutualPick_eq_some hle (Nat.pos_of_ne_zero hsecond) h.column.lt).2 ⟨rfl, h⟩

theorem mutualPairs_sorted {distance : ℕ → ℕ → ℕ} {firstCount secondCount threshold : ℕ}
    (hle : ∀ i j, distance i j ≤ 255) :
    (mutualPairs distance firstCount secondCount threshold).Pairwise fun p q => p.1 < q.1 := by
  rw [mutualPairs]
  split_ifs with hsecond
  · exact List.Pairwise.nil
  · refine List.Pairwise.filterMap (R := fun i i' => i ∈ List.range firstCount ∧
      i' ∈ List.range firstCount ∧ i < i') _ ?_ ?_
    · rintro i i' ⟨hi, hi', hlt⟩ p hp q hq
      rw [((mutualPick_eq_some hle (Nat.pos_of_ne_zero hsecond) (List.mem_range.1 hi)).1 hp).1,
        ((mutualPick_eq_some hle (Nat.pos_of_ne_zero hsecond) (List.mem_range.1 hi')).1 hq).1]
      exact hlt
    · exact (List.pairwise_lt_range (n := firstCount)).imp_of_mem
        fun hi hi' hlt => ⟨hi, hi', hlt⟩

/-- No feature of the second capture is in two pairs either. -/
theorem mutualPairs_second_ne {distance : ℕ → ℕ → ℕ} {firstCount secondCount threshold : ℕ}
    (hle : ∀ i j, distance i j ≤ 255) :
    (mutualPairs distance firstCount secondCount threshold).Pairwise fun p q => p.2 ≠ q.2 := by
  refine (mutualPairs_sorted hle).imp_of_mem ?_
  rintro ⟨i, j⟩ ⟨i', j'⟩ hp hq hlt hne
  have hp := (mem_mutualPairs hle).1 hp
  have hq := (mem_mutualPairs hle).1 hq
  dsimp only at hlt hne
  subst hne
  exact hlt.ne (hp.first_unique hq)

/-- Distinct indices below a bound are at most as many as the bound. -/
theorem length_le_of_pairwise_ne {l : List (ℕ × ℕ)} {f : ℕ × ℕ → ℕ} {n : ℕ}
    (hne : l.Pairwise fun p q => f p ≠ f q) (hlt : ∀ p ∈ l, f p < n) : l.length ≤ n := by
  have hnodup : (l.map f).Nodup := List.pairwise_map.2 hne
  have hsub : l.map f ⊆ List.range n := by
    intro k hk
    obtain ⟨p, hp, rfl⟩ := List.mem_map.1 hk
    exact List.mem_range.2 (hlt p hp)
  simpa using (List.subperm_of_subset hnodup hsub).length_le

section Exact

variable (matrix : List UInt8) (firstCount secondCount stride threshold : ℕ)
variable (firstOffset secondOffset capacity : ℕ)

/-- The two scans of an accepted call, as the list of the pairs they find. -/
theorem mutualCandidates_eq_map (hfirst : firstCount ≤ 32767) (hsecond : secondCount ≤ 32767)
    (hstride : secondCount ≤ stride) (hcapacity : firstCount ≤ capacity)
    (hsize : firstCount ≠ 0 → stride ≤ (2 ^ 64 - 1) / firstCount) :
    mutualCandidates matrix firstCount secondCount stride threshold firstOffset secondOffset
      capacity = some ((mutualPairs (matrixEntry matrix stride) firstCount secondCount
        threshold).map (candidateOf matrix stride firstOffset secondOffset)) := by
  have hguard : ¬(32767 < firstCount ∨ 32767 < secondCount ∨ stride < secondCount ∨
      capacity < firstCount ∨ (firstCount ≠ 0 ∧ (2 ^ 64 - 1) / firstCount < stride)) := by
    push Not
    exact ⟨hfirst, hsecond, hstride, hcapacity, hsize⟩
  rw [mutualCandidates, if_neg hguard, mutualPairs]
  by_cases hempty : firstCount = 0 ∨ secondCount = 0
  · rw [if_pos hempty]
    rcases hempty with rfl | rfl <;> simp
  · rw [if_neg hempty]
    push Not at hempty
    rw [if_neg hempty.2, List.map_filterMap]
    dsimp only
    congr 1
    refine List.filterMap_congr ?_
    intro i hi
    have hrow := firstMin_spec 255 (fun j => matrixEntry matrix stride i j)
      (Nat.pos_of_ne_zero hempty.2) (fun j _ => matrixEntry_le matrix stride i j)
    dsimp only [mutualPick]
    rw [List.getD_eq_getElem _ _ (by simpa using hrow.1.lt), List.getElem_map, List.getElem_range]
    split_ifs
    · simp only [Option.map_some, candidateOf, hrow.2]
    · rfl

/-- **Mutual nearest neighbours are exact.**  A call whose sizes are accepted writes, in increasing
order of the first index, exactly the pairs whose features are each the first nearest of the other
at a distance below the threshold; no index of either side is written twice, before or after the
offsets are added, and the capacity is not exceeded. -/
theorem mutualCandidates_exact (hfirst : firstCount ≤ 32767) (hsecond : secondCount ≤ 32767)
    (hstride : secondCount ≤ stride) (hcapacity : firstCount ≤ capacity)
    (hsize : firstCount ≠ 0 → stride ≤ (2 ^ 64 - 1) / firstCount) :
    ∃ pairs : List (ℕ × ℕ),
      mutualCandidates matrix firstCount secondCount stride threshold firstOffset secondOffset
        capacity = some (pairs.map (candidateOf matrix stride firstOffset secondOffset)) ∧
      (∀ i j, (i, j) ∈ pairs ↔
        IsMutualPair (matrixEntry matrix stride) firstCount secondCount threshold i j) ∧
      pairs.Pairwise (fun p q => p.1 < q.1) ∧
      pairs.Pairwise (fun p q => p.2 ≠ q.2) ∧
      (pairs.map (candidateOf matrix stride firstOffset secondOffset)).Pairwise
        (fun c d => c.first ≠ d.first ∧ c.second ≠ d.second) ∧
      pairs.length ≤ min firstCount secondCount ∧ pairs.length ≤ capacity := by
  have hle := matrixEntry_le matrix stride
  have hmem : ∀ i j,
      (i, j) ∈ mutualPairs (matrixEntry matrix stride) firstCount secondCount threshold ↔
        IsMutualPair (matrixEntry matrix stride) firstCount secondCount threshold i j :=
    fun i j => mem_mutualPairs hle
  have hsorted : (mutualPairs (matrixEntry matrix stride) firstCount secondCount
      threshold).Pairwise fun p q => p.1 < q.1 := mutualPairs_sorted hle
  have hnodup : (mutualPairs (matrixEntry matrix stride) firstCount secondCount
      threshold).Pairwise fun p q => p.2 ≠ q.2 := mutualPairs_second_ne hle
  have hrows := length_le_of_pairwise_ne (n := firstCount) (hsorted.imp Nat.ne_of_lt)
    fun p hp => ((hmem p.1 p.2).1 hp).column.lt
  have hcols := length_le_of_pairwise_ne (n := secondCount) hnodup
    fun p hp => ((hmem p.1 p.2).1 hp).row.lt
  refine ⟨_, mutualCandidates_eq_map matrix firstCount secondCount stride threshold firstOffset
    secondOffset capacity hfirst hsecond hstride hcapacity hsize, hmem, hsorted, hnodup, ?_,
    le_min hrows hcols, hrows.trans hcapacity⟩
  -- indices stay apart modulo `2 ^ 16`, because both counts are below it
  rw [List.pairwise_map]
  refine (hsorted.and hnodup).imp_of_mem ?_
  rintro ⟨i, j⟩ ⟨i', j'⟩ hp hq ⟨hi, hj⟩
  have hp := (hmem i j).1 hp
  have hq := (hmem i' j').1 hq
  have h1 := hp.column.lt
  have h2 := hq.column.lt
  have h3 := hp.row.lt
  have h4 := hq.row.lt
  dsimp only [candidateOf] at hi hj ⊢
  constructor <;> omega

end Exact

/-- A saturated two by two matrix with padded rows: every minimum is the largest distance, found at
index zero, and a threshold above it lets that pair through. -/
theorem mutualCandidates_exact_saturated :
    mutualCandidates [255, 255, 0, 255, 255, 0] 2 2 3 256 65535 7 2 =
        some [⟨65535, 7, 255, 0⟩] ∧
      ∃ pairs : List (ℕ × ℕ),
        mutualCandidates [255, 255, 0, 255, 255, 0] 2 2 3 256 65535 7 2 =
          some (pairs.map (candidateOf [255, 255, 0, 255, 255, 0] 3 65535 7)) ∧
        pairs.length ≤ 2 := by
  obtain ⟨pairs, heq, -, -, -, -, -, hlen⟩ := mutualCandidates_exact
    [255, 255, 0, 255, 255, 0] 2 2 3 256 65535 7 2 (by norm_num) (by norm_num) (by norm_num)
    (by norm_num) (by norm_num)
  exact ⟨by decide, pairs, heq, hlen⟩

end Fpc
