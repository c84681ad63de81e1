/-
**Edges of captures, and exchanging two of them.**

The scores between the captures of an enrollment stand in an array of pairs, row by row.  The place
of a pair is computed in machine words, whose subtraction wraps around for the first capture without
doing harm.  Two captures are exchanged by exchanging, for every other capture, its edges with the
two: no place takes part in two exchanges, so the result is a renaming.

Main definitions:

* `Fpc.enrollmentPairIndexWord` — the place of a pair, in machine words;
* `Fpc.enrollmentSwapCaptureScores` — exchanging two captures;
* `Fpc.scoreBetween` — the score of two captures.

Main results:

* `Fpc.enrollmentPairIndexWord_toNat` — the words do not wrap around in the result;
* `Fpc.enrollmentSwapCaptureScores_eq` — the loop is a sequence of exchanges that do not meet;
* `Fpc.origin_place` — **exchanging edges renames captures**.
-/

import FpcReader.Lib.Swaps
import FpcReader.Native.Blocks
import FpcReader.Native.EdgePlaces

set_option relaxedAutoImplicit false
set_option autoImplicit false

namespace Fpc

open Fallible

/-! ### The place of a pair -/

/-- `fpc_enrollment_pair_index` in the words of the source. -/
def enrollmentPairIndexWord (capacity first second : UInt64) : Option UInt64 :=
  if capacity < 2 ∨ 65535 < capacity ∨ capacity ≤ first ∨ capacity ≤ second ∨ first = second then
    none
  else
    let low := if first < second then first else second
    let high := if first < second then second else first
    some (low * (capacity - 2) - low * (low - 1) / 2 + high - 1)

/-- The product of a word that wraps around below zero. -/
theorem word_triangle {low : UInt64} (h : low.toNat < 65535) :
    (low * (low - 1) / 2).toNat = low.toNat * (low.toNat - 1) / 2 := by
  rw [UInt64.toNat_div, UInt64.toNat_mul]
  rcases Nat.eq_zero_or_pos low.toNat with h0 | hpos
  · rw [h0, Nat.zero_mul, Nat.zero_mul]
    rfl
  · have hsub : (low - 1).toNat = low.toNat - 1 := by
      rw [UInt64.toNat_sub_of_le]
      · rfl
      · rw [UInt64.le_iff_toNat_le]
        exact hpos
    have hprod : low.toNat * (low.toNat - 1) ≤ 65535 * 65535 :=
      Nat.mul_le_mul (by omega) (by omega)
    rw [hsub, Nat.mod_eq_of_lt (by omega)]
    rfl

/-- The place of two captures in order, computed in words. -/
theorem word_row {capacity low high : UInt64} (hlt : low.toNat < high.toNat)
    (hhigh : high.toNat < capacity.toNat) (hmax : capacity.toNat ≤ 65535) :
    (low * (capacity - 2) - low * (low - 1) / 2 + high - 1).toNat =
      Triangle.row capacity.toNat low.toNat high.toNat := by
  set c := capacity.toNat with hc
  have hprod : low.toNat * (c - 2) ≤ 65535 * 65535 := Nat.mul_le_mul (by omega) (by omega)
  have hless : low.toNat * (low.toNat - 1) ≤ low.toNat * (c - 2) :=
    Nat.mul_le_mul_left _ (by omega)
  have htwo : (capacity - 2).toNat = c - 2 := by
    rw [UInt64.toNat_sub_of_le]
    · rfl
    · rw [UInt64.le_iff_toNat_le]
      show 2 ≤ c
      omega
  have hmul : (low * (capacity - 2)).toNat = low.toNat * (c - 2) := by
    rw [UInt64.toNat_mul, htwo, Nat.mod_eq_of_lt (by omega)]
  have hsmall : low.toNat < 65535 := by omega
  have htriangle := word_triangle hsmall
  have hsub : (low * (capacity - 2) - low * (low - 1) / 2).toNat =
      low.toNat * (c - 2) - low.toNat * (low.toNat - 1) / 2 := by
    rw [UInt64.toNat_sub_of_le, hmul, htriangle]
    rw [UInt64.le_iff_toNat_le, hmul, htriangle]
    omega
  have hadd : (low * (capacity - 2) - low * (low - 1) / 2 + high).toNat =
      low.toNat * (c - 2) - low.toNat * (low.toNat - 1) / 2 + high.toNat := by
    rw [UInt64.toNat_add, hsub, Nat.mod_eq_of_lt (by omega)]
  have hone : (1 : UInt64) ≤ low * (capacity - 2) - low * (low - 1) / 2 + high := by
    rw [UInt64.le_iff_toNat_le, hadd]
    show 1 ≤ _
    omega
  rw [UInt64.toNat_sub_of_le _ _ hone, hadd]
  rfl

/-- **The words compute the place without wrapping around.** -/
theorem enrollmentPairIndexWord_toNat (capacity first second : UInt64) :
    (enrollmentPairIndexWord capacity first second).map UInt64.toNat =
      enrollmentPairIndex capacity.toNat first.toNat second.toNat := by
  have hguard : (capacity < 2 ∨ 65535 < capacity ∨ capacity ≤ first ∨ capacity ≤ second ∨
      first = second) ↔ (capacity.toNat < 2 ∨ 65535 < capacity.toNat ∨
        capacity.toNat ≤ first.toNat ∨ capacity.toNat ≤ second.toNat ∨
        first.toNat = second.toNat) := by
    simp only [UInt64.lt_iff_toNat_lt, UInt64.le_iff_toNat_le, UInt64.toNat_inj]
    rfl
  unfold enrollmentPairIndexWord enrollmentPairIndex
  by_cases hbad : capacity < 2 ∨ 65535 < capacity ∨ capacity ≤ first ∨ capacity ≤ second ∨
      first = second
  · rw [if_pos hbad, if_pos (hguard.1 hbad), Option.map_none]
  rw [if_neg hbad, if_neg fun h => hbad (hguard.2 h), Option.map_some]
  have hrange : ¬(capacity.toNat < 2 ∨ 65535 < capacity.toNat ∨ capacity.toNat ≤ first.toNat ∨
      capacity.toNat ≤ second.toNat ∨ first.toNat = second.toNat) := fun h => hbad (hguard.2 h)
  by_cases h : first < second
  · have hlt := UInt64.lt_iff_toNat_lt.1 h
    simp only [if_pos h]
    rw [word_row hlt (by omega) (by omega), Nat.min_eq_left hlt.le, Nat.max_eq_right hlt.le]
    rfl
  · have hlt : second.toNat < first.toNat := by
      rw [UInt64.lt_iff_toNat_lt] at h
      omega
    simp only [if_neg h]
    rw [word_row hlt (by omega) (by omega), Nat.min_eq_right hlt.le, Nat.max_eq_left hlt.le]
    rfl

/-! ### Exchanging two captures -/

/-- Exchange two scores; both have to be there. -/
def swapScores (scores : List UInt16) (a b : ℕ) : Except Fault (List UInt16) :=
  match Swaps.swapAt scores a b with
  | some swapped => .ok swapped
  | none => .error .outOfBounds

/-- The edges of the two captures with a third one. -/
def swapCaptureStep (capacity first second : ℕ) (scores : List UInt16) (i : ℕ) :
    Except Fault (List UInt16) :=
  if i ≠ first ∧ i ≠ second then
    match enrollmentPairIndex capacity first i, enrollmentPairIndex capacity second i with
    | some a, some b => swapScores scores a b
    | _, _ => .error (.status (-1))
  else .ok scores

/-- Exchange two captures in an array of `scoreCount` scores. -/
def enrollmentSwapCaptureScores (scores : List UInt16) (scoreCount capacity first second : ℕ) :
    Except Fault (List UInt16) :=
  if capacity < 2 ∨ 65535 < capacity ∨ capacity ≤ first ∨ capacity ≤ second ∨
      scoreCount < capacity * (capacity - 1) / 2 then
    .error (.status (-1))
  else if first = second then .ok scores
  else (List.range capacity).foldlM (swapCaptureStep capacity first second) scores

section Swapping

variable {capacity first second : ℕ}

/-- The exchanges for some captures. -/
def captureSwaps (capacity first second : ℕ) (slots : List ℕ) : List (ℕ × ℕ) :=
  (slots.filter fun i => i ≠ first ∧ i ≠ second).map fun i =>
    (place capacity first i, place capacity second i)

theorem mem_captureSwaps {slots : List ℕ} {p : ℕ × ℕ} :
    p ∈ captureSwaps capacity first second slots ↔ ∃ i ∈ slots, i ≠ first ∧ i ≠ second ∧
      p = (place capacity first i, place capacity second i) := by
  simp only [captureSwaps, List.mem_map, List.mem_filter, decide_eq_true_eq]
  constructor
  · rintro ⟨i, ⟨hi, hfirst, hsecond⟩, rfl⟩
    exact ⟨i, hi, hfirst, hsecond, rfl⟩
  · rintro ⟨i, hi, hfirst, hsecond, rfl⟩
    exact ⟨i, ⟨hi, hfirst, hsecond⟩, rfl⟩

/-- The loop over some captures is a sequence of exchanges. -/
theorem foldlM_swapCaptureStep (h2 : 2 ≤ capacity) (hmax : capacity ≤ 65535)
    (hfirst : first < capacity) (hsecond : second < capacity) {slots : List ℕ}
    (hslots : ∀ i ∈ slots, i < capacity) {scores swapped : List UInt16}
    (h : Swaps.swapAll (captureSwaps capacity first second slots) scores = some swapped) :
    slots.foldlM (swapCaptureStep capacity first second) scores = .ok swapped := by
  induction slots generalizing scores with
  | nil =>
      obtain rfl := Option.some.inj h
      rfl
  | cons i slots ih =>
      have hrest : ∀ j ∈ slots, j < capacity := fun j hj => hslots j (by simp [hj])
      have hi := hslots i (by simp)
      rw [List.foldlM_cons, swapCaptureStep]
      by_cases hother : i ≠ first ∧ i ≠ second
      · have hswaps : captureSwaps capacity first second (i :: slots) =
            (place capacity first i, place capacity second i) ::
              captureSwaps capacity first second slots := by
          simp only [captureSwaps]
          rw [List.filter_cons_of_pos (by simpa using hother), List.map_cons]
        rw [hswaps] at h
        obtain ⟨next, hnext, hlater⟩ := Option.bind_eq_some_iff.1 h
        rw [if_pos hother, enrollmentPairIndex_place h2 hmax hfirst hi hother.1.symm,
          enrollmentPairIndex_place h2 hmax hsecond hi hother.2.symm]
        simp only [swapScores, hnext, ok_bind]
        exact ih hrest hlater
      · have hswaps : captureSwaps capacity first second (i :: slots) =
            captureSwaps capacity first second slots := by
          simp only [captureSwaps]
          rw [List.filter_cons_of_neg (by simpa using hother)]
        rw [hswaps] at h
        rw [if_neg hother, ok_bind]
        exact ih hrest h

/-- No edge takes part in two exchanges. -/
theorem captureSwaps_apart (hfirst : first < capacity) (hsecond : second < capacity) :
    (captureSwaps capacity first second (List.range capacity)).Pairwise Swaps.Apart := by
  rw [captureSwaps, List.pairwise_map]
  refine (List.nodup_range.filter _).imp_of_mem ?_
  intro i j hi hj hij
  simp only [List.mem_filter, List.mem_range, decide_eq_true_eq] at hi hj
  have hplace : ∀ x y, x < capacity → y < capacity → (x = first ∨ x = second) →
      (y = first ∨ y = second) → place capacity x i ≠ place capacity y j := by
    intro x y hx hy hx' hy' heq
    have := place_inj hx hi.1 (by omega) hy hj.1 (by omega) heq
    omega
  exact ⟨hplace _ _ hfirst hfirst (by simp) (by simp),
    hplace _ _ hfirst hsecond (by simp) (by simp), hplace _ _ hsecond hfirst (by simp) (by simp),
    hplace _ _ hsecond hsecond (by simp) (by simp)⟩

/-- The edges with a third capture change places. -/
theorem origin_third (hfirst : first < capacity) (hsecond : second < capacity) {c : ℕ}
    (hc : c < capacity) (hcf : c ≠ first) (hcs : c ≠ second) :
    Swaps.origin (captureSwaps capacity first second (List.range capacity))
        (place capacity first c) = place capacity second c ∧
      Swaps.origin (captureSwaps capacity first second (List.range capacity))
        (place capacity second c) = place capacity first c := by
  have hapart := captureSwaps_apart hfirst hsecond
  have hmem : (place capacity first c, place capacity second c) ∈
      captureSwaps capacity first second (List.range capacity) :=
    mem_captureSwaps.2 ⟨c, List.mem_range.2 hc, hcf, hcs, rfl⟩
  exact ⟨Swaps.origin_left hapart hmem, Swaps.origin_right hapart hmem⟩

/-- The edges with both captures or with neither stay. -/
theorem origin_both (hfirst : first < capacity) (hsecond : second < capacity) {i j : ℕ}
    (hi : i < capacity) (hj : j < capacity) (hij : i ≠ j)
    (hboth : (i = first ∨ i = second) ↔ (j = first ∨ j = second)) :
    Swaps.origin (captureSwaps capacity first second (List.range capacity)) (place capacity i j) =
      place capacity i j := by
  refine Swaps.origin_of_not_mem ?_
  intro p hp
  obtain ⟨c, hc, hcf, hcs, rfl⟩ := mem_captureSwaps.1 hp
  rw [List.mem_range] at hc
  constructor
  · intro heq
    have := place_inj hi hj hij hfirst hc hcf.symm heq
    omega
  · intro heq
    have := place_inj hi hj hij hsecond hc hcs.symm heq
    omega

/-- **Exchanging edges renames captures.** -/
theorem origin_place (hfirst : first < capacity) (hsecond : second < capacity) {i j : ℕ}
    (hi : i < capacity) (hj : j < capacity) (hij : i ≠ j) :
    Swaps.origin (captureSwaps capacity first second (List.range capacity)) (place capacity i j) =
      place capacity (Equiv.swap first second i) (Equiv.swap first second j) := by
  rw [Equiv.swap_apply_def, Equiv.swap_apply_def]
  by_cases hif : i = first
  · subst hif
    by_cases hjs : j = second
    · subst hjs
      rw [origin_both hfirst hsecond hi hj hij (by simp), if_pos rfl, if_neg hij.symm, if_pos rfl,
        place_comm]
    · rw [if_pos rfl, if_neg hij.symm, if_neg hjs]
      exact (origin_third hfirst hsecond hj hij.symm hjs).1
  by_cases his : i = second
  · subst his
    by_cases hjf : j = first
    · subst hjf
      rw [origin_both hfirst hsecond hi hj hij (by simp), if_neg hij, if_pos rfl, if_pos rfl,
        place_comm]
    · rw [if_neg hif, if_pos rfl, if_neg hjf, if_neg hij.symm]
      exact (origin_third hfirst hsecond hj hjf hij.symm).2
  rw [if_neg hif, if_neg his, place_comm, place_comm capacity i]
  by_cases hjf : j = first
  · subst hjf
    rw [if_pos rfl]
    exact (origin_third hfirst hsecond hi hif his).1
  by_cases hjs : j = second
  · subst hjs
    rw [if_neg hjf, if_pos rfl]
    exact (origin_third hfirst hsecond hi hif his).2
  · rw [origin_both hfirst hsecond hj hi hij.symm (by simp [hif, his, hjf, hjs]), if_neg hjf,
      if_neg hjs]

theorem swap_lt_iff (hfirst : first < capacity) (hsecond : second < capacity) (c : ℕ) :
    Equiv.swap first second c < capacity ↔ c < capacity := by
  rw [Equiv.swap_apply_def]
  split_ifs <;> omega

/-- The loop is a sequence of exchanges that do not meet. -/
theorem enrollmentSwapCaptureScores_eq {scoreCount : ℕ} {scores swapped : List UInt16}
    (h2 : 2 ≤ capacity) (hmax : capacity ≤ 65535) (hfirst : first < capacity)
    (hsecond : second < capacity) (hcount : capacity * (capacity - 1) / 2 ≤ scoreCount)
    (hne : first ≠ second)
    (h : Swaps.swapAll (captureSwaps capacity first second (List.range capacity)) scores =
      some swapped) :
    enrollmentSwapCaptureScores scores scoreCount capacity first second = .ok swapped := by
  rw [enrollmentSwapCaptureScores, if_neg (by omega), if_neg hne]
  exact foldlM_swapCaptureStep h2 hmax hfirst hsecond (fun i hi => List.mem_range.1 hi) h

/-- All places of the exchanges are there. -/
theorem captureSwaps_lt {scores : List UInt16} (hfirst : first < capacity)
    (hsecond : second < capacity) (hscores : capacity * (capacity - 1) / 2 ≤ scores.length) :
    ∀ p ∈ captureSwaps capacity first second (List.range capacity),
      p.1 < scores.length ∧ p.2 < scores.length := by
  intro p hp
  obtain ⟨c, hc, hcf, hcs, rfl⟩ := mem_captureSwaps.1 hp
  rw [List.mem_range] at hc
  exact ⟨(place_lt hfirst hc hcf.symm).trans_le hscores,
    (place_lt hsecond hc hcs.symm).trans_le hscores⟩

end Swapping

/-- The score of an edge. -/
def scoreBetween (scores : List UInt16) (capacity i j : ℕ) : Option UInt16 :=
  (enrollmentPairIndex capacity i j).bind fun index => scores[index]?

theorem scoreBetween_none {scores : List UInt16} {capacity i j : ℕ}
    (h : ¬(i < capacity ∧ j < capacity)) : scoreBetween scores capacity i j = none := by
  rw [scoreBetween, enrollmentPairIndex, if_pos (by omega)]
  rfl

/-- What exchanging two captures does, and that it undoes itself. -/
theorem enrollmentSwapCaptureScores_renames {scores : List UInt16}
    {scoreCount capacity first second : ℕ} (h2 : 2 ≤ capacity) (hmax : capacity ≤ 65535)
    (hfirst : first < capacity) (hsecond : second < capacity)
    (hcount : capacity * (capacity - 1) / 2 ≤ scoreCount) (hscores : scoreCount ≤ scores.length) :
    ∃ swapped, enrollmentSwapCaptureScores scores scoreCount capacity first second = .ok swapped ∧
      swapped.length = scores.length ∧
      (∀ i j, i ≠ j → scoreBetween swapped capacity i j =
        scoreBetween scores capacity (Equiv.swap first second i) (Equiv.swap first second j)) ∧
      (∀ k, capacity * (capacity - 1) / 2 ≤ k → swapped[k]? = scores[k]?) ∧
      enrollmentSwapCaptureScores swapped scoreCount capacity first second = .ok scores := by
  by_cases hne : first = second
  · -- nothing is done
    have hsame : ∀ values : List UInt16,
        enrollmentSwapCaptureScores values scoreCount capacity first second = .ok values := by
      intro values
      rw [enrollmentSwapCaptureScores, if_neg (by omega), if_pos hne]
    refine ⟨scores, hsame scores, rfl, ?_, fun k _ => rfl, hsame scores⟩
    intro i j _
    rw [hne, Equiv.swap_self]
    rfl
  have hplaces := captureSwaps_lt hfirst hsecond (hcount.trans hscores)
  have hapart := captureSwaps_apart hfirst hsecond
  obtain ⟨swapped, hswapped⟩ := Swaps.swapAll_isSome hplaces
  obtain ⟨hlength, hvalues⟩ := Swaps.swapAll_getElem? hswapped
  refine ⟨swapped, enrollmentSwapCaptureScores_eq h2 hmax hfirst hsecond hcount hne hswapped,
    hlength, ?_, ?_, enrollmentSwapCaptureScores_eq h2 hmax hfirst hsecond hcount hne
      (Swaps.swapAll_swapAll hapart hplaces hswapped)⟩
  · intro i j hij
    have hlt := swap_lt_iff hfirst hsecond
    by_cases hrange : i < capacity ∧ j < capacity
    · have hij' : Equiv.swap first second i ≠ Equiv.swap first second j :=
        fun heq => hij ((Equiv.swap first second).injective heq)
      rw [scoreBetween, scoreBetween, enrollmentPairIndex_place h2 hmax hrange.1 hrange.2 hij,
        enrollmentPairIndex_place h2 hmax ((hlt i).2 hrange.1) ((hlt j).2 hrange.2) hij',
        Option.bind_some, Option.bind_some, hvalues,
        origin_place hfirst hsecond hrange.1 hrange.2 hij]
    · -- neither side has such an edge
      rw [scoreBetween_none hrange, scoreBetween_none (by rw [hlt, hlt]; exact hrange)]
  · intro k hk
    rw [hvalues, Swaps.origin_of_not_mem]
    intro p hp
    obtain ⟨c, hc, hcf, hcs, rfl⟩ := mem_captureSwaps.1 hp
    rw [List.mem_range] at hc
    exact ⟨((place_lt hfirst hc hcf.symm).trans_le hk).ne',
      ((place_lt hsecond hc hcs.symm).trans_le hk).ne'⟩

/-- **The places of edges are one-to-one, and exchanging two captures renames them.**  For every
capacity from 2 to 65535 the place of a pair does not depend on its order, two different captures
below the capacity have one, every place below the number of pairs is that of exactly one pair, no
other place is given, and the machine words compute it; every other input is rejected.  Exchanging
two captures gives each edge the old score of the edge with the two names exchanged, leaves what
stands behind the edges, and done twice restores the array. -/
theorem enrollmentSwapCaptureScores_relabels :
    (∀ capacity first second, (enrollmentPairIndexWord capacity first second).map UInt64.toNat =
      enrollmentPairIndex capacity.toNat first.toNat second.toNat) ∧
    (∀ capacity first second, (enrollmentPairIndex capacity first second).isSome = true ↔
      2 ≤ capacity ∧ capacity ≤ 65535 ∧ first < capacity ∧ second < capacity ∧ first ≠ second) ∧
    (∀ capacity first second,
      enrollmentPairIndex capacity first second = enrollmentPairIndex capacity second first) ∧
    (∀ capacity first second index, enrollmentPairIndex capacity first second = some index →
      index < capacity * (capacity - 1) / 2) ∧
    (∀ capacity index, 2 ≤ capacity → capacity ≤ 65535 → index < capacity * (capacity - 1) / 2 →
      ∃! pair : ℕ × ℕ, pair.1 < pair.2 ∧ pair.2 < capacity ∧
        enrollmentPairIndex capacity pair.1 pair.2 = some index) ∧
    ∀ (scores : List UInt16) (scoreCount capacity first second : ℕ), 2 ≤ capacity →
      capacity ≤ 65535 → first < capacity → second < capacity →
      capacity * (capacity - 1) / 2 ≤ scoreCount → scoreCount ≤ scores.length →
      ∃ swapped,
        enrollmentSwapCaptureScores scores scoreCount capacity first second = .ok swapped ∧
        swapped.length = scores.length ∧
        (∀ i j, i ≠ j → scoreBetween swapped capacity i j =
          scoreBetween scores capacity (Equiv.swap first second i) (Equiv.swap first second j)) ∧
        (∀ k, capacity * (capacity - 1) / 2 ≤ k → swapped[k]? = scores[k]?) ∧
        enrollmentSwapCaptureScores swapped scoreCount capacity first second = .ok scores := by
  refine ⟨enrollmentPairIndexWord_toNat, enrollmentPairIndex_isSome_iff, enrollmentPairIndex_comm,
    ?_, fun capacity index h2 hmax h => existsUnique_pair h2 hmax h, ?_⟩
  · intro capacity first second index h
    obtain ⟨h2, hmax, hi, hj, hne⟩ := (enrollmentPairIndex_isSome_iff capacity first second).1
      (by rw [h]; rfl)
    rw [enrollmentPairIndex_place h2 hmax hi hj hne] at h
    exact Option.some.inj h ▸ place_lt hi hj hne
  · intro scores scoreCount capacity first second h2 hmax hfirst hsecond hcount hscores
    exact enrollmentSwapCaptureScores_renames h2 hmax hfirst hsecond hcount hscores

/-- Three captures, the first two exchanged: their own edge stays, the other two change places. -/
theorem enrollmentSwapCaptureScores_relabels_three :
    enrollmentPairIndex 3 0 2 = some 1 ∧
    enrollmentSwapCaptureScores [7, 8, 9] 3 3 0 1 = .ok [7, 9, 8] ∧
    ∃ swapped, enrollmentSwapCaptureScores [7, 8, 9] 3 3 0 1 = .ok swapped ∧
      enrollmentSwapCaptureScores swapped 3 3 0 1 = .ok [7, 8, 9] := by
  obtain ⟨swapped, h, -, -, -, hback⟩ := enrollmentSwapCaptureScores_relabels.2.2.2.2.2
    [7, 8, 9] 3 3 0 1 (by decide) (by decide) (by decide) (by decide) (by decide) (by decide)
  exact ⟨by decide, by decide, swapped, h, hback⟩

end Fpc
