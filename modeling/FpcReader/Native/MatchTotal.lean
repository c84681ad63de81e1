/-
**Matching never fails on captures that can be used.**

A pair the sampler takes is apart by a positive distance, even modulo `2 ^ 32`, and that is all the
fit divides by.  The indices of candidates are those of features, and the bitmaps are as large as
the counts announce.  So no check of the matcher fails, whatever the features, the level words and
the thresholds are.

Main definitions:

* `Fpc.CapturePayloadView.Usable` — a capture that has been loaded and checked.

Main results:

* `Fpc.fitSimilarityPair_isSome` — **every sampled pair can be fitted**;
* `Fpc.matchProfile300Captures_isSome`, `Fpc.matchProfile300Collection_isSome` — **matching does not
  fail**;
* `Fpc.identifyProfile300_isSome` — identification does not fail.
-/

import FpcReader.Native.GeometrySound
import FpcReader.Native.MatchOrder
import FpcReader.Native.TemplateSound

set_option relaxedAutoImplicit false
set_option autoImplicit false

namespace Fpc

open Words Scans

/-! ### Fitting -/

/-- A quotient of a word by a large divisor is small. -/
theorem tdiv_word_le (w : BitVec 32) {divisor : ℤ} (h : 65536 ≤ divisor) :
    |(signedU32 w).tdiv divisor| ≤ 32768 := by
  have hlo := w.le_toInt
  have hhi := w.toInt_lt
  have hw : (signedU32 w).natAbs ≤ 2147483648 := by
    rw [signedU32]
    norm_num at hlo hhi
    omega
  have hd : 65536 ≤ divisor.natAbs := by omega
  rw [Int.abs_eq_natAbs, Int.natAbs_tdiv]
  have hquotient : (signedU32 w).natAbs / divisor.natAbs ≤ 2147483648 / 65536 :=
    Nat.div_le_div hw hd (by norm_num)
  exact_mod_cast hquotient

/-- **Every sampled pair can be fitted.** -/
theorem fitSimilarityPair_isSome {a b : MatchCoordinates} (h : pairValid 3 a b = true) :
    (fitSimilarityPair a b).isSome = true := by
  set norm := u32 (b.x - a.x) * u32 (b.x - a.x) + u32 (b.y - a.y) * u32 (b.y - a.y) with hnorm
  have hpos : 256 < signedU32 norm := by
    simp only [pairValid, Bool.and_eq_true, decide_eq_true_eq] at h
    exact h.1.1
  have hlt : signedU32 norm < 2 ^ 31 := by
    have := norm.toInt_lt
    rw [signedU32]
    norm_num at this ⊢
    omega
  have hword : u32 (signedU32 norm) = norm := BitVec.ofInt_toInt
  obtain ⟨hlow, hhigh⟩ := leading_shift (by linarith) hlt
  rw [hword] at hlow hhigh
  set shift := (leadingFrom norm 32 + 31) % 32 with hshift
  have hdivisor : 65536 ≤ shiftFloor (signedU32 (norm <<< shift)) 14 := by
    have hshifted : norm <<< shift = u32 (signedU32 norm * 2 ^ shift) := by
      have hshifted := word_shiftLeft 32 (signedU32 norm) shift
      rw [show word 32 (signedU32 norm) = norm from hword] at hshifted
      exact hshifted
    rw [shiftFloor_eq, hshifted, signedU32_u32 (by norm_num at hlow; omega)
      (by norm_num at hhigh; omega)]
    norm_num at hlow ⊢
    omega
  have hzero : norm ≠ 0 := by
    intro hzero
    rw [hzero] at hpos
    exact absurd hpos (by decide)
  have hc := tdiv_word_le ((u32 (b.x - a.x) * u32 (b.targetX - a.targetX) +
    u32 (b.y - a.y) * u32 (b.targetY - a.targetY)) <<< shift +
      u32 (shiftFloor (shiftFloor (signedU32 (norm <<< shift)) 14) 1)) hdivisor
  have hs := tdiv_word_le ((u32 (b.x - a.x) * u32 (b.targetY - a.targetY) -
    u32 (b.y - a.y) * u32 (b.targetX - a.targetX)) <<< shift +
      u32 (shiftFloor (shiftFloor (signedU32 (norm <<< shift)) 14) 1)) hdivisor
  rw [abs_le] at hc hs
  unfold fitSimilarityPair
  dsimp only
  rw [← hnorm, if_neg hzero, ← hshift, if_neg (by omega), if_neg (by omega)]
  rfl

/-! ### The hypothesis loop -/

section Loop

variable {points : List MatchCoordinates}

/-- Trying a valid pair keeps the samples. -/
theorem tryHypothesis_isSome {iteration : ℕ} {pair : ℕ × ℕ} {st : Consensus}
    (h : pairValid 3 (points.getD pair.1 default) (points.getD pair.2 default) = true) :
    ∃ st', tryHypothesis points iteration pair st = some st' ∧ st'.sample = st.sample := by
  obtain ⟨transform, hfit⟩ := Option.isSome_iff_exists.1 (fitSimilarityPair_isSome h)
  unfold tryHypothesis
  rw [hfit]
  dsimp only
  split_ifs
  · exact ⟨_, rfl, rfl⟩
  · exact ⟨_, rfl, rfl⟩
  · exact ⟨_, rfl, rfl⟩

theorem sampleGeometryPairs_isSome (hpos : 0 < points.length) (hmany : points.length ≤ 32767)
    (state : BitVec 32 × BitVec 32) :
    ∃ sample, sampleGeometryPairs points state 3 = some sample := by
  unfold sampleGeometryPairs
  dsimp only
  rw [if_neg (by omega)]
  exact ⟨_, rfl⟩

/-- One iteration does not fail. -/
theorem hypothesisStep_isSome (hpos : 0 < points.length) (hmany : points.length ≤ 32767)
    (iteration : ℕ) {st : Consensus} (hst : SampleOk points st.sample) :
    ∃ st', hypothesisStep points iteration st = some st' ∧ SampleOk points st'.sample := by
  obtain ⟨sample, hsample, hok⟩ : ∃ sample,
      (if iteration % 16 = 0 then sampleGeometryPairs points st.sample.state 3
        else some st.sample) = some sample ∧ SampleOk points sample := by
    by_cases hslot : iteration % 16 = 0
    · obtain ⟨sample, hsample⟩ := sampleGeometryPairs_isSome hpos hmany st.sample.state
      exact ⟨sample, by rw [if_pos hslot, hsample], sampleGeometryPairs_ok hsample⟩
    · exact ⟨st.sample, by rw [if_neg hslot], hst⟩
  unfold hypothesisStep
  dsimp only
  rw [hsample]
  dsimp only
  by_cases hvalid : sample.valid.getD (iteration % 16) false = true
  · obtain ⟨pair, hpair, -, -, hv⟩ := hok.slot hvalid
    obtain ⟨st', htry, hkept⟩ : ∃ st', tryHypothesis points iteration pair
        { st with sample := sample } = some st' ∧ st'.sample = sample := tryHypothesis_isSome hv
    rw [if_pos hvalid, hpair, htry]
    exact ⟨_, rfl, by rw [← hkept] at hok; exact hok⟩
  · rw [if_neg hvalid]
    exact ⟨_, rfl, hok⟩

/-- **The loop does not fail.** -/
theorem hypothesisLoop_isSome (hpos : 0 < points.length) (hmany : points.length ≤ 32767)
    (fuel iteration : ℕ) {st : Consensus} (hst : SampleOk points st.sample) :
    ∃ st', hypothesisLoop points fuel iteration st = some st' := by
  induction fuel generalizing iteration st with
  | zero => exact ⟨st, rfl⟩
  | succ fuel ih =>
      rw [hypothesisLoop]
      split_ifs
      · obtain ⟨next, hnext, hok⟩ := hypothesisStep_isSome hpos hmany iteration hst
        rw [hnext]
        exact ih (iteration + 1) hok
      · exact ⟨st, rfl⟩

theorem initialConsensus_sampleOk : SampleOk points initialConsensus.sample :=
  ⟨by simp [initialConsensus], rfl⟩

/-- Verification does not fail on pairs within both bitmaps. -/
theorem verifyGeometryProfile300_isSome {pairs : List Candidate}
    {sourceMembership targetMembership : List UInt8} {result : GeometryResult}
    (hmany : points.length ≤ 32767)
    (hpairs : ∀ c ∈ pairs, c.first / 8 < sourceMembership.length ∧
      c.second / 8 < targetMembership.length) :
    (verifyGeometryProfile300 points pairs sourceMembership targetMembership result).isSome =
      true := by
  have hbits : ¬(pairs.any fun c =>
      decide (sourceMembership.length ≤ c.first / 8 ∨ targetMembership.length ≤ c.second / 8)) =
        true := by
    rw [List.any_eq_true]
    rintro ⟨c, hc, hout⟩
    have := hpairs c hc
    rw [decide_eq_true_eq] at hout
    omega
  unfold verifyGeometryProfile300
  dsimp only
  rw [if_neg (by omega), if_neg hbits]
  by_cases hfew : points.length < 8
  · rw [if_pos hfew]
    rfl
  · have hpos : 0 < points.length := by omega
    obtain ⟨st, hloop⟩ := hypothesisLoop_isSome hpos hmany 10000 0 initialConsensus_sampleOk
    rw [if_neg hfew, hloop]
    dsimp only
    split_ifs <;> rfl

end Loop

/-! ### Captures -/

/-- A capture whose arrays have the lengths its counts announce, and that the matcher handles. -/
structure CapturePayloadView.Usable (view : CapturePayloadView) : Prop where
  fits : view.Fits defaultFlags
  mode : view.mode = 1
  descriptorBytes : view.descriptorBytes = 16
  levels : view.levels = 1
  few : view.count ≤ 300

theorem ne_none_of_length {α : Type} {array : Option (List α)} {n : ℕ}
    (h : (array.getD []).length = n) (hn : n ≠ 0) : array ≠ none := by
  rintro rfl
  exact hn h.symm

section Captures

variable {first second : CapturePayloadView}

theorem CapturePayloadView.Usable.levelsValid (h : first.Usable) :
    captureCompactLevelsValid first = true := by
  have hfields := ne_none_of_length h.fits.levelFields (by rw [h.levels]; decide)
  have hcompact : ¬(first.count ≠ 0 ∧ first.compactCoordinates = none) := by
    rintro ⟨hcount, hnone⟩
    exact ne_none_of_length (h.fits.compact rfl) (by omega) hnone
  have hle := h.fits.levelCount_le
  have hsum := h.fits.levelCount_sum
  rw [levelCounts_eq] at hle hsum
  unfold captureCompactLevelsValid
  rw [if_neg (by rw [h.levels]; simp [hfields, hcompact])]
  simp only [Bool.and_eq_true, List.all_eq_true, decide_eq_true_eq, beq_iff_eq]
  exact ⟨hle, hsum⟩

/-- The checks before two captures are matched. -/
theorem capturesMatchable_of_usable (hfirst : first.Usable) (hsecond : second.Usable)
    {targetMembership : List UInt8} (htarget : (second.count + 7) / 8 ≤ targetMembership.length)
    {capacity : ℕ} (hcapacity : first.count ≤ capacity) :
    capturesMatchable first second targetMembership capacity = true := by
  have hdescriptors : ∀ {view : CapturePayloadView}, view.Usable → view.count ≠ 0 →
      view.descriptors ≠ none := by
    intro view h hcount
    refine ne_none_of_length (h.fits.descriptors rfl) ?_
    rw [h.descriptorBytes]
    exact Nat.mul_ne_zero hcount (by decide)
  have hmembership : first.count ≠ 0 → first.membership ≠ none := fun hcount =>
    ne_none_of_length (hfirst.fits.membership rfl) (by omega)
  have hfew := hfirst.few
  have hfew' := hsecond.few
  rw [capturesMatchable, hfirst.levelsValid, hsecond.levelsValid, Bool.true_and, Bool.true_and,
    decide_eq_true_eq]
  exact ⟨hfirst.levels, hsecond.levels, hfirst.mode, hsecond.mode, hfirst.descriptorBytes,
    hsecond.descriptorBytes, by omega, by omega, hcapacity,
    fun hcount => ⟨hdescriptors hfirst hcount, hmembership hcount⟩, hdescriptors hsecond, htarget⟩

theorem mutualCandidates_isSome (hfirst : first.count ≤ 300) (hsecond : second.count ≤ 300)
    (matrix : List UInt8) {capacity : ℕ} (hcapacity : first.count ≤ capacity) :
    ∃ pairs, mutualCandidates matrix first.count second.count second.count 64 0 0 capacity =
      some pairs := by
  have hguard : ¬(32767 < first.count ∨ 32767 < second.count ∨ second.count < second.count ∨
      capacity < first.count ∨
        (first.count ≠ 0 ∧ (2 ^ 64 - 1) / first.count < second.count)) := by
    have hquotient : first.count ≠ 0 → 300 ≤ (2 ^ 64 - 1) / first.count := by
      intro hcount
      rw [Nat.le_div_iff_mul_le (by omega)]
      omega
    omega
  unfold mutualCandidates
  rw [if_neg hguard]
  split_ifs
  · exact ⟨_, rfl⟩
  · exact ⟨_, rfl⟩

theorem mutualCandidates_length {matrix : List UInt8}
    {firstCount secondCount stride threshold firstOffset secondOffset capacity : ℕ}
    {pairs : List Candidate}
    (h : mutualCandidates matrix firstCount secondCount stride threshold firstOffset secondOffset
      capacity = some pairs) : pairs.length ≤ firstCount := by
  obtain ⟨-, -, pick, rfl, -⟩ := mutualCandidates_eq h
  exact (List.length_filterMap_le _ _).trans_eq List.length_range

/-- **Matching two captures does not fail.** -/
theorem matchProfile300Captures_isSome (hfirst : first.Usable) (hsecond : second.Usable)
    {targetMembership : List UInt8} (htarget : (second.count + 7) / 8 ≤ targetMembership.length)
    {capacity : ℕ} (hcapacity : first.count ≤ capacity) :
    ∃ verified, matchProfile300Captures first second targetMembership capacity =
      some verified := by
  obtain ⟨pairs, hpairs⟩ := mutualCandidates_isSome hfirst.few hsecond.few
    (distanceMatrix first second) hcapacity
  have hrange : ∀ c ∈ pairs, c.first < first.count ∧ c.second < second.count := by
    intro c hc
    have hmutual := (mem_mutualCandidates hpairs hc).1
    exact ⟨hmutual.column.lt, hmutual.row.lt⟩
  have hmany : pairs.length ≤ 32767 := by
    have := mutualCandidates_length hpairs
    have := hfirst.few
    omega
  have hcoordinates : captureCandidateCoordinates first second pairs =
      some (pairs.map fun c => pairCoordinates first second (c.first, c.second)) := by
    unfold captureCandidateCoordinates
    rw [hfirst.levelsValid, hsecond.levelsValid, if_neg (by simp), if_neg]
    rw [List.any_eq_true]
    rintro ⟨c, hc, hout⟩
    have := hrange c hc
    rw [decide_eq_true_eq] at hout
    omega
  unfold matchProfile300Captures
  rw [capturesMatchable_of_usable hfirst hsecond htarget hcapacity, if_neg (by simp)]
  split_ifs
  · exact ⟨_, rfl⟩
  · rw [hpairs]
    dsimp only
    rw [hcoordinates]
    refine Option.isSome_iff_exists.1 (verifyGeometryProfile300_isSome ?_ fun c hc => ?_)
    · rw [List.length_map]
      exact hmany
    · obtain ⟨hin, hin'⟩ := hrange c hc
      have hlength := hfirst.fits.membership rfl
      rw [List.length_take, hlength]
      omega

/-! ### Collections -/

theorem matchCaptures_isSome (hsecond : second.Usable) {captures : List LoadedCapture}
    (hcaptures : ∀ c ∈ captures, c.view.Usable) {capacity : ℕ}
    (hcapacity : ∀ c ∈ captures, c.view.count ≤ capacity) {scan : CollectionScan}
    (htarget : (second.count + 7) / 8 ≤ scan.membership.length) :
    ∃ last, matchCaptures second capacity captures scan = some last := by
  induction captures generalizing scan with
  | nil => exact ⟨scan, rfl⟩
  | cons capture captures ih =>
      obtain ⟨verified, hverified⟩ := matchProfile300Captures_isSome
        (hcaptures capture List.mem_cons_self) hsecond htarget
        (hcapacity capture List.mem_cons_self)
      obtain ⟨next, hnext⟩ : ∃ next, matchCaptureStep second capacity scan capture = some next := by
        unfold matchCaptureStep
        rw [hverified]
        exact ⟨_, rfl⟩
      rw [matchCaptures, hnext]
      refine ih (fun c hc => hcaptures c (List.mem_cons_of_mem _ hc))
        (fun c hc => hcapacity c (List.mem_cons_of_mem _ hc)) ?_
      rwa [matchCaptureStep_membership hnext]

/-- **Matching a collection does not fail.** -/
theorem matchProfile300Collection_isSome (hsecond : second.Usable) {collection : LoadedCollection}
    (hlength : collection.captures.length ≤ 80)
    (hcaptures : ∀ c ∈ collection.captures, c.view.Usable) {queryMembership : List UInt8}
    (htarget : (second.count + 7) / 8 ≤ queryMembership.length) :
    ∃ found bits, matchProfile300Collection collection second queryMembership =
      some (found, bits) := by
  have hcount : ¬(collection.captures.any fun c => decide (32767 < c.view.count)) = true := by
    rw [List.any_eq_true]
    rintro ⟨c, hc, hmany⟩
    have := (hcaptures c hc).few
    rw [decide_eq_true_eq] at hmany
    omega
  unfold matchProfile300Collection
  dsimp only
  rw [if_neg (by omega), if_neg hcount]
  set start : CollectionScan := ⟨queryMembership, ⟨0, 0, 0, 0⟩,
    ⟨collection.captures.length, [], [], [], 0, -1, 0⟩⟩ with hstart
  have hcapacity : ∀ c ∈ collection.captures,
      c.view.count ≤ (collection.captures.map fun c => c.view.count).foldl max 0 := by
    intro c hc
    exact le_foldl_max 0 (Or.inr (List.mem_map_of_mem hc))
  have hstartBits : (second.count + 7) / 8 ≤ start.membership.length := htarget
  obtain ⟨last, hlast⟩ := matchCaptures_isSome hsecond hcaptures hcapacity hstartBits
  rw [hlast]
  exact ⟨_, _, rfl⟩

/-- **Identification does not fail.** -/
theorem identifyProfile300_isSome (hsecond : second.Usable) {collections : List LoadedCollection}
    (hmany : collections.length ≤ 100)
    (hcollections : ∀ collection ∈ collections, collection.captures.length ≤ 80 ∧
      ∀ c ∈ collection.captures, c.view.Usable) {policy : IdentificationPolicy}
    (hthreshold : 0 < policy.threshold) (hlimit : 0 ≤ policy.reportedScoreLimit)
    {queryMembership : List UInt8} (htarget : (second.count + 7) / 8 ≤ queryMembership.length)
    (queryQuality : ℤ) :
    ∃ result bits, identifyProfile300 collections second queryQuality queryMembership policy =
      some (result, bits) := by
  obtain ⟨hnone, -⟩ := identifyProfile300_matched queryQuality
    (rfl : queryMembership.length = queryMembership.length) hthreshold fun c hc hfails => by
      obtain ⟨hlength, hcaptures⟩ := hcollections c hc
      obtain ⟨found, bits, hfound⟩ := matchProfile300Collection_isSome hsecond hlength hcaptures
        htarget
      rw [hfound] at hfails
      cases hfails
  obtain ⟨⟨result, bits⟩, hrun⟩ := Option.ne_none_iff_exists'.1
    (hnone.not.2 (by omega : ¬(100 < collections.length ∨ policy.reportedScoreLimit < 0)))
  exact ⟨result, bits, hrun⟩

end Captures

end Fpc
