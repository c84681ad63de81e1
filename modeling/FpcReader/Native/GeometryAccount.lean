/-
**What geometric verification accounts for.**

The hypothesis loop keeps the first of the hypotheses that explain most correspondences, and ends
by itself after ten thousand iterations at most.  The flags that are left are the greedy choice from
the consensus of that hypothesis, the counters agree with the flags, and the query bitmap gains bits
of flagged pairs only.

Main definitions:

* `Fpc.hypotheses` — the similarities whose inliers the loop counts, in order;
* `Fpc.Consensus.Tracks` — the loop state holds the best of the hypotheses seen so far;
* `Fpc.GeometryAccounted` — what a verification says of its flags, counters and bitmap.

Main results:

* `Fpc.hypothesisLoop_tracks` — **the loop finds the first best hypothesis**;
* `Fpc.hypotheses_length` — it counts at most ten thousand;
* `Fpc.memberBit_touchTarget` — the bits a verification sets;
* `Fpc.verifyGeometry_accounted` — **verification accounts exactly for what it flags**;
* `Fpc.verifyGeometry_too_many` — a list too long for the verifier is refused.
-/

import FpcReader.Native.FitAccuracy
import FpcReader.Native.MatchTotal
import Mathlib.Data.List.MinMax

set_option relaxedAutoImplicit false
set_option autoImplicit false

namespace Fpc

open Words Scans

/-! ### The hypotheses of a run -/

/-- The similarity of a sampled pair, if its inliers are counted: no early stop comes first. -/
def countedHypothesis (points : List MatchCoordinates) (iteration : ℕ) (pair : ℕ × ℕ)
    (st : Consensus) : Option Transform :=
  match fitSimilarityPair (points.getD pair.1 default) (points.getD pair.2 default) with
  | none => none
  | some transform =>
      if 1500 < iteration ∧ st.accepted + 32768 < st.progress then none else some transform

/-- The hypothesis that an iteration counts the inliers of. -/
def hypothesisAt (points : List MatchCoordinates) (iteration : ℕ) (st : Consensus) :
    Option Transform :=
  let slot := iteration % 16
  match if slot = 0 then sampleGeometryPairs points st.sample.state 3 else some st.sample with
  | none => none
  | some sample =>
      if sample.valid.getD slot false then
        countedHypothesis points iteration (sample.indices.getD slot (0, 0)) st
      else none

/-- The hypotheses of the loop, in the order in which it counts their inliers. -/
def hypotheses (points : List MatchCoordinates) : ℕ → ℕ → Consensus → List Transform
  | 0, _, _ => []
  | fuel + 1, iteration, st =>
      if iteration < st.limit then
        match hypothesisStep points iteration st with
        | none => []
        | some next =>
            (hypothesisAt points iteration st).toList ++
              hypotheses points fuel (iteration + 1) next
      else []

/-- The loop state holds the first hypothesis with the most inliers, and their number. -/
structure Consensus.Tracks (points : List MatchCoordinates) (st : Consensus)
    (seen : List Transform) : Prop where
  best : st.best = ((seen.argmax (countInliers points)).map (countInliers points)).getD 0
  transform : 0 < st.best → seen.argmax (countInliers points) = some st.bestTransform

section Loop

variable {points : List MatchCoordinates} {seen : List Transform}

theorem Consensus.Tracks.le {st : Consensus} (h : st.Tracks points seen) {t : Transform}
    (ht : t ∈ seen) : countInliers points t ≤ st.best := by
  cases hmax : seen.argmax (countInliers points) with
  | none =>
      rw [List.argmax_eq_none.1 hmax] at ht
      cases ht
  | some best =>
      rw [h.best, hmax]
      exact List.le_of_mem_argmax ht hmax

theorem Consensus.Tracks.count_eq {st : Consensus} (h : st.Tracks points seen)
    (hpos : 0 < st.best) : st.best = countInliers points st.bestTransform := by
  rw [h.best, h.transform hpos]
  rfl

/-- The best count reaches a threshold iff some hypothesis does. -/
theorem Consensus.Tracks.le_iff {st : Consensus} (h : st.Tracks points seen) {n : ℕ} (hn : 0 < n) :
    n ≤ st.best ↔ ∃ t ∈ seen, n ≤ countInliers points t := by
  constructor
  · intro hbest
    have hpos : 0 < st.best := hn.trans_le hbest
    exact ⟨st.bestTransform, List.argmax_mem (h.transform hpos), h.count_eq hpos ▸ hbest⟩
  · rintro ⟨t, ht, hcount⟩
    exact hcount.trans (h.le ht)

/-- Counting one more hypothesis: it is kept if it explains more than the best so far. -/
theorem Consensus.Tracks.count {st next : Consensus} (h : st.Tracks points seen) (t : Transform)
    (hbest : next.best = max st.best (countInliers points t))
    (hkeep : next.bestTransform = if st.best < countInliers points t then t else st.bestTransform) :
    next.Tracks points (seen ++ [t]) := by
  have hold := h.best
  cases hmax : seen.argmax (countInliers points) with
  | none =>
      rw [hmax] at hold
      have hnew : (seen ++ [t]).argmax (countInliers points) = some t := by
        rw [List.argmax_concat, hmax]
      have hzero : st.best = 0 := hold
      rw [hzero, Nat.zero_max] at hbest
      refine ⟨by rw [hnew, hbest]; rfl, fun hpos => ?_⟩
      rw [hnew, hkeep, hzero, if_pos (by rwa [hbest] at hpos)]
  | some best =>
      rw [hmax] at hold
      have hnew : (seen ++ [t]).argmax (countInliers points) =
          if countInliers points best < countInliers points t then some t else some best := by
        rw [List.argmax_concat, hmax]
      have hcount : st.best = countInliers points best := hold
      rw [hcount] at hbest hkeep
      by_cases hbetter : countInliers points best < countInliers points t
      · rw [if_pos hbetter] at hkeep hnew
        rw [max_eq_right hbetter.le] at hbest
        exact ⟨by rw [hnew, hbest]; rfl, fun _ => by rw [hnew, hkeep]⟩
      · rw [if_neg hbetter] at hkeep hnew
        rw [max_eq_left (not_lt.1 hbetter)] at hbest
        refine ⟨by rw [hnew, hbest]; rfl, fun hpos => ?_⟩
        rw [hbest, ← hcount] at hpos
        rw [hnew, hkeep, ← hmax, h.transform hpos]

/-- Only the best count and its similarity matter. -/
theorem Consensus.Tracks.congr {st next : Consensus} (h : st.Tracks points seen)
    (hbest : next.best = st.best) (hkeep : next.bestTransform = st.bestTransform) :
    next.Tracks points seen :=
  ⟨hbest.trans h.best, fun hpos => by rw [hkeep]; exact h.transform (hbest ▸ hpos)⟩

theorem tryHypothesis_tracks {iteration : ℕ} {pair : ℕ × ℕ} {st next : Consensus}
    (h : st.Tracks points seen) (htry : tryHypothesis points iteration pair st = some next) :
    next.Tracks points (seen ++ (countedHypothesis points iteration pair st).toList) := by
  unfold tryHypothesis at htry
  unfold countedHypothesis
  cases hfit : fitSimilarityPair (points.getD pair.1 default) (points.getD pair.2 default) with
  | none => simp only [hfit, reduceCtorEq] at htry
  | some t =>
      simp only [hfit] at htry ⊢
      by_cases hstop : 1500 < iteration ∧ st.accepted + 32768 < st.progress
      · rw [if_pos hstop] at htry ⊢
        rw [← Option.some.inj htry, Option.toList_none, List.append_nil]
        exact h.congr rfl rfl
      · rw [if_neg hstop] at htry ⊢
        rw [Option.toList_some]
        refine h.count t ?_ ?_
        · split_ifs at htry with hbetter
          · rw [← Option.some.inj htry]
            exact (max_eq_right hbetter.le).symm
          · rw [← Option.some.inj htry]
            exact (max_eq_left (not_lt.1 hbetter)).symm
        · split_ifs at htry with hbetter
          · rw [← Option.some.inj htry, if_pos hbetter]
          · rw [← Option.some.inj htry, if_neg hbetter]

theorem hypothesisStep_tracks {iteration : ℕ} {st next : Consensus} (h : st.Tracks points seen)
    (hstep : hypothesisStep points iteration st = some next) :
    next.Tracks points (seen ++ (hypothesisAt points iteration st).toList) := by
  unfold hypothesisStep at hstep
  unfold hypothesisAt
  dsimp only at hstep ⊢
  cases hsample : (if iteration % 16 = 0 then sampleGeometryPairs points st.sample.state 3
      else some st.sample) with
  | none =>
      rw [hsample] at hstep
      cases hstep
  | some sample =>
      rw [hsample] at hstep
      dsimp only at hstep ⊢
      have hdrawn : ({ st with sample := sample } : Consensus).Tracks points seen :=
        h.congr rfl rfl
      by_cases hvalid : sample.valid.getD (iteration % 16) false = true
      · rw [if_pos hvalid] at hstep ⊢
        cases htry : tryHypothesis points iteration
            (sample.indices.getD (iteration % 16) (0, 0)) { st with sample := sample } with
        | none =>
            rw [htry] at hstep
            cases hstep
        | some tried =>
            rw [htry] at hstep
            rw [← Option.some.inj hstep]
            exact (tryHypothesis_tracks hdrawn htry).congr rfl rfl
      · rw [if_neg hvalid] at hstep ⊢
        rw [Option.toList_none, List.append_nil, ← Option.some.inj hstep]
        exact hdrawn.congr rfl rfl

/-- **The loop finds the first hypothesis with the most inliers.** -/
theorem hypothesisLoop_tracks {fuel iteration : ℕ} {st last : Consensus}
    (h : st.Tracks points seen) (hloop : hypothesisLoop points fuel iteration st = some last) :
    last.Tracks points (seen ++ hypotheses points fuel iteration st) := by
  induction fuel generalizing iteration st seen with
  | zero =>
      rw [hypotheses, List.append_nil, ← Option.some.inj hloop]
      exact h
  | succ fuel ih =>
      rw [hypothesisLoop] at hloop
      rw [hypotheses]
      split_ifs at hloop ⊢ with hlimit
      · cases hstep : hypothesisStep points iteration st with
        | none => simp only [hstep, reduceCtorEq] at hloop
        | some next =>
            simp only [hstep] at hloop ⊢
            rw [← List.append_assoc]
            exact ih (hypothesisStep_tracks h hstep) hloop
      · rw [List.append_nil, ← Option.some.inj hloop]
        exact h

theorem initialConsensus_tracks : initialConsensus.Tracks points [] :=
  ⟨rfl, fun hpos => absurd hpos (lt_irrefl 0)⟩

/-! ### The loop ends -/

theorem tryHypothesis_limit {iteration : ℕ} {pair : ℕ × ℕ} {st next : Consensus}
    (hiteration : iteration ≤ 10000) (hlimit : st.limit ≤ 10000)
    (htry : tryHypothesis points iteration pair st = some next) : next.limit ≤ 10000 := by
  unfold tryHypothesis at htry
  cases hfit : fitSimilarityPair (points.getD pair.1 default) (points.getD pair.2 default) with
  | none => simp only [hfit, reduceCtorEq] at htry
  | some t =>
      simp only [hfit] at htry
      split_ifs at htry
      · rw [← Option.some.inj htry]
        exact hiteration
      · rw [← Option.some.inj htry]
        exact quota_le _
      · rw [← Option.some.inj htry]
        exact hlimit

/-- No bound that an iteration sets exceeds ten thousand. -/
theorem hypothesisStep_limit {iteration : ℕ} {st next : Consensus}
    (hiteration : iteration ≤ 10000) (hlimit : st.limit ≤ 10000)
    (hstep : hypothesisStep points iteration st = some next) : next.limit ≤ 10000 := by
  unfold hypothesisStep at hstep
  dsimp only at hstep
  split at hstep
  · cases hstep
  split at hstep
  · cases hstep
  rename_i tried htry
  have htried : tried.limit ≤ 10000 := by
    split_ifs at htry
    · refine tryHypothesis_limit hiteration ?_ htry
      exact hlimit
    · rw [← Option.some.inj htry]
      exact hlimit
  rw [← Option.some.inj hstep]
  exact htried

/-- **The loop counts at most ten thousand hypotheses**, whatever its fuel is. -/
theorem hypotheses_length {fuel iteration : ℕ} {st : Consensus} (hlimit : st.limit ≤ 10000) :
    (hypotheses points fuel iteration st).length ≤ 10000 - iteration := by
  induction fuel generalizing iteration st with
  | zero => exact Nat.zero_le _
  | succ fuel ih =>
      rw [hypotheses]
      split_ifs with hmore
      · cases hstep : hypothesisStep points iteration st with
        | none => exact Nat.zero_le _
        | some next =>
            have hrest : (hypotheses points fuel (iteration + 1) next).length ≤
                10000 - (iteration + 1) :=
              ih (hypothesisStep_limit (by omega) hlimit hstep)
            have hone : (hypothesisAt points iteration st).toList.length ≤ 1 := by
              cases hypothesisAt points iteration st with
              | none => exact Nat.zero_le _
              | some t => exact le_rfl
            dsimp only
            rw [List.length_append]
            omega
      · exact Nat.zero_le _

/-- The fuel is enough: ten thousand iterations exhaust every bound the loop can set, so more fuel
changes nothing. -/
theorem hypothesisLoop_fuel {fuel iteration : ℕ} {st : Consensus} (hlimit : st.limit ≤ 10000)
    (hfuel : 10000 ≤ iteration + fuel) (extra : ℕ) :
    hypothesisLoop points (fuel + extra) iteration st =
      hypothesisLoop points fuel iteration st := by
  induction fuel generalizing iteration st with
  | zero =>
      have hdone : ¬iteration < st.limit := by omega
      cases extra with
      | zero => rfl
      | succ extra => simp [hypothesisLoop, hdone]
  | succ fuel ih =>
      rw [show fuel + 1 + extra = fuel + extra + 1 by omega, hypothesisLoop, hypothesisLoop]
      split_ifs with hmore
      · cases hstep : hypothesisStep points iteration st with
        | none => rfl
        | some next => exact ih (hypothesisStep_limit (by omega) hlimit hstep) (by omega)
      · rfl

end Loop

/-! ### Flags and bits -/

/-- Pair `i` carries flag one. -/
def flagAt (pairs : List Candidate) (i : ℕ) : Bool := (pairs[i]?).any fun c => c.flag = 1

theorem flagAt_withFlags {pairs : List Candidate} {flags : List Bool}
    (hlength : flags.length = pairs.length) (i : ℕ) :
    flagAt (withFlags pairs flags) i = flag flags i := by
  unfold flagAt withFlags flag
  rw [List.getElem?_zipWith, List.getD_eq_getElem?_getD]
  by_cases hi : i < pairs.length
  · rw [List.getElem?_eq_getElem hi, List.getElem?_eq_getElem (hlength ▸ hi)]
    cases flags[i] <;> simp
  · rw [List.getElem?_eq_none (not_lt.1 hi), List.getElem?_eq_none (by omega)]
    rfl

/-- As many pairs are flagged as there are flags. -/
theorem flagged_withFlags_length {pairs : List Candidate} {flags : List Bool}
    (hlength : flags.length = pairs.length) :
    (flagged (withFlags pairs flags)).length = flags.count true := by
  induction pairs generalizing flags with
  | nil =>
      rw [List.length_eq_zero_iff.1 hlength]
      rfl
  | cons c pairs ih =>
      cases flags with
      | nil => cases hlength
      | cons f flags =>
          have ih := ih (Nat.succ.inj hlength)
          cases f with
          | false => simpa [flagged, withFlags] using ih
          | true => simpa [flagged, withFlags] using ih

theorem testBit_byteOr (byte : UInt8) {i k : ℕ} (hi : i < 8) (hk : k < 8) :
    (byte ||| (1 : UInt8) <<< UInt8.ofNat i).toNat.testBit k =
      (byte.toNat.testBit k || decide (i = k)) := by
  rw [UInt8.toNat_or, Nat.testBit_or, UInt8.toNat_shiftLeft]
  congr 1
  interval_cases i <;> interval_cases k <;> rfl

/-- Setting one bit sets that bit and no other. -/
theorem memberBit_setBit (membership : List UInt8) {i : ℕ} (hi : i / 8 < membership.length)
    (k : ℕ) : memberBit (setBit membership i) k = (memberBit membership k || decide (i = k)) := by
  unfold memberBit setBit
  rw [List.getD_eq_getElem?_getD, List.getD_eq_getElem?_getD, List.getElem?_modify]
  by_cases hbyte : i / 8 = k / 8
  · rw [← hbyte, List.getElem?_eq_getElem hi]
    have hsame : i = k ↔ i % 8 = k % 8 := by omega
    simp only [if_true, Option.map_eq_map, Option.map_some, Option.getD_some, hsame]
    exact testBit_byteOr _ (Nat.mod_lt _ (by norm_num)) (Nat.mod_lt _ (by norm_num))
  · have hother : i ≠ k := by
      rintro rfl
      exact hbyte rfl
    simp [hbyte, hother]

theorem memberBit_foldl_setBit {α : Type} (f : α → ℕ) (marks : List α) {membership : List UInt8}
    (hmarks : ∀ mark ∈ marks, f mark / 8 < membership.length) (k : ℕ) :
    memberBit (marks.foldl (fun bits mark => setBit bits (f mark)) membership) k =
      (memberBit membership k || marks.any fun mark => decide (f mark = k)) := by
  induction marks generalizing membership with
  | nil => simp
  | cons mark marks ih =>
      have hlength : (setBit membership (f mark)).length = membership.length :=
        List.length_modify ..
      rw [List.foldl_cons, ih fun m hm => by
          rw [hlength]; exact hmarks m (List.mem_cons_of_mem _ hm),
        memberBit_setBit _ (hmarks mark List.mem_cons_self), List.any_cons, Bool.or_assoc]

/-- **The bits a verification sets**: those of the flagged pairs that move. -/
theorem memberBit_touchTarget (points : List MatchCoordinates) {pairs : List Candidate}
    {targetMembership : List UInt8}
    (hbits : ∀ c ∈ pairs, c.second / 8 < targetMembership.length) (k : ℕ) :
    memberBit (touchTarget points pairs targetMembership) k = true ↔
      memberBit targetMembership k = true ∨ ∃ pc ∈ points.zip pairs,
        pc.2.flag = 1 ∧ movesLittle pc.1 = false ∧ pc.2.second = k := by
  rw [touchTarget, memberBit_foldl_setBit (fun pc : MatchCoordinates × Candidate => pc.2.second)]
  · simp only [Bool.or_eq_true, List.any_eq_true, List.mem_filter, Bool.and_eq_true,
      decide_eq_true_eq, Bool.not_eq_true', and_assoc]
  · intro pc hpc
    exact hbits _ (List.of_mem_zip (List.mem_filter.1 hpc).1).2

/-! ### The account -/

/-- What a verification says of its hypotheses, its flags, its counters and the query bitmap. -/
structure GeometryAccounted (points : List MatchCoordinates) (pairs : List Candidate)
    (sourceMembership targetMembership : List UInt8) (seen : List Transform)
    (v : VerifiedGeometry) : Prop where
  /-- Only flags are written into the pairs. -/
  pairs : ∃ flags : List Bool, flags.length = pairs.length ∧ v.pairs = withFlags pairs flags
  /-- Success says that some hypothesis explains eight correspondences. -/
  success : v.result.success = if ∃ t ∈ seen, 8 ≤ countInliers points t then 1 else 0
  /-- The flags are the greedy choice from the consensus of the first best hypothesis. -/
  greedy : ∀ t, seen.argmax (countInliers points) = some t → 0 < countInliers points t →
    v.result.lowMovement = 0 →
      (∀ i < points.length, flagAt v.pairs i = true ↔
        isInlier t (points.getD i default) = true ∧ ∀ j < i, flagAt v.pairs j = true →
          3584 ≤ sourceDistance (points.getD j default) (points.getD i default)) ∧
      v.result.spatialInliers = (flagged v.pairs).length
  /-- On low movement nothing is flagged. -/
  lowMovement : v.result.lowMovement = 1 → flagged v.pairs = []
  inliers : v.result.inliers =
    if 4 ≤ memberCount v.pairs sourceMembership then
      if v.result.lowMovement = 1 then 0 else v.result.spatialInliers
    else memberCount v.pairs sourceMembership
  /-- The query bitmap gains bits of flagged pairs only. -/
  gained : v.targetMembership.length = targetMembership.length ∧ ∀ k,
    (memberBit targetMembership k = true → memberBit v.targetMembership k = true) ∧
    (memberBit v.targetMembership k = true → memberBit targetMembership k = true ∨
      ∃ c ∈ flagged v.pairs, c.second = k)
  /-- It gains none when fewer than four flagged pairs are members. -/
  gated : memberCount v.pairs sourceMembership < 4 → v.targetMembership = targetMembership

section Account

variable {points : List MatchCoordinates} {pairs : List Candidate}
  {sourceMembership targetMembership : List UInt8} {seen : List Transform}

/-- Two source points in range are close iff their exact squared distance is below 3584. -/
theorem sourceClose_exact (hrange : ∀ p ∈ points, p.InRange) {i j : ℕ} (hi : i < points.length)
    (hj : j < points.length) :
    sourceClose points i j = false ↔
      3584 ≤ sourceDistance (points.getD i default) (points.getD j default) := by
  have hp : (points.getD i default).InRange := by
    rw [List.getD_eq_getElem _ _ hi]
    exact hrange _ (List.getElem_mem hi)
  have hq : (points.getD j default).InRange := by
    rw [List.getD_eq_getElem _ _ hj]
    exact hrange _ (List.getElem_mem hj)
  obtain ⟨hx, hy, -, -⟩ := hq.diff hp
  unfold sourceClose
  dsimp only
  rw [signedU32_squares (hx.trans (by norm_num)) (hy.trans (by norm_num)),
    decide_eq_false_iff_not, not_lt, sourceDistance]

theorem withFlags_unflagged (hflags : ∀ c ∈ pairs, c.flag = 0) :
    withFlags pairs (List.replicate pairs.length false) = pairs := by
  induction pairs with
  | nil => rfl
  | cons c pairs ih =>
      have hc : c.flag = 0 := hflags c List.mem_cons_self
      have ih := ih fun d hd => hflags d (List.mem_cons_of_mem _ hd)
      rw [withFlags] at ih ⊢
      rw [List.length_cons, List.replicate_succ, List.zipWith_cons_cons, ih, if_neg (by simp), ← hc]

theorem flagged_eq_nil (hflags : ∀ c ∈ pairs, c.flag = 0) : flagged pairs = [] := by
  refine List.filter_eq_nil_iff.2 fun c hc => ?_
  rw [hflags c hc]
  decide

/-- Cleared flags leave nothing flagged. -/
theorem flagged_cleared (flags : List Bool) :
    flagged (withFlags pairs (flags.map fun _ => false)) = [] := by
  induction pairs generalizing flags with
  | nil => rfl
  | cons c pairs ih =>
      cases flags with
      | nil => rfl
      | cons f flags => simpa [flagged, withFlags] using ih flags

/-- Without flagged pairs there are no flagged members. -/
theorem memberCount_eq_zero (h : flagged pairs = []) : memberCount pairs sourceMembership = 0 := by
  rw [memberCount, h, List.countP_nil]

/-- The pairs as the movement test leaves them flagged. -/
def settledPairs (points : List MatchCoordinates) (pairs : List Candidate) (t : Transform)
    (best : ℕ) : List Candidate :=
  withFlags pairs (movedConsensus points (thinnedConsensus points t best)).1

theorem settledPairs_low {t : Transform} {best : ℕ}
    (hlow : lowMovement points (thinnedConsensus points t best) = true) :
    flagged (settledPairs points pairs t best) = [] := by
  rw [settledPairs, movedConsensus, if_pos hlow]
  exact flagged_cleared _

/-- Unless hardly anything moves, the flags are the greedy choice and the counter their number. -/
theorem settledPairs_greedy (hlength : points.length = pairs.length)
    (hrange : ∀ p ∈ points, p.InRange) {t : Transform} {best : ℕ}
    (hbest : best = countInliers points t)
    (hlow : lowMovement points (thinnedConsensus points t best) = false) :
    (∀ i < points.length, flagAt (settledPairs points pairs t best) i = true ↔
      isInlier t (points.getD i default) = true ∧
        ∀ j < i, flagAt (settledPairs points pairs t best) j = true →
          3584 ≤ sourceDistance (points.getD j default) (points.getD i default)) ∧
      (thinnedConsensus points t best).2 = (flagged (settledPairs points pairs t best)).length := by
  have hkept : (thinnedConsensus points t best).1.length = pairs.length :=
    (thinnedConsensus_length points t best).trans hlength
  rw [settledPairs, movedConsensus, if_neg (by rw [hlow]; decide)]
  constructor
  · intro i hi
    rw [flagAt_withFlags hkept, thinnedConsensus, suppress_flag_iff _ _ _ hi]
    refine and_congr ?_ (forall₂_congr fun j hj => ?_)
    · rw [flag, List.getD_eq_getElem _ _ (by rwa [List.length_map]), List.getElem_map,
        List.getD_eq_getElem _ _ hi]
    · rw [← thinnedConsensus, flagAt_withFlags hkept,
        sourceClose_exact hrange (hj.trans hi) hi]
  · rw [flagged_withFlags_length hkept]
    exact thinnedConsensus_counted hbest

/-- The bits of the query bitmap after a settled consensus. -/
theorem settledPairs_gained {t : Transform} {best : ℕ}
    (hbits : ∀ c ∈ settledPairs points pairs t best, c.second / 8 < targetMembership.length)
    (k : ℕ) :
    (memberBit targetMembership k = true →
      memberBit (touchTarget points (settledPairs points pairs t best) targetMembership) k =
        true) ∧
    (memberBit (touchTarget points (settledPairs points pairs t best) targetMembership) k = true →
      memberBit targetMembership k = true ∨
        ∃ c ∈ flagged (settledPairs points pairs t best), c.second = k) := by
  rw [memberBit_touchTarget points hbits]
  constructor
  · exact Or.inl
  · rintro (hold | ⟨pc, hpc, hflag, -, hk⟩)
    · exact Or.inl hold
    · refine Or.inr ⟨pc.2, List.mem_filter.2 ⟨(List.of_mem_zip hpc).2, ?_⟩, hk⟩
      rw [hflag]
      rfl

theorem withFlags_second {flags : List Bool} {c : Candidate} (hc : c ∈ withFlags pairs flags) :
    ∃ d ∈ pairs, c.second = d.second := by
  induction pairs generalizing flags with
  | nil => cases hc
  | cons d pairs ih =>
      cases flags with
      | nil => cases hc
      | cons f flags =>
          rcases List.mem_cons.1 hc with rfl | hc
          · exact ⟨d, List.mem_cons_self, rfl⟩
          · obtain ⟨e, he, hsecond⟩ := ih hc
            exact ⟨e, List.mem_cons_of_mem _ he, hsecond⟩

/-- **The account of a settled consensus.** -/
theorem settleConsensus_accounted (hlength : points.length = pairs.length)
    (hrange : ∀ p ∈ points, p.InRange)
    (hbits : ∀ c ∈ pairs, c.second / 8 < targetMembership.length) {best : ℕ} {t : Transform}
    (hbest : best = countInliers points t) (hmax : seen.argmax (countInliers points) = some t)
    {result : GeometryResult}
    (hsuccess : result.success = if ∃ t ∈ seen, 8 ≤ countInliers points t then 1 else 0) :
    GeometryAccounted points pairs sourceMembership targetMembership seen
      (settleConsensus points pairs sourceMembership targetMembership best t result) := by
  have hflags : (movedConsensus points (thinnedConsensus points t best)).1.length =
      pairs.length := by
    rw [movedConsensus_length, thinnedConsensus_length, hlength]
  have hsettled : ∀ c ∈ settledPairs points pairs t best,
      c.second / 8 < targetMembership.length := by
    intro c hc
    obtain ⟨d, hd, hsecond⟩ := withFlags_second hc
    rw [hsecond]
    exact hbits d hd
  have hgreedy : ∀ t', seen.argmax (countInliers points) = some t' →
      0 < countInliers points t' →
      (if lowMovement points (thinnedConsensus points t best) then 1 else 0) = 0 →
      (∀ i < points.length, flagAt (settledPairs points pairs t best) i = true ↔
        isInlier t' (points.getD i default) = true ∧
          ∀ j < i, flagAt (settledPairs points pairs t best) j = true →
            3584 ≤ sourceDistance (points.getD j default) (points.getD i default)) ∧
      (thinnedConsensus points t best).2 =
        (flagged (settledPairs points pairs t best)).length := by
    intro t' ht' _ hlow
    obtain rfl := Option.some.inj (hmax.symm.trans ht')
    refine settledPairs_greedy hlength hrange hbest ?_
    by_contra hmoves
    rw [if_pos (by simpa using hmoves)] at hlow
    cases hlow
  have hlow : (if lowMovement points (thinnedConsensus points t best) then 1 else 0) = 1 →
      flagged (settledPairs points pairs t best) = [] := by
    intro hone
    refine settledPairs_low ?_
    by_contra hmoves
    rw [if_neg hmoves] at hone
    cases hone
  unfold settleConsensus
  dsimp only
  rw [← settledPairs]
  by_cases hfew : memberCount (settledPairs points pairs t best) sourceMembership < 4
  · rw [if_pos hfew]
    refine ⟨⟨_, hflags, rfl⟩, hsuccess, hgreedy, hlow, ?_, ⟨rfl, fun k => ⟨id, Or.inl⟩⟩,
      fun _ => rfl⟩
    exact (if_neg (not_le.2 hfew)).symm
  · rw [if_neg hfew]
    refine ⟨⟨_, hflags, rfl⟩, hsuccess, hgreedy, hlow, ?_,
      ⟨touchTarget_length _ _ _, settledPairs_gained hsettled⟩, fun h => absurd h hfew⟩
    dsimp only
    rw [if_pos (not_lt.1 hfew), movedConsensus]
    by_cases hmoves : lowMovement points (thinnedConsensus points t best) = true
    · simp only [hmoves, if_true]
    · simp only [hmoves, if_false, Bool.false_eq_true, zero_ne_one]

/-- **Verification accounts exactly for what it flags**, on lists the verifier takes. -/
theorem verifyGeometry_accounted (hfew : 8 ≤ points.length) (hmany : points.length ≤ 32767)
    (hlength : points.length = pairs.length) (hrange : ∀ p ∈ points, p.InRange)
    (hflags : ∀ c ∈ pairs, c.flag = 0)
    (hbits : ∀ c ∈ pairs, c.first / 8 < sourceMembership.length ∧
      c.second / 8 < targetMembership.length) (result : GeometryResult) :
    (∀ fuel, (hypotheses points fuel 0 initialConsensus).length ≤ 10000 ∧
      hypothesisLoop points (10000 + fuel) 0 initialConsensus =
        hypothesisLoop points 10000 0 initialConsensus) ∧
    ∃ v, verifyGeometryProfile300 points pairs sourceMembership targetMembership result = some v ∧
      GeometryAccounted points pairs sourceMembership targetMembership
        (hypotheses points 10000 0 initialConsensus) v := by
  have hlimit : initialConsensus.limit ≤ 10000 := by decide
  refine ⟨fun fuel => ⟨hypotheses_length hlimit, hypothesisLoop_fuel hlimit le_rfl fuel⟩, ?_⟩
  obtain ⟨st, hloop⟩ := hypothesisLoop_isSome (by omega) hmany 10000 0
    (initialConsensus_sampleOk : SampleOk points initialConsensus.sample)
  have htracks := hypothesisLoop_tracks initialConsensus_tracks hloop
  rw [List.nil_append] at htracks
  have hout : ¬(pairs.any fun c => decide (sourceMembership.length ≤ c.first / 8 ∨
      targetMembership.length ≤ c.second / 8)) = true := by
    rw [List.any_eq_true]
    rintro ⟨c, hc, hpast⟩
    rw [decide_eq_true_eq] at hpast
    have := hbits c hc
    omega
  have hsuccess : (if 8 ≤ st.best then 1 else 0) =
      if ∃ t ∈ hypotheses points 10000 0 initialConsensus, 8 ≤ countInliers points t then 1
      else 0 :=
    if_congr (htracks.le_iff (by norm_num)) rfl rfl
  unfold verifyGeometryProfile300
  rw [if_neg (by omega), if_neg hout]
  dsimp only
  rw [if_neg (by omega), hloop]
  dsimp only
  by_cases hbest : st.best = 0
  · rw [if_pos hbest]
    have hnone := flagged_eq_nil hflags
    refine ⟨_, rfl, ⟨⟨_, List.length_replicate, (withFlags_unflagged hflags).symm⟩, hsuccess, ?_,
      fun _ => hnone, ?_, ⟨rfl, fun k => ⟨id, Or.inl⟩⟩, fun _ => rfl⟩⟩
    · intro t ht hpos
      have hcount := htracks.le (List.argmax_mem ht)
      omega
    · dsimp only
      rw [memberCount_eq_zero hnone, if_neg (by norm_num)]
      exact hbest
  · rw [if_neg hbest]
    have hpos : 0 < st.best := Nat.pos_of_ne_zero hbest
    exact ⟨_, rfl, settleConsensus_accounted hlength hrange (fun c hc => (hbits c hc).2)
      (htracks.count_eq hpos) (htracks.transform hpos) hsuccess⟩

end Account

instance (p : MatchCoordinates) : Decidable p.InRange :=
  decidable_of_iff ((0 ≤ p.x ∧ p.x ≤ 4095) ∧ (0 ≤ p.y ∧ p.y ≤ 4095) ∧
      (0 ≤ p.targetX ∧ p.targetX ≤ 4095) ∧ (0 ≤ p.targetY ∧ p.targetY ≤ 4095))
    ⟨fun ⟨hx, hy, htx, hty⟩ => ⟨hx, hy, htx, hty⟩, fun h => ⟨h.x, h.y, h.targetX, h.targetY⟩⟩

/-- Eight correspondences on a line, all moved alike. -/
def movedLine : List MatchCoordinates :=
  (List.range 8).map fun i => ⟨8 + 400 * i, 8 + 300 * i, 108 + 400 * i, 208 + 300 * i⟩

/-- The features of the line, paired in order. -/
def linePairs : List Candidate := (List.range 8).map fun i => ⟨i, i, 10, 0⟩

theorem verifyGeometry_accounted_line :
    (∀ fuel, (hypotheses movedLine fuel 0 initialConsensus).length ≤ 10000 ∧
      hypothesisLoop movedLine (10000 + fuel) 0 initialConsensus =
        hypothesisLoop movedLine 10000 0 initialConsensus) ∧
    ∃ v, verifyGeometryProfile300 movedLine linePairs [0xff] [0] GeometryResult.zero = some v ∧
      GeometryAccounted movedLine linePairs [0xff] [0]
        (hypotheses movedLine 10000 0 initialConsensus) v :=
  verifyGeometry_accounted (by decide) (by decide) (by decide) (by decide) (by decide) (by decide)
    GeometryResult.zero

/-- A list that is longer than the verifier takes is refused. -/
theorem verifyGeometry_too_many :
    ¬∀ (points : List MatchCoordinates) (pairs : List Candidate)
      (sourceMembership targetMembership : List UInt8) (result : GeometryResult),
      8 ≤ points.length → points.length = pairs.length → (∀ p ∈ points, p.InRange) →
      (∀ c ∈ pairs, c.flag = 0) →
      (∀ c ∈ pairs, c.first / 8 < sourceMembership.length ∧
        c.second / 8 < targetMembership.length) →
      ∃ v, verifyGeometryProfile300 points pairs sourceMembership targetMembership result =
        some v := by
  intro hclaim
  have hpoint : ∀ p ∈ List.replicate 32768 (⟨8, 8, 8, 8⟩ : MatchCoordinates), p.InRange := by
    intro p hp
    rw [List.eq_of_mem_replicate hp]
    decide
  have hflag : ∀ c ∈ List.replicate 32768 (⟨0, 0, 0, 0⟩ : Candidate), c.flag = 0 := by
    intro c hc
    rw [List.eq_of_mem_replicate hc]
  have hbit : ∀ c ∈ List.replicate 32768 (⟨0, 0, 0, 0⟩ : Candidate),
      c.first / 8 < [(0 : UInt8)].length ∧ c.second / 8 < [(0 : UInt8)].length := by
    intro c hc
    rw [List.eq_of_mem_replicate hc]
    decide
  obtain ⟨v, hv⟩ := hclaim _ _ [0] [0] GeometryResult.zero
    (by rw [List.length_replicate]; norm_num) (by rw [List.length_replicate, List.length_replicate])
    hpoint hflag hbit
  rw [verifyGeometryProfile300, if_pos (by rw [List.length_replicate]; norm_num)] at hv
  cases hv

end Fpc
