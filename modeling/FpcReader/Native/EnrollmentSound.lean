/-
**What holds throughout an enrollment.**

A new capture has all its membership bits set, so matching it with the earlier ones changes no
capture at all: an accepted capture stays what it was made to be, and the records are the matches of
the captures as they are stored.  A rejected image touches nothing but the quality state; a failure
behind the quality gate ends the session for good.

Main definitions:

* `Fpc.Adding.Frame` — what no stage changes, whether it fails or not;
* `Fpc.enrolledCapture`, `Fpc.pairMatch` — the capture of a call, and the match of two captures;
* `Fpc.NativeEnrollment.Sound` — what holds of a session that has not failed.

Main results:

* `Fpc.matchProfile300Captures_full` — matching a capture with all bits set writes nothing;
* `Fpc.enrollImage_frame` — a failure keeps the accepted captures;
* `Fpc.enrollImage_sound` — **the stages behind the gate add one capture and its records**.
-/

import FpcReader.Lib.Triangle
import FpcReader.Native.Enrollment
import FpcReader.Native.GeometryAccount
import FpcReader.Native.UpdateSound

set_option relaxedAutoImplicit false
set_option autoImplicit false

namespace Fpc

open Stages

/-! ### Bitmaps with all bits set -/

/-- Setting a bit that is set changes nothing. -/
theorem setBit_of_set {membership : List UInt8} {i : ℕ} (h : memberBit membership i = true) :
    setBit membership i = membership := by
  have hbyte : ∀ byte : UInt8, byte.toNat.testBit (i % 8) = true →
      byte ||| (1 : UInt8) <<< UInt8.ofNat (i % 8) = byte := by
    intro byte hbit
    refine UInt8.toNat_inj.1 (Nat.eq_of_testBit_eq fun k => ?_)
    rcases Nat.lt_or_ge k 8 with hk | hk
    · rw [testBit_byteOr byte (Nat.mod_lt _ (by norm_num)) hk]
      by_cases hsame : i % 8 = k
      · rw [← hsame, hbit]
        rfl
      · rw [decide_eq_false hsame, Bool.or_false]
    · have hpow : (2 : ℕ) ^ 8 ≤ 2 ^ k := Nat.pow_le_pow_right (by norm_num) hk
      rw [Nat.testBit_lt_two_pow ((UInt8.toNat_lt _).trans_le hpow),
        Nat.testBit_lt_two_pow ((UInt8.toNat_lt _).trans_le hpow)]
  unfold memberBit at h
  unfold setBit
  refine List.ext_getElem? fun k => ?_
  rw [List.getElem?_modify]
  by_cases hk : i / 8 = k
  · subst hk
    rw [List.getD_eq_getElem?_getD] at h
    cases hget : membership[i / 8]? with
    | none => rfl
    | some byte =>
        rw [hget] at h
        simp only [if_true, Option.map_eq_map, Option.map_some]
        rw [hbyte byte h]
  · cases membership[k]? <;> simp [hk]

theorem touchTarget_of_set (points : List MatchCoordinates) {pairs : List Candidate}
    {targetMembership : List UInt8}
    (h : ∀ c ∈ pairs, memberBit targetMembership c.second = true) :
    touchTarget points pairs targetMembership = targetMembership := by
  unfold touchTarget
  have hmarks : ∀ pc ∈ (points.zip pairs).filter fun pc => pc.2.flag = 1 && !movesLittle pc.1,
      memberBit targetMembership pc.2.second = true := fun pc hpc =>
    h _ (List.of_mem_zip (List.mem_filter.1 hpc).1).2
  generalize (points.zip pairs).filter (fun pc => pc.2.flag = 1 && !movesLittle pc.1) = marks
    at hmarks ⊢
  induction marks with
  | nil => rfl
  | cons pc rest ih =>
      rw [List.foldl_cons, setBit_of_set (hmarks pc List.mem_cons_self)]
      exact ih fun mark hmark => hmarks mark (List.mem_cons_of_mem _ hmark)

theorem settleConsensus_of_set {points : List MatchCoordinates} {pairs : List Candidate}
    {sourceMembership targetMembership : List UInt8}
    (h : ∀ c ∈ pairs, memberBit targetMembership c.second = true) (best : ℕ) (t : Transform)
    (result : GeometryResult) :
    (settleConsensus points pairs sourceMembership targetMembership best t
      result).targetMembership = targetMembership := by
  unfold settleConsensus
  dsimp only
  by_cases hfew : memberCount (withFlags pairs (movedConsensus points
      (thinnedConsensus points t best)).1) sourceMembership < 4
  · rw [if_pos hfew]
  · rw [if_neg hfew]
    refine touchTarget_of_set _ fun c hc => ?_
    obtain ⟨d, hd, hsecond⟩ := withFlags_second hc
    rw [hsecond]
    exact h d hd

theorem verifyGeometry_of_set {points : List MatchCoordinates} {pairs : List Candidate}
    {sourceMembership targetMembership : List UInt8} {result : GeometryResult}
    {v : VerifiedGeometry} (h : ∀ c ∈ pairs, memberBit targetMembership c.second = true)
    (hv : verifyGeometryProfile300 points pairs sourceMembership targetMembership result = some v) :
    v.targetMembership = targetMembership := by
  unfold verifyGeometryProfile300 at hv
  dsimp only at hv
  split_ifs at hv
  · rw [← Option.some.inj hv]
  · cases hloop : hypothesisLoop points 10000 0 initialConsensus with
    | none =>
        rw [hloop] at hv
        cases hv
    | some st =>
        rw [hloop] at hv
        dsimp only at hv
        by_cases hbest : st.best = 0
        · rw [if_pos hbest] at hv
          rw [← Option.some.inj hv]
        · rw [if_neg hbest] at hv
          rw [← Option.some.inj hv]
          exact settleConsensus_of_set h _ _ _

/-- **Matching with a bitmap that has the bits of all features set writes nothing.** -/
theorem matchProfile300Captures_full {first second : CapturePayloadView}
    {targetMembership : List UInt8} {capacity : ℕ} {v : VerifiedGeometry}
    (h : ∀ i < second.count, memberBit targetMembership i = true)
    (hv : matchProfile300Captures first second targetMembership capacity = some v) :
    v.targetMembership = targetMembership := by
  unfold matchProfile300Captures at hv
  split_ifs at hv
  · rw [← Option.some.inj hv]
  · cases hpairs : mutualCandidates (distanceMatrix first second) first.count second.count
        second.count 64 0 0 capacity with
    | none =>
        rw [hpairs] at hv
        cases hv
    | some pairs =>
        rw [hpairs] at hv
        dsimp only at hv
        cases hcoordinates : captureCandidateCoordinates first second pairs with
        | none =>
            rw [hcoordinates] at hv
            cases hv
        | some coordinates =>
            rw [hcoordinates] at hv
            exact verifyGeometry_of_set
              (fun c hc => h _ (mem_mutualCandidates hpairs hc).1.row.lt) hv

/-- The bitmap of an enrolled capture has exactly the bits of its features set. -/
theorem memberBit_initialMembership (n i : ℕ) :
    memberBit (initialMembership n true) i = decide (i < n) := by
  unfold memberBit initialMembership
  rw [if_pos rfl, List.getD_eq_getElem?_getD, List.getElem?_map]
  by_cases hbyte : i / 8 < (n + 7) / 8
  · rw [List.getElem?_range hbyte, Option.map_some, Option.getD_some]
    have hle : 2 ^ min 8 (n - 8 * (i / 8)) ≤ 2 ^ 8 :=
      Nat.pow_le_pow_right (by norm_num) (min_le_left _ _)
    have hpos := Nat.two_pow_pos (min 8 (n - 8 * (i / 8)))
    rw [UInt8.toNat_ofNat', Nat.mod_eq_of_lt (by omega), Nat.testBit_two_pow_sub_one]
    exact decide_eq_decide.2 (by omega)
  · rw [List.getElem?_eq_none (by rw [List.length_range]; omega)]
    have hno : ¬i < n := by omega
    simp [hno]

/-! ### Progress and the gate -/

section Gate

variable {F : Type} {floats : EnrollmentFloats F}

/-- The latch is never cleared. -/
theorem enrollmentProgress_latched {count : ℕ} {area motion change : F} {before latched : Bool}
    {progress : EnrollmentProgress}
    (h : enrollmentProgressProfile300 floats count area motion change before =
      some (latched, progress)) (hbefore : before = true) : latched = true := by
  unfold enrollmentProgressProfile300 at h
  split_ifs at h
  rw [← (Prod.mk.inj (Option.some.inj h)).1, hbefore, Bool.true_or]

/-- **Progress is complete with thirteen captures, or with seven once the latch is set.** -/
theorem enrollmentProgress_complete {count : ℕ} {area motion change : F} {before latched : Bool}
    {progress : EnrollmentProgress} (hcount : count ≤ 13)
    (h : enrollmentProgressProfile300 floats count area motion change before =
      some (latched, progress)) :
    progress.complete = true ↔ count = 13 ∨ (7 ≤ count ∧ latched = true) := by
  unfold enrollmentProgressProfile300 at h
  split_ifs at h
  dsimp only at h
  obtain ⟨hlatched, hprogress⟩ := Prod.mk.inj (Option.some.inj h)
  rw [← hprogress, hlatched]
  dsimp only
  rw [decide_eq_true_eq]
  split_ifs with hearly
  · simp [hearly]
  · rw [or_iff_left hearly]
    omega

/-- What the quality gate leaves behind: it refuses its inputs, or lets the image pass and keeps the
progress, or rejects it and recomputes the progress. -/
theorem enrollmentQuality_cases (floats : EnrollmentFloats F)
    (quality28 quality32 quality16 : ℤ) (count : ℕ) (area motion change : F)
    (state : EnrollmentQualityState) :
    let o := enrollmentQualityProfile300 floats quality28 quality32 quality16 count area motion
      change state
    (o.status = -1 ∧ o.state = state) ∨
    (o.status = 0 ∧ o.rejectionFlags = 0 ∧
      o.state.earlyCompleteLatched = state.earlyCompleteLatched) ∨
    (o.rejectionFlags ≠ 0 ∧ (o.status = 0 ∨ o.status = 112) ∧
      enrollmentProgressProfile300 floats count area motion change state.earlyCompleteLatched =
        some (o.state.earlyCompleteLatched, o.state.progress)) := by
  dsimp only
  unfold enrollmentQualityProfile300
  by_cases hinputs : progressInputs floats count area motion change = true
  · rw [hinputs, if_neg (by decide)]
    dsimp only
    by_cases hflags : qualityFlags quality28 quality32 quality16 = 0
    · rw [if_pos hflags]
      exact Or.inr (Or.inl ⟨rfl, hflags, rfl⟩)
    · rw [if_neg hflags]
      obtain ⟨⟨latched, progress⟩, hprogress⟩ : ∃ out, enrollmentProgressProfile300 floats count
          area motion change state.earlyCompleteLatched = some out := by
        unfold enrollmentProgressProfile300
        rw [hinputs, if_neg (by decide)]
        exact ⟨_, rfl⟩
      rw [hprogress]
      refine Or.inr (Or.inr ⟨hflags, ?_, rfl⟩)
      dsimp only
      split_ifs
      · exact Or.inr rfl
      · exact Or.inl rfl
  · rw [if_pos (by simpa using hinputs)]
    exact Or.inl ⟨rfl, rfl⟩

end Gate

/-! ### What the stages may change -/

section Frame

variable {F : Type} {floats : EnrollmentFloats F}

/-- The captures below `n` stay, `m` of them count, the latch is not cleared, and neither the
rejection flags nor the failure mark change. -/
structure Adding.Frame (start : Adding F) (n m : ℕ) (a : Adding F) : Prop where
  captures : ∀ i < n, a.session.captures[i]? = start.session.captures[i]?
  le : n ≤ m
  count : a.session.count = m
  latched : start.session.quality.earlyCompleteLatched = true →
    a.session.quality.earlyCompleteLatched = true
  failed : a.session.failed = start.session.failed
  flags : a.report.rejectionFlags = start.report.rejectionFlags

variable {start : Adding F} {n m : ℕ}

/-- Stages write captures at the count only. -/
theorem Adding.Frame.setCapture {a : Adding F} (h : start.Frame n m a) (capture : LoadedCapture) :
    start.Frame n m { a with session := { a.session with
      captures := a.session.captures.set a.session.count capture } } := by
  have hle := h.le
  have hcount := h.count
  refine ⟨fun i hi => ?_, h.le, h.count, h.latched, h.failed, h.flags⟩
  dsimp only
  rw [List.getElem?_set_ne (by omega)]
  exact h.captures i hi

theorem storeCapture_frame (call : EnrollmentCall F) {a : Adding F} (h : start.Frame n m a) :
    Holds (start.Frame n m) (storeCapture call a) := by
  unfold storeCapture
  by_cases hslot : a.session.incoming.storage ≠ none
  · rw [if_pos hslot]
    exact h
  rw [if_neg hslot]
  cases captureFromPrepared call.prepared.toPreparedCapture true call.fresh with
  | error fault => cases fault <;> exact h
  | ok capture =>
      dsimp only
      split_ifs
      · exact h.setCapture capture
      · exact h

theorem appendPair_frame (call : EnrollmentCall F) {a : Adding F} (h : start.Frame n m a) (i : ℕ) :
    Holds (start.Frame n m) (appendPair call a i) := by
  unfold appendPair
  dsimp only
  cases matchIncoming call a.session i with
  | none => exact h
  | some verified =>
      have hset := h.setCapture { a.session.incoming with
        view := { a.session.incoming.view with
          membership :=
            a.session.incoming.view.membership.map fun _ => verified.targetMembership } }
      exact ⟨hset.captures, hset.le, hset.count, hset.latched, hset.failed, hset.flags⟩

theorem countCapture_frame (call : EnrollmentCall F) {a : Adding F} (h : start.Frame n m a) :
    Holds (start.Frame n (m + 1)) (countCapture call a) := by
  have hle : n ≤ m + 1 := h.le.trans (Nat.le_succ m)
  have hcount : a.session.count + 1 = m + 1 := congrArg (· + 1) h.count
  unfold countCapture
  dsimp only
  split_ifs
  · exact ⟨h.captures, hle, hcount, h.latched, h.failed, h.flags⟩
  · exact ⟨h.captures, hle, hcount, h.latched, h.failed, h.flags⟩
  · exact ⟨h.captures, hle, hcount, h.latched, h.failed, h.flags⟩

theorem measureCaptures_frame (call : EnrollmentCall F) {a : Adding F} (h : start.Frame n m a) :
    Holds (start.Frame n m) (measureCaptures call a) := by
  unfold measureCaptures
  dsimp only
  split_ifs
  · exact ⟨h.captures, h.le, h.count, h.latched, h.failed, h.flags⟩
  · exact ⟨h.captures, h.le, h.count, h.latched, h.failed, h.flags⟩

theorem checkMovement_frame {a : Adding F} (h : start.Frame n m a) :
    Holds (start.Frame n m) (checkMovement floats a) := by
  unfold checkMovement
  dsimp only
  split
  · exact h
  · exact ⟨h.captures, h.le, h.count, h.latched, h.failed, h.flags⟩

theorem advanceProgress_frame {a : Adding F} (h : start.Frame n m a) :
    Holds (start.Frame n m) (advanceProgress floats a) := by
  unfold advanceProgress
  dsimp only
  split
  · exact h
  · rename_i latched progress hprogress
    exact ⟨h.captures, h.le, h.count,
      fun hbefore => enrollmentProgress_latched hprogress (h.latched hbefore), h.failed, h.flags⟩

/-- **Whether they fail or not, the stages behind the gate keep the captures below the count, and
the count grows by one at most.** -/
theorem enrollImage_frame (call : EnrollmentCall F) (a : Adding F) :
    Holds (fun b => a.Frame a.session.count a.session.count b ∨
      a.Frame a.session.count (a.session.count + 1) b) (enrollImage floats call a) := by
  have hstart : a.Frame a.session.count a.session.count a :=
    ⟨fun _ _ => rfl, le_rfl, rfl, id, rfl, rfl⟩
  unfold enrollImage
  refine (storeCapture_frame call hstart).bind (fun _ => Or.inl) fun stored hstored => ?_
  refine (Holds.foldlM _ hstored fun b hb i => appendPair_frame call hb i).bind
    (fun _ => Or.inl) fun paired hpaired => ?_
  refine (countCapture_frame call hpaired).bind (fun _ => Or.inr) fun counted hcounted => ?_
  refine (measureCaptures_frame call hcounted).bind (fun _ => Or.inr) fun measured hmeasured => ?_
  refine (checkMovement_frame hmeasured).bind (fun _ => Or.inr) fun moved hmoved => ?_
  exact (advanceProgress_frame hmoved).mono fun _ => Or.inr

end Frame

/-! ### An accepted image -/

section Accept

variable {F : Type} {floats : EnrollmentFloats F}

/-- The capture that a call stores. -/
def enrolledCapture (call : EnrollmentCall F) : LoadedCapture :=
  ⟨(preparedView call.prepared.toPreparedCapture true).selected defaultFlags, some call.fresh⟩

theorem enrolledCapture_membership (call : EnrollmentCall F) :
    (enrolledCapture call).view.membership.getD [] =
      initialMembership call.prepared.features.length true := by
  have hsizes :
      ((preparedView call.prepared.toPreparedCapture true).sizes defaultFlags).membership =
        (call.prepared.features.length + 7) / 8 := by
    rw [default_sizes]
    rfl
  have hlength : (initialMembership call.prepared.features.length true).length =
      (call.prepared.features.length + 7) / 8 := by
    rw [initialMembership, if_pos rfl, List.length_map, List.length_range]
  show (loadedArray _ (initialMembership call.prepared.features.length true)).getD [] = _
  rw [hsizes, loadedArray]
  split_ifs with hzero
  · exact (List.length_eq_zero_iff.1 (hlength.trans hzero)).symm
  · rfl

/-- The match of two stored captures. -/
def pairMatch (earlier later : LoadedCapture) : Option VerifiedGeometry :=
  matchProfile300Captures earlier.view later.view (later.view.membership.getD []) 300

/-- Matching an enrolled capture leaves its view alone. -/
theorem enrolledCapture_matched {call : EnrollmentCall F} {earlier : LoadedCapture}
    {v : VerifiedGeometry} (hv : pairMatch earlier (enrolledCapture call) = some v) :
    (enrolledCapture call).view.membership.map (fun _ => v.targetMembership) =
      (enrolledCapture call).view.membership := by
  have hfull := enrolledCapture_membership call
  have hsame : v.targetMembership = (enrolledCapture call).view.membership.getD [] := by
    refine matchProfile300Captures_full (fun i hi => ?_) hv
    rw [hfull, memberBit_initialMembership]
    exact decide_eq_true hi
  rw [hsame]
  cases (enrolledCapture call).view.membership <;> rfl

theorem storeCapture_ok {call : EnrollmentCall F} {a b : Adding F}
    (h : storeCapture call a = .ok b) :
    call.prepared.features.length ≤ 300 ∧
      b = { a with session := { a.session with
        captures := a.session.captures.set a.session.count (enrolledCapture call) } } := by
  unfold storeCapture at h
  by_cases hslot : a.session.incoming.storage ≠ none
  · rw [if_pos hslot] at h
    cases h
  rw [if_neg hslot] at h
  cases hcapture : captureFromPrepared call.prepared.toPreparedCapture true call.fresh with
  | error fault =>
      rw [hcapture] at h
      cases fault <;> cases h
  | ok capture =>
      obtain ⟨hfew, rfl, -⟩ := captureFromPrepared_sound hcapture
      rw [hcapture] at h
      dsimp only at h
      split_ifs at h
      exact ⟨hfew, (Except.ok.inj h).symm⟩

/-- Appending a pair keeps the captures and writes one record. -/
theorem appendPair_ok {call : EnrollmentCall F} {a b : Adding F} {i : ℕ}
    (hincoming : a.session.captures[a.session.count]? = some (enrolledCapture call))
    (h : appendPair call a i = .ok b) :
    ∃ v, pairMatch (a.session.captures.getD i LoadedCapture.empty) (enrolledCapture call) =
        some v ∧
      b = { a with session := { a.session with
        captureMatches := a.session.captureMatches.set a.session.pairCount (matchRecord v.result)
        spatialScores := a.session.spatialScores.set a.session.pairCount
          (UInt16.ofNat v.result.spatialInliers)
        pairCount := a.session.pairCount + 1 } } := by
  have hslot : a.session.incoming = enrolledCapture call := by
    rw [NativeEnrollment.incoming, List.getD_eq_getElem?_getD, hincoming, Option.getD_some]
  unfold appendPair at h
  dsimp only at h
  cases hmatch : matchIncoming call a.session i with
  | none =>
      rw [hmatch] at h
      cases h
  | some v =>
      rw [hmatch] at h
      dsimp only at h
      have hv : pairMatch (a.session.captures.getD i LoadedCapture.empty) (enrolledCapture call) =
          some v := by
        unfold matchIncoming at hmatch
        dsimp only at hmatch
        split_ifs at hmatch
        rwa [hslot] at hmatch
      refine ⟨v, hv, ?_⟩
      have hsame : a.session.captures.set a.session.count (enrolledCapture call) =
          a.session.captures := by
        refine List.ext_getElem? fun k => ?_
        rw [List.getElem?_set']
        split_ifs with hk
        · rw [← hk, hincoming]
          rfl
        · rfl
      rw [← Except.ok.inj h, hslot, enrolledCapture_matched hv]
      simp only [hsame]

/-- The records of the first `n` captures with the incoming one have been appended. -/
structure Paired (call : EnrollmentCall F) (before : Adding F) (n : ℕ) (a : Adding F) : Prop where
  session : a.session = { before.session with
    captureMatches := a.session.captureMatches
    spatialScores := a.session.spatialScores
    pairCount := before.session.pairCount + n }
  matchesLength : a.session.captureMatches.length = before.session.captureMatches.length
  scoresLength : a.session.spatialScores.length = before.session.spatialScores.length
  old : ∀ j < before.session.pairCount,
    a.session.captureMatches[j]? = before.session.captureMatches[j]? ∧
      a.session.spatialScores[j]? = before.session.spatialScores[j]?
  new : ∀ i < n, ∃ v,
    pairMatch (before.session.captures.getD i LoadedCapture.empty) (enrolledCapture call) =
        some v ∧
      a.session.captureMatches[before.session.pairCount + i]? = some (matchRecord v.result) ∧
      a.session.spatialScores[before.session.pairCount + i]? =
        some (UInt16.ofNat v.result.spatialInliers)

theorem Paired.start (call : EnrollmentCall F) (before : Adding F) :
    Paired call before 0 before :=
  ⟨rfl, rfl, rfl, fun _ _ => ⟨rfl, rfl⟩, fun i hi => absurd hi (Nat.not_lt_zero i)⟩

theorem Paired.append {call : EnrollmentCall F} {before a b : Adding F} {n : ℕ}
    (h : Paired call before n a)
    (hincoming : before.session.captures[before.session.count]? = some (enrolledCapture call))
    (hroom : before.session.pairCount + n < before.session.captureMatches.length ∧
      before.session.pairCount + n < before.session.spatialScores.length)
    (hstep : appendPair call a n = .ok b) : Paired call before (n + 1) b := by
  have hcaptures : a.session.captures = before.session.captures := by rw [h.session]
  have hcount : a.session.count = before.session.count := by rw [h.session]
  have hpairs : a.session.pairCount = before.session.pairCount + n := by rw [h.session]
  obtain ⟨v, hv, rfl⟩ := appendPair_ok (by rw [hcaptures, hcount, hincoming]) hstep
  rw [hcaptures] at hv
  have hsession := h.session
  refine ⟨?_, ?_, ?_, ?_, ?_⟩
  · dsimp only
    rw [hpairs]
    conv_lhs => rw [hsession]
    rfl
  · rw [List.length_set, h.matchesLength]
  · rw [List.length_set, h.scoresLength]
  · intro j hj
    dsimp only
    rw [hpairs, List.getElem?_set_ne (by omega), List.getElem?_set_ne (by omega)]
    exact h.old j hj
  · intro i hi
    dsimp only
    rw [hpairs]
    rcases Nat.lt_succ_iff_lt_or_eq.1 hi with hi | rfl
    · rw [List.getElem?_set_ne (by omega), List.getElem?_set_ne (by omega)]
      exact h.new i hi
    · refine ⟨v, hv, ?_, ?_⟩
      · exact List.getElem?_set_self (h.matchesLength ▸ hroom.1)
      · exact List.getElem?_set_self (h.scoresLength ▸ hroom.2)

/-- Counting a capture keeps its mask and coverage; only groups change otherwise. -/
theorem countCapture_ok {call : EnrollmentCall F} {a b : Adding F}
    (h : countCapture call a = .ok b) :
    b.session = { a.session with
      masks := a.session.masks.set a.session.count call.prepared.packedMask.toList
      coverage := a.session.coverage.set a.session.count call.prepared.coverage
      count := a.session.count + 1
      groups := b.session.groups
      roots := b.session.roots
      transforms := b.session.transforms
      grouping := b.session.grouping } := by
  unfold countCapture at h
  dsimp only at h
  split_ifs at h <;> rw [← Except.ok.inj h]

theorem measureCaptures_ok {call : EnrollmentCall F} {a b : Adding F}
    (h : measureCaptures call a = .ok b) :
    b.session = { a.session with metrics := b.session.metrics } := by
  unfold measureCaptures at h
  dsimp only at h
  split_ifs at h
  rw [← Except.ok.inj h]

theorem checkMovement_ok {a b : Adding F} (h : checkMovement floats a = .ok b) :
    b.session = { a.session with insufficientMovement := b.session.insufficientMovement } := by
  unfold checkMovement at h
  dsimp only at h
  split at h
  · cases h
  · rw [← Except.ok.inj h]

/-- Progress is computed from the count and the latch as they are. -/
theorem advanceProgress_ok {a b : Adding F} (h : advanceProgress floats a = .ok b) :
    b.session = { a.session with quality := b.session.quality } ∧
      ∃ area motion change, enrollmentProgressProfile300 floats a.session.count area motion change
        a.session.quality.earlyCompleteLatched =
          some (b.session.quality.earlyCompleteLatched, b.session.quality.progress) := by
  unfold advanceProgress at h
  dsimp only at h
  split at h
  · cases h
  · rename_i latched progress hprogress
    rw [← Except.ok.inj h]
    exact ⟨rfl, _, _, _, hprogress⟩

/-! ### The invariant -/

/-- A session that has not failed holds the captures of the accepted calls, in order, with their
masks and coverages and with the matches of all their pairs. -/
structure NativeEnrollment.Sound (s : NativeEnrollment F) (accepted : List (EnrollmentCall F)) :
    Prop where
  failed : s.failed = false
  count : s.count = accepted.length
  count_le : s.count ≤ 13
  slots : s.captures.length = 13 ∧ s.masks.length = 13 ∧ s.coverage.length = 13
  records : s.captureMatches.length = 78 ∧ s.spatialScores.length = 78
  few : ∀ call ∈ accepted, call.prepared.features.length ≤ 300
  stored : ∀ (i : ℕ) (call : EnrollmentCall F), accepted[i]? = some call →
    s.captures[i]? = some (enrolledCapture call) ∧
      s.masks[i]? = some call.prepared.packedMask.toList ∧
      s.coverage[i]? = some call.prepared.coverage
  pairCount : s.pairCount = Triangle.pairs s.count
  pairs : ∀ (later earlier : ℕ) (laterCall earlierCall : EnrollmentCall F), earlier < later →
    accepted[later]? = some laterCall → accepted[earlier]? = some earlierCall →
      ∃ v, pairMatch (enrolledCapture earlierCall) (enrolledCapture laterCall) = some v ∧
        s.captureMatches[Triangle.append later earlier]? = some (matchRecord v.result) ∧
        s.spatialScores[Triangle.append later earlier]? =
          some (UInt16.ofNat v.result.spatialInliers)

/-- Groups, metrics and quality are not what the invariant is about. -/
theorem NativeEnrollment.Sound.withRest {s : NativeEnrollment F}
    {accepted : List (EnrollmentCall F)} (h : s.Sound accepted) (groups : List ℤ)
    (roots : List UInt16) (transforms : List F) (grouping : CaptureGroupsState F)
    (metrics : EnrollmentMetrics F) (quality : EnrollmentQualityState)
    (insufficientMovement : UInt32) :
    ({ s with
      groups := groups, roots := roots, transforms := transforms, grouping := grouping
      metrics := metrics, quality := quality
      insufficientMovement := insufficientMovement } : NativeEnrollment F).Sound accepted :=
  ⟨h.failed, h.count, h.count_le, h.slots, h.records, h.few, h.stored, h.pairCount, h.pairs⟩

theorem getElem?_append_single {α : Type} {l : List α} {a b : α} {i : ℕ}
    (h : (l ++ [a])[i]? = some b) : l[i]? = some b ∨ (i = l.length ∧ b = a) := by
  rcases Nat.lt_trichotomy i l.length with hi | rfl | hi
  · rw [List.getElem?_append_left hi] at h
    exact Or.inl h
  · rw [List.getElem?_append_right le_rfl, Nat.sub_self] at h
    exact Or.inr ⟨rfl, (Option.some.inj h).symm⟩
  · rw [List.getElem?_eq_none (by rw [List.length_append, List.length_singleton]; omega)] at h
    cases h

/-- The slot behind the ones in use is filled. -/
theorem filled_append {α β : Type} {accepted : List β} {slots : List α} (fill : β → α) {new : β}
    (hroom : accepted.length < slots.length)
    (h : ∀ (i : ℕ) (b : β), accepted[i]? = some b → slots[i]? = some (fill b)) {i : ℕ} {b : β}
    (hb : (accepted ++ [new])[i]? = some b) :
    (slots.set accepted.length (fill new))[i]? = some (fill b) := by
  rcases getElem?_append_single hb with hb | ⟨rfl, rfl⟩
  · have hi : i < accepted.length := (List.getElem?_eq_some_iff.1 hb).1
    rw [List.getElem?_set_ne hi.ne']
    exact h i b hb
  · exact List.getElem?_set_self hroom

section Append

variable {s : NativeEnrollment F} {accepted : List (EnrollmentCall F)} {call : EnrollmentCall F}
  {stored paired : Adding F}

/-- The records of the new capture come behind those of the others. -/
theorem NativeEnrollment.Sound.pairs_append (h : s.Sound accepted)
    (hstored : stored.session =
      { s with captures := s.captures.set accepted.length (enrolledCapture call) })
    (hall : Paired call stored accepted.length paired) {later earlier : ℕ}
    {laterCall earlierCall : EnrollmentCall F} (hlt : earlier < later)
    (hlater : (accepted ++ [call])[later]? = some laterCall)
    (hearlier : (accepted ++ [call])[earlier]? = some earlierCall) :
    ∃ v, pairMatch (enrolledCapture earlierCall) (enrolledCapture laterCall) = some v ∧
      paired.session.captureMatches[Triangle.append later earlier]? =
        some (matchRecord v.result) ∧
      paired.session.spatialScores[Triangle.append later earlier]? =
        some (UInt16.ofNat v.result.spatialInliers) := by
  have hpos : stored.session.pairCount = Triangle.pairs accepted.length := by
    rw [hstored, ← h.count]
    exact h.pairCount
  rcases getElem?_append_single hlater with hlater | ⟨rfl, rfl⟩
  · -- both were there before, and so was their record
    have hlaterLt : later < accepted.length := (List.getElem?_eq_some_iff.1 hlater).1
    have hearlier : accepted[earlier]? = some earlierCall := by
      rwa [List.getElem?_append_left (hlt.trans hlaterLt)] at hearlier
    obtain ⟨holdMatch, holdScore⟩ :=
      hall.old (Triangle.append later earlier) (hpos ▸ Triangle.append_lt hlt hlaterLt)
    rw [holdMatch, holdScore, hstored]
    exact h.pairs later earlier laterCall earlierCall hlt hlater hearlier
  · rw [List.getElem?_append_left hlt] at hearlier
    obtain ⟨v, hv, hmatch, hscore⟩ := hall.new earlier hlt
    have hget : stored.session.captures.getD earlier LoadedCapture.empty =
        enrolledCapture earlierCall := by
      rw [hstored, List.getD_eq_getElem?_getD, List.getElem?_set_ne hlt.ne',
        (h.stored earlier earlierCall hearlier).1, Option.getD_some]
    rw [hget] at hv
    rw [hpos] at hmatch hscore
    exact ⟨v, hv, hmatch, hscore⟩

/-- A capture has been stored, paired with all others and counted. -/
theorem NativeEnrollment.Sound.append (h : s.Sound accepted) (hroom : accepted.length < 13)
    (hfew : call.prepared.features.length ≤ 300)
    (hstored : stored.session =
      { s with captures := s.captures.set accepted.length (enrolledCapture call) })
    (hall : Paired call stored accepted.length paired) :
    ({ paired.session with
      masks := paired.session.masks.set accepted.length call.prepared.packedMask.toList
      coverage := paired.session.coverage.set accepted.length call.prepared.coverage
      count := accepted.length + 1 } : NativeEnrollment F).Sound (accepted ++ [call]) := by
  have hcaptures : paired.session.captures =
      s.captures.set accepted.length (enrolledCapture call) := by
    rw [hall.session, hstored]
  have hmasks : paired.session.masks = s.masks := by rw [hall.session, hstored]
  have hcoverage : paired.session.coverage = s.coverage := by rw [hall.session, hstored]
  have hmatches : stored.session.captureMatches = s.captureMatches := by rw [hstored]
  have hscores : stored.session.spatialScores = s.spatialScores := by rw [hstored]
  exact {
    failed := by rw [hall.session, hstored]; exact h.failed
    count := by rw [List.length_append, List.length_singleton]
    count_le := hroom
    slots := by
      rw [hcaptures, hmasks, hcoverage, List.length_set, List.length_set, List.length_set]
      exact h.slots
    records := by
      rw [hall.matchesLength, hall.scoresLength, hmatches, hscores]
      exact h.records
    few := by
      intro c hc
      rcases List.mem_append.1 hc with hc | hc
      · exact h.few c hc
      · rw [List.mem_singleton.1 hc]
        exact hfew
    stored := by
      intro i c hc
      dsimp only
      rw [hcaptures, hmasks, hcoverage]
      exact ⟨filled_append enrolledCapture (h.slots.1 ▸ hroom)
          (fun i c hc => (h.stored i c hc).1) hc,
        filled_append (fun c => c.prepared.packedMask.toList) (h.slots.2.1 ▸ hroom)
          (fun i c hc => (h.stored i c hc).2.1) hc,
        filled_append (fun c => c.prepared.coverage) (h.slots.2.2 ▸ hroom)
          (fun i c hc => (h.stored i c hc).2.2) hc⟩
    pairCount := by
      show paired.session.pairCount = Triangle.pairs (accepted.length + 1)
      rw [hall.session, hstored, Triangle.pairs_succ, ← h.count]
      exact congrArg (· + s.count) h.pairCount
    pairs := fun later earlier laterCall earlierCall hlt hlater hearlier =>
      h.pairs_append hstored hall hlt hlater hearlier }

end Append

/-- **The stages behind the gate add one capture and its records.** -/
theorem enrollImage_sound {call : EnrollmentCall F} {a b : Adding F}
    {accepted : List (EnrollmentCall F)} (h : a.session.Sound accepted)
    (hroom : a.session.count < 13) (hrun : enrollImage floats call a = .ok b) :
    b.session.Sound (accepted ++ [call]) ∧
      ∃ before area motion change, enrollmentProgressProfile300 floats b.session.count area motion
        change before =
          some (b.session.quality.earlyCompleteLatched, b.session.quality.progress) := by
  unfold enrollImage at hrun
  obtain ⟨stored, hstored, hafterStore⟩ := bind_ok hrun
  obtain ⟨paired, hpaired, hafterPairs⟩ := bind_ok hafterStore
  obtain ⟨counted, hcounted, hafterCount⟩ := bind_ok hafterPairs
  obtain ⟨measured, hmeasured, hafterMeasure⟩ := bind_ok hafterCount
  obtain ⟨moved, hmoved, hadvance⟩ := bind_ok hafterMeasure
  obtain ⟨hfew, rfl⟩ := storeCapture_ok hstored
  set stored : Adding F := { a with session := { a.session with
    captures := a.session.captures.set a.session.count (enrolledCapture call) } }
  have hincoming : stored.session.captures[stored.session.count]? = some (enrolledCapture call) :=
    List.getElem?_set_self (h.slots.1 ▸ hroom)
  -- there is room for the records of the thirteenth capture
  have hpairRoom : Triangle.pairs (a.session.count + 1) ≤ 78 :=
    Triangle.pairs_mono (Nat.succ_le_of_lt hroom)
  rw [Triangle.pairs_succ] at hpairRoom
  have hall : Paired call stored a.session.count paired := by
    refine foldlM_ok (q := Paired call stored) (Paired.start call stored)
      (fun i hi c next hc hstep => hc.append hincoming ?_ hstep) hpaired
    have hi' : i < a.session.count := hi
    have hstart : stored.session.pairCount = Triangle.pairs a.session.count := h.pairCount
    have hm : stored.session.captureMatches.length = 78 := h.records.1
    have hsc : stored.session.spatialScores.length = 78 := h.records.2
    omega
  have hcount : paired.session.count = accepted.length := by
    rw [hall.session]
    exact h.count
  rw [h.count] at hall hroom
  have hsession : stored.session = { a.session with
      captures := a.session.captures.set accepted.length (enrolledCapture call) } := by
    rw [← h.count]
  have happended := h.append hroom hfew hsession hall
  rw [← hcount] at happended
  have hcountedSound : counted.session.Sound (accepted ++ [call]) := by
    rw [countCapture_ok hcounted]
    exact happended.withRest _ _ _ _ _ _ _
  have hmeasuredSound : measured.session.Sound (accepted ++ [call]) := by
    rw [measureCaptures_ok hmeasured]
    exact hcountedSound.withRest _ _ _ _ _ _ _
  have hmovedSound : moved.session.Sound (accepted ++ [call]) := by
    rw [checkMovement_ok hmoved]
    exact hmeasuredSound.withRest _ _ _ _ _ _ _
  obtain ⟨hlast, area, motion, change, hprogress⟩ := advanceProgress_ok hadvance
  have hlastCount : b.session.count = moved.session.count := by rw [hlast]
  refine ⟨?_, moved.session.quality.earlyCompleteLatched, area, motion, change, ?_⟩
  · rw [hlast]
    exact hmovedSound.withRest _ _ _ _ _ _ _
  · rw [hlastCount]
    exact hprogress

end Accept

end Fpc
