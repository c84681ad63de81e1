/-
**Enrollment, call after call.**

The invariant of a session over every list of calls, whatever the images, the allocations and the
floating-point results are.  What one call does is told apart by the quality gate: nothing behind it
runs for a rejected image, and whatever fails behind it ends the session.

Main definitions:

* `Fpc.acceptedCalls` — the calls whose images were accepted;
* `Fpc.NativeEnrollment.Grows` — what stays of a session, whatever is called;
* `Fpc.CallLaws` — what a call does to a session and says in its report;
* `Fpc.RecordsMatch` — the records are the matches of the stored captures.

Main results:

* `Fpc.nativeEnrollmentAdd_cases` — the four ways a call can go;
* `Fpc.enrollAll_sound` — a session that has not failed holds the accepted captures;
* `Fpc.enrollment_session` — **the invariant of a session over all lists of calls**.
-/

import FpcReader.Native.EnrollmentSound

set_option relaxedAutoImplicit false
set_option autoImplicit false

namespace Fpc

open Stages

variable {F : Type} {floats : EnrollmentFloats F}

/-! ### One call -/

/-- The quality gate lets the image of a call pass. -/
def gatePasses (floats : EnrollmentFloats F) (s : NativeEnrollment F) (call : EnrollmentCall F) :
    Prop :=
  (enrollmentGate floats s call).status = 0 ∧ (enrollmentGate floats s call).rejectionFlags = 0

/-- **The ways a call can go**: the session has failed or is full, the gate stops the image, or the
stages behind the gate fail or run through. -/
theorem nativeEnrollmentAdd_cases (floats : EnrollmentFloats F) (s : NativeEnrollment F)
    (call : EnrollmentCall F) :
    (s.failed = true ∧ nativeEnrollmentAdd floats s call = ⟨-1, s, none⟩) ∨
    (s.failed = false ∧ 13 ≤ s.count ∧
      nativeEnrollmentAdd floats s call = ⟨111, s, some (EnrollmentReport.zero floats)⟩) ∨
    (s.failed = false ∧ s.count < 13 ∧ ¬gatePasses floats s call ∧
      nativeEnrollmentAdd floats s call = ⟨(enrollmentGate floats s call).status,
        (gatedSession floats s call).session,
        some ((gatedSession floats s call).session.publish floats
          (gatedSession floats s call).report)⟩) ∨
    (s.failed = false ∧ s.count < 13 ∧ gatePasses floats s call ∧
      ((∃ status a, enrollImage floats call (gatedSession floats s call) = .error (status, a) ∧
        nativeEnrollmentAdd floats s call =
          ⟨status, { a.session with failed := true }, some a.report⟩) ∨
      ∃ a, enrollImage floats call (gatedSession floats s call) = .ok a ∧
        nativeEnrollmentAdd floats s call =
          ⟨0, a.session, some (a.session.publish floats a.report)⟩)) := by
  unfold nativeEnrollmentAdd
  by_cases hfailed : s.failed = true
  · exact Or.inl ⟨hfailed, if_pos hfailed⟩
  have halive : s.failed = false := Bool.not_eq_true _ ▸ hfailed
  rw [if_neg hfailed]
  refine Or.inr ?_
  by_cases hfull : 13 ≤ s.count
  · exact Or.inl ⟨halive, hfull, if_pos hfull⟩
  rw [if_neg hfull]
  refine Or.inr ?_
  dsimp only
  by_cases hgate : gatePasses floats s call
  · have hstop : ¬((enrollmentGate floats s call).status ≠ 0 ∨
        (enrollmentGate floats s call).rejectionFlags ≠ 0) := by
      rw [not_or, not_not, not_not]
      exact hgate
    rw [if_neg hstop]
    refine Or.inr ⟨halive, not_le.1 hfull, hgate, ?_⟩
    cases enrollImage floats call (gatedSession floats s call) with
    | error e => exact Or.inl ⟨e.1, e.2, rfl, rfl⟩
    | ok a => exact Or.inr ⟨a, rfl, rfl⟩
  · have hstop : (enrollmentGate floats s call).status ≠ 0 ∨
        (enrollmentGate floats s call).rejectionFlags ≠ 0 := by
      rw [gatePasses, not_and_or] at hgate
      exact hgate
    rw [if_pos hstop]
    exact Or.inl ⟨halive, not_le.1 hfull, hgate, rfl⟩

/-- The stages behind the gate fail with a nonzero status. -/
theorem enrollImage_fails (call : EnrollmentCall F) (a : Adding F) :
    Fails (· ≠ 0) (enrollImage floats call a) := by
  have hstore : Fails (· ≠ 0) (storeCapture call a) := by
    unfold storeCapture
    by_cases hslot : a.session.incoming.storage ≠ none
    · rw [if_pos hslot]
      exact (by decide : (-1 : ℤ) ≠ 0)
    rw [if_neg hslot]
    rcases Nat.lt_or_ge 300 call.prepared.features.length with hmany | hfew
    · rw [captureFromPrepared, if_pos hmany]
      exact (by decide : (-1 : ℤ) ≠ 0)
    · rw [captureFromPrepared_total hfew true call.fresh]
      dsimp only
      split_ifs
      · exact True.intro
      · exact (by decide : (2 : ℤ) ≠ 0)
  unfold enrollImage
  refine hstore.bind fun stored => ?_
  refine (Fails.foldlM _ (fun b i => ?_) stored).bind fun paired => ?_
  · unfold appendPair
    dsimp only
    split
    · exact (by decide : (-1 : ℤ) ≠ 0)
    · exact True.intro
  refine Fails.bind ?_ fun counted => Fails.bind ?_ fun measured => Fails.bind ?_ fun moved => ?_
  · unfold countCapture
    dsimp only
    split_ifs with hstatus
    · exact hstatus
    · exact True.intro
    · exact True.intro
  · unfold measureCaptures
    dsimp only
    split_ifs with hstatus
    · exact hstatus
    · exact True.intro
  · unfold checkMovement
    dsimp only
    split
    · exact (by decide : (-1 : ℤ) ≠ 0)
    · exact True.intro
  · unfold advanceProgress
    dsimp only
    split
    · exact (by decide : (-1 : ℤ) ≠ 0)
    · exact True.intro

/-- The image of a call was accepted: no error and no rejection. -/
def callAccepted (floats : EnrollmentFloats F) (s : NativeEnrollment F) (call : EnrollmentCall F) :
    Bool :=
  let o := nativeEnrollmentAdd floats s call
  decide (o.status = 0) && o.report.any fun report => decide (report.rejectionFlags = 0)

/-- A call is accepted iff the stages behind the gate run through. -/
theorem callAccepted_iff {s : NativeEnrollment F} {call : EnrollmentCall F} :
    callAccepted floats s call = true ↔ s.failed = false ∧ s.count < 13 ∧
      gatePasses floats s call ∧
        ∃ a, enrollImage floats call (gatedSession floats s call) = .ok a ∧
          nativeEnrollmentAdd floats s call =
            ⟨0, a.session, some (a.session.publish floats a.report)⟩ := by
  unfold callAccepted
  dsimp only
  rcases nativeEnrollmentAdd_cases floats s call with ⟨hfailed, ho⟩ |
    ⟨halive, hfull, ho⟩ | ⟨halive, hroom, hgate, ho⟩ | ⟨halive, hroom, hgate, hrun⟩
  · rw [ho, hfailed]
    simp
  · rw [ho]
    have hno : ¬s.count < 13 := not_lt.2 hfull
    simp [hno]
  · rw [ho]
    simp only [Option.any_some, Bool.and_eq_true, decide_eq_true_eq]
    exact ⟨fun h => absurd h hgate, fun h => absurd h.2.2.1 hgate⟩
  · rcases hrun with ⟨status, a, hrun, ho⟩ | ⟨a, hrun, ho⟩
    · have hstatus : Fails (· ≠ 0) (enrollImage floats call (gatedSession floats s call)) :=
        enrollImage_fails call _
      rw [hrun] at hstatus
      rw [ho, hrun]
      have hnonzero : status ≠ 0 := hstatus
      simp [hnonzero]
    · have hframe : Holds _ (enrollImage floats call (gatedSession floats s call)) :=
        enrollImage_frame call _
      rw [hrun] at hframe
      have hflags : a.report.rejectionFlags = (enrollmentGate floats s call).rejectionFlags :=
        hframe.elim (fun h => h.flags) fun h => h.flags
      rw [ho]
      simp only [Option.any_some, decide_true, Bool.true_and, decide_eq_true_eq]
      refine ⟨fun _ => ⟨halive, hroom, hgate, a, hrun, rfl⟩, fun _ => ?_⟩
      exact hflags.trans hgate.2

/-- A failure behind the gate marks the session, and nothing else does. -/
theorem nativeEnrollmentAdd_failed {s : NativeEnrollment F} {call : EnrollmentCall F}
    (halive : s.failed = false) (hroom : s.count < 13) (hgate : gatePasses floats s call) :
    (nativeEnrollmentAdd floats s call).status ≠ 0 ↔
      (nativeEnrollmentAdd floats s call).session.failed = true := by
  have hframe : Holds _ (enrollImage floats call (gatedSession floats s call)) :=
    enrollImage_frame call _
  have hfails : Fails (· ≠ 0) (enrollImage floats call (gatedSession floats s call)) :=
    enrollImage_fails call _
  rcases nativeEnrollmentAdd_cases floats s call with ⟨hfailed, -⟩ | ⟨-, hfull, -⟩ |
    ⟨-, -, hstop, -⟩ | ⟨-, -, -, ⟨status, a, hrun, ho⟩ | ⟨a, hrun, ho⟩⟩
  · rw [halive] at hfailed
    cases hfailed
  · exact absurd hroom (not_lt.2 hfull)
  · exact absurd hgate hstop
  · rw [hrun] at hfails
    rw [ho]
    exact ⟨fun _ => rfl, fun _ => hfails⟩
  · rw [hrun] at hframe
    have hfailed : a.session.failed = s.failed := hframe.elim (·.failed) (·.failed)
    rw [ho, hfailed, halive]
    simp

/-! ### What stays -/

/-- What stays of a session, whatever is called: the accepted captures, their number at least, the
latch once it is set, and all of a session that has failed. -/
structure NativeEnrollment.Grows (s next : NativeEnrollment F) : Prop where
  captures : ∀ i < s.count, next.captures[i]? = s.captures[i]?
  count : s.count ≤ next.count
  latched : s.quality.earlyCompleteLatched = true → next.quality.earlyCompleteLatched = true
  failed : s.failed = true → next = s

theorem NativeEnrollment.Grows.refl (s : NativeEnrollment F) : s.Grows s :=
  ⟨fun _ _ => rfl, le_rfl, id, fun _ => rfl⟩

theorem NativeEnrollment.Grows.trans {s mid next : NativeEnrollment F} (h : s.Grows mid)
    (h' : mid.Grows next) : s.Grows next where
  captures i hi := (h'.captures i (hi.trans_le h.count)).trans (h.captures i hi)
  count := h.count.trans h'.count
  latched hs := h'.latched (h.latched hs)
  failed hs := by
    have hmid := h.failed hs
    rw [← hmid] at hs
    exact (h'.failed hs).trans hmid

theorem gatedSession_latched {s : NativeEnrollment F} {call : EnrollmentCall F}
    (h : s.quality.earlyCompleteLatched = true) :
    (gatedSession floats s call).session.quality.earlyCompleteLatched = true := by
  show (enrollmentGate floats s call).state.earlyCompleteLatched = true
  rcases enrollmentQuality_cases floats call.prepared.confidence
    call.prepared.coverage call.prepared.quality s.count (s.latestArea floats)
    s.metrics.normalizedMotion s.metrics.relativeAreaChange s.quality with
    ⟨-, hstate⟩ | ⟨-, -, hstate⟩ | ⟨-, -, hprogress⟩
  · rw [enrollmentGate, hstate]
    exact h
  · rw [enrollmentGate, hstate]
    exact h
  · exact enrollmentProgress_latched hprogress h

/-- **What one call keeps.** -/
theorem nativeEnrollmentAdd_grows (floats : EnrollmentFloats F) (s : NativeEnrollment F)
    (call : EnrollmentCall F) :
    s.Grows (nativeEnrollmentAdd floats s call).session := by
  rcases nativeEnrollmentAdd_cases floats s call with ⟨-, ho⟩ | ⟨-, -, ho⟩ |
    ⟨halive, -, -, ho⟩ | ⟨halive, -, -, hrun⟩
  · rw [ho]
    exact .refl s
  · rw [ho]
    exact .refl s
  · rw [ho]
    refine ⟨fun _ _ => rfl, le_rfl, gatedSession_latched, fun hfailed => ?_⟩
    rw [halive] at hfailed
    cases hfailed
  · have hframe : Holds (fun a => (∀ i < s.count, a.session.captures[i]? = s.captures[i]?) ∧
        s.count ≤ a.session.count ∧ (s.quality.earlyCompleteLatched = true →
          a.session.quality.earlyCompleteLatched = true))
        (enrollImage floats call (gatedSession floats s call)) := by
      refine (enrollImage_frame call _).mono fun a ha => ?_
      rcases ha with ha | ha
      · exact ⟨ha.captures, ha.count ▸ ha.le, fun h => ha.latched (gatedSession_latched h)⟩
      · exact ⟨ha.captures, ha.count ▸ ha.le, fun h => ha.latched (gatedSession_latched h)⟩
    have hdead : s.failed = true → ∀ next : NativeEnrollment F, next = s := by
      intro hfailed
      rw [halive] at hfailed
      cases hfailed
    rcases hrun with ⟨status, a, hrun, ho⟩ | ⟨a, hrun, ho⟩
    · rw [hrun] at hframe
      rw [ho]
      exact ⟨hframe.1, hframe.2.1, hframe.2.2, fun h => hdead h _⟩
    · rw [hrun] at hframe
      rw [ho]
      exact ⟨hframe.1, hframe.2.1, hframe.2.2, fun h => hdead h _⟩

/-- The session after a list of calls, from any session on. -/
def enrollFrom (floats : EnrollmentFloats F) (s : NativeEnrollment F)
    (calls : List (EnrollmentCall F)) : NativeEnrollment F :=
  calls.foldl (fun s call => (nativeEnrollmentAdd floats s call).session) s

theorem enrollFrom_cons (s : NativeEnrollment F) (call : EnrollmentCall F)
    (calls : List (EnrollmentCall F)) :
    enrollFrom floats s (call :: calls) =
      enrollFrom floats (nativeEnrollmentAdd floats s call).session calls :=
  rfl

theorem enrollFrom_append (s : NativeEnrollment F) (calls more : List (EnrollmentCall F)) :
    enrollFrom floats s (calls ++ more) = enrollFrom floats (enrollFrom floats s calls) more :=
  List.foldl_append

theorem enrollFrom_grows (s : NativeEnrollment F) (calls : List (EnrollmentCall F)) :
    s.Grows (enrollFrom floats s calls) := by
  induction calls generalizing s with
  | nil => exact .refl s
  | cons call calls ih => exact (nativeEnrollmentAdd_grows floats s call).trans (ih _)

/-! ### The invariant over all calls -/

/-- The calls whose images a session accepts. -/
def acceptedFrom (floats : EnrollmentFloats F) :
    NativeEnrollment F → List (EnrollmentCall F) → List (EnrollmentCall F)
  | _, [] => []
  | s, call :: calls =>
      let rest := acceptedFrom floats (nativeEnrollmentAdd floats s call).session calls
      if callAccepted floats s call then call :: rest else rest

/-- The calls whose images are accepted from the start on. -/
def acceptedCalls (floats : EnrollmentFloats F) (calls : List (EnrollmentCall F)) :
    List (EnrollmentCall F) :=
  acceptedFrom floats (nativeEnrollmentCreate floats) calls

theorem nativeEnrollmentCreate_sound : (nativeEnrollmentCreate floats).Sound [] :=
  ⟨rfl, rfl, Nat.zero_le _, ⟨List.length_replicate, List.length_replicate, List.length_replicate⟩,
    ⟨List.length_replicate, List.length_replicate⟩, by simp, by simp,
    (by decide : 0 = Triangle.pairs 0), by simp⟩

/-- **What one call does to a session that has not failed.** -/
theorem nativeEnrollmentAdd_sound (floats : EnrollmentFloats F) {s : NativeEnrollment F}
    {accepted : List (EnrollmentCall F)} (h : s.Sound accepted) (call : EnrollmentCall F) :
    (nativeEnrollmentAdd floats s call).session.count ≤ 13 ∧
      ((nativeEnrollmentAdd floats s call).session.failed = false →
        (nativeEnrollmentAdd floats s call).session.Sound
          (accepted ++ if callAccepted floats s call then [call] else [])) := by
  have hgated : (gatedSession floats s call).session.Sound accepted :=
    h.withRest s.groups s.roots s.transforms s.grouping s.metrics _ s.insufficientMovement
  by_cases haccepted : callAccepted floats s call = true
  · obtain ⟨-, hroom, -, a, hrun, ho⟩ := callAccepted_iff.1 haccepted
    have hsound := (enrollImage_sound hgated hroom hrun).1
    rw [if_pos haccepted, ho]
    exact ⟨hsound.count_le, fun _ => hsound⟩
  · rw [if_neg haccepted, List.append_nil]
    rcases nativeEnrollmentAdd_cases floats s call with ⟨-, ho⟩ | ⟨-, -, ho⟩ |
      ⟨-, -, -, ho⟩ | ⟨halive, hroom, hgate, hrun⟩
    · rw [ho]
      exact ⟨h.count_le, fun _ => h⟩
    · rw [ho]
      exact ⟨h.count_le, fun _ => h⟩
    · rw [ho]
      exact ⟨h.count_le, fun _ => hgated⟩
    · rcases hrun with ⟨status, a, hrun, ho⟩ | ⟨a, hrun, ho⟩
      · have hframe : Holds _ (enrollImage floats call (gatedSession floats s call)) :=
          enrollImage_frame call _
        rw [hrun] at hframe
        rw [ho]
        refine ⟨?_, by simp⟩
        have hcount : a.session.count = s.count ∨ a.session.count = s.count + 1 :=
          hframe.imp (·.count) (·.count)
        have : a.session.count ≤ 13 := by omega
        exact this
      · exact absurd (callAccepted_iff.2 ⟨halive, hroom, hgate, a, hrun, ho⟩) haccepted

theorem enrollFrom_sound {s : NativeEnrollment F} {accepted : List (EnrollmentCall F)}
    (hcount : s.count ≤ 13) (h : s.failed = false → s.Sound accepted)
    (calls : List (EnrollmentCall F)) :
    (enrollFrom floats s calls).count ≤ 13 ∧ ((enrollFrom floats s calls).failed = false →
      (enrollFrom floats s calls).Sound (accepted ++ acceptedFrom floats s calls)) := by
  induction calls generalizing s accepted with
  | nil =>
      rw [acceptedFrom, List.append_nil]
      exact ⟨hcount, h⟩
  | cons call calls ih =>
      have hsplit : accepted ++ acceptedFrom floats s (call :: calls) =
          (accepted ++ if callAccepted floats s call then [call] else []) ++
            acceptedFrom floats (nativeEnrollmentAdd floats s call).session calls := by
        rw [acceptedFrom, List.append_assoc]
        split_ifs <;> rfl
      rw [hsplit, enrollFrom_cons]
      cases hfailed : s.failed with
      | false =>
          obtain ⟨hle, hsound⟩ := nativeEnrollmentAdd_sound floats (h hfailed) call
          exact ih hle hsound
      | true =>
          -- a failed session stays as it is, so nothing is claimed of its captures
          have hsame : (nativeEnrollmentAdd floats s call).session = s :=
            (nativeEnrollmentAdd_grows floats s call).failed hfailed
          refine ih (by rw [hsame]; exact hcount) fun halive => ?_
          rw [hsame, hfailed] at halive
          cases halive

/-- **A session that has not failed holds the accepted captures.** -/
theorem enrollAll_sound (floats : EnrollmentFloats F) (calls : List (EnrollmentCall F)) :
    (enrollAll floats calls).count ≤ 13 ∧ ((enrollAll floats calls).failed = false →
      (enrollAll floats calls).Sound (acceptedCalls floats calls)) :=
  enrollFrom_sound (Nat.zero_le _) (fun _ => nativeEnrollmentCreate_sound) calls

/-! ### The laws of a session -/

/-- The records are the matches of the stored captures, in the order of appending. -/
structure RecordsMatch (s : NativeEnrollment F) : Prop where
  pairCount : s.pairCount = s.count * (s.count - 1) / 2
  record : ∀ later earlier, earlier < later → later < s.count → ∃ v,
    pairMatch (s.captures.getD earlier LoadedCapture.empty)
      (s.captures.getD later LoadedCapture.empty) = some v ∧
    s.captureMatches[later * (later - 1) / 2 + earlier]? = some (matchRecord v.result) ∧
    s.spatialScores[later * (later - 1) / 2 + earlier]? =
      some (UInt16.ofNat v.result.spatialInliers)

theorem NativeEnrollment.Sound.recordsMatch {s : NativeEnrollment F}
    {accepted : List (EnrollmentCall F)} (h : s.Sound accepted) : RecordsMatch s := by
  refine ⟨h.pairCount, fun later earlier hlt hlater => ?_⟩
  rw [h.count] at hlater
  have hlaterCall := List.getElem?_eq_getElem hlater
  have hearlierCall := List.getElem?_eq_getElem (hlt.trans hlater)
  rw [List.getD_eq_getElem?_getD, (h.stored _ _ hearlierCall).1, List.getD_eq_getElem?_getD,
    (h.stored _ _ hlaterCall).1, Option.getD_some, Option.getD_some]
  exact h.pairs later earlier _ _ hlt hlaterCall hearlierCall

/-- What a call does to a session and says in its report. -/
structure CallLaws (floats : EnrollmentFloats F) (s : NativeEnrollment F)
    (call : EnrollmentCall F) : Prop where
  /-- An accepted image is one capture more. -/
  accepted : callAccepted floats s call = true →
    (nativeEnrollmentAdd floats s call).session.count = s.count + 1
  /-- Otherwise the count stays, unless the session fails. -/
  refused : callAccepted floats s call = false →
    (nativeEnrollmentAdd floats s call).session.count = s.count ∨
      (nativeEnrollmentAdd floats s call).session.failed = true
  /-- A rejected image changes the quality state only. -/
  rejected : ∀ report, (nativeEnrollmentAdd floats s call).report = some report →
    report.rejectionFlags ≠ 0 → (nativeEnrollmentAdd floats s call).session =
      { s with quality := (nativeEnrollmentAdd floats s call).session.quality }
  /-- Behind the gate, an error marks the session. -/
  failure : s.failed = false → s.count < 13 → gatePasses floats s call →
    ((nativeEnrollmentAdd floats s call).status ≠ 0 ↔
      (nativeEnrollmentAdd floats s call).session.failed = true)
  /-- A failed session answers minus one. -/
  dead : s.failed = true → (nativeEnrollmentAdd floats s call).status = -1 ∧
    (nativeEnrollmentAdd floats s call).session = s ∧
      ∀ occupied fresh, nativeEnrollmentFinish s occupied fresh = .error (.status (-1))
  /-- Thirteen captures complete an enrollment, and seven once the latch is set. -/
  complete : (nativeEnrollmentAdd floats s call).status = 0 →
    ∃ report, (nativeEnrollmentAdd floats s call).report = some report ∧
      report.accepted = (nativeEnrollmentAdd floats s call).session.count ∧
      (report.progress.complete = true ↔ report.accepted = 13 ∨ (7 ≤ report.accepted ∧
        (nativeEnrollmentAdd floats s call).session.quality.earlyCompleteLatched = true))

theorem callLaws_complete {s : NativeEnrollment F} {accepted : List (EnrollmentCall F)}
    (hcount : s.count ≤ 13) (h : s.failed = false → s.Sound accepted) {call : EnrollmentCall F}
    (hstatus : (nativeEnrollmentAdd floats s call).status = 0) :
    ∃ report, (nativeEnrollmentAdd floats s call).report = some report ∧
      report.accepted = (nativeEnrollmentAdd floats s call).session.count ∧
      (report.progress.complete = true ↔ report.accepted = 13 ∨ (7 ≤ report.accepted ∧
        (nativeEnrollmentAdd floats s call).session.quality.earlyCompleteLatched = true)) := by
  rcases nativeEnrollmentAdd_cases floats s call with ⟨-, ho⟩ | ⟨-, -, ho⟩ |
    ⟨-, -, hstop, ho⟩ | ⟨halive, hroom, -, ⟨status, a, hrun, ho⟩ | ⟨a, hrun, ho⟩⟩
  · rw [ho] at hstatus
    have hminus : (-1 : ℤ) = 0 := hstatus
    exact absurd hminus (by decide)
  · rw [ho] at hstatus
    have hfull : (111 : ℤ) = 0 := hstatus
    exact absurd hfull (by decide)
  · rw [ho] at hstatus ⊢
    refine ⟨_, rfl, rfl, ?_⟩
    -- a rejection that is no error recomputes the progress from the count as it is
    rcases enrollmentQuality_cases floats call.prepared.confidence call.prepared.coverage
      call.prepared.quality s.count (s.latestArea floats) s.metrics.normalizedMotion
      s.metrics.relativeAreaChange s.quality with ⟨hfails, -⟩ | ⟨hzero, hflags, -⟩ |
      ⟨-, -, hprogress⟩
    · exact absurd (hstatus.symm.trans hfails) (by decide)
    · exact absurd ⟨hzero, hflags⟩ hstop
    · exact enrollmentProgress_complete hcount hprogress
  · have hfails : Fails (· ≠ 0) (enrollImage floats call (gatedSession floats s call)) :=
      enrollImage_fails call _
    rw [hrun] at hfails
    rw [ho] at hstatus
    exact absurd hstatus hfails
  · have hgated : (gatedSession floats s call).session.Sound accepted :=
      (h halive).withRest s.groups s.roots s.transforms s.grouping s.metrics _
        s.insufficientMovement
    obtain ⟨hsound, _, _, _, _, hprogress⟩ := enrollImage_sound hgated hroom hrun
    rw [ho]
    exact ⟨_, rfl, rfl, enrollmentProgress_complete hsound.count_le hprogress⟩

/-- **The laws of one call** on a session that calls have led to. -/
theorem callLaws {s : NativeEnrollment F} {accepted : List (EnrollmentCall F)}
    (hcount : s.count ≤ 13) (h : s.failed = false → s.Sound accepted)
    (call : EnrollmentCall F) : CallLaws floats s call where
  accepted haccepted := by
    obtain ⟨halive, hroom, -, a, hrun, ho⟩ := callAccepted_iff.1 haccepted
    have hgated : (gatedSession floats s call).session.Sound accepted :=
      (h halive).withRest s.groups s.roots s.transforms s.grouping s.metrics _
        s.insufficientMovement
    rw [ho, (enrollImage_sound hgated hroom hrun).1.count, List.length_append,
      List.length_singleton, (h halive).count]
  refused hrefused := by
    rcases nativeEnrollmentAdd_cases floats s call with ⟨-, ho⟩ | ⟨-, -, ho⟩ | ⟨-, -, -, ho⟩ |
      ⟨halive, hroom, hgate, ⟨status, a, hrun, ho⟩ | ⟨a, hrun, ho⟩⟩
    · rw [ho]
      exact Or.inl rfl
    · rw [ho]
      exact Or.inl rfl
    · rw [ho]
      exact Or.inl rfl
    · rw [ho]
      exact Or.inr rfl
    · rw [callAccepted_iff.2 ⟨halive, hroom, hgate, a, hrun, ho⟩] at hrefused
      cases hrefused
  rejected := by
    intro report hreport hflags
    rcases nativeEnrollmentAdd_cases floats s call with ⟨-, ho⟩ | ⟨-, -, ho⟩ | ⟨-, -, -, ho⟩ |
      ⟨-, -, hgate, hrun⟩
    · rw [ho]
    · rw [ho]
    · rw [ho]
      rfl
    · -- behind the gate no flag is set any more
      have hframe : Holds _ (enrollImage floats call (gatedSession floats s call)) :=
        enrollImage_frame call _
      rcases hrun with ⟨status, a, hrun, ho⟩ | ⟨a, hrun, ho⟩
      · rw [hrun] at hframe
        rw [ho] at hreport
        rw [← Option.some.inj hreport] at hflags
        exact absurd ((hframe.elim (·.flags) (·.flags)).trans hgate.2) hflags
      · rw [hrun] at hframe
        rw [ho] at hreport
        rw [← Option.some.inj hreport] at hflags
        exact absurd ((hframe.elim (·.flags) (·.flags)).trans hgate.2) hflags
  failure := nativeEnrollmentAdd_failed
  dead hfailed := by
    have ho : nativeEnrollmentAdd floats s call = ⟨-1, s, none⟩ := by
      rw [nativeEnrollmentAdd, if_pos hfailed]
    rw [ho]
    refine ⟨rfl, rfl, fun occupied fresh => ?_⟩
    rw [nativeEnrollmentFinish, hfailed, Bool.true_or, Bool.true_or, if_pos rfl]
  complete := callLaws_complete hcount h

/-- **The laws of an enrollment session**, over all lists of calls: what holds of the session, what
a call does, what stays, and that completion is never taken back. -/
theorem enrollment_session (floats : EnrollmentFloats F) (calls : List (EnrollmentCall F)) :
    (enrollAll floats calls).count ≤ 13 ∧
    ((enrollAll floats calls).failed = false → RecordsMatch (enrollAll floats calls)) ∧
    (∀ call, CallLaws floats (enrollAll floats calls) call) ∧
    (∀ more, (enrollAll floats calls).Grows (enrollAll floats (calls ++ more))) ∧
    ∀ call more later first second,
      (nativeEnrollmentAdd floats (enrollAll floats calls) call).status = 0 →
      (nativeEnrollmentAdd floats (enrollAll floats calls) call).report = some first →
      first.progress.complete = true →
      (nativeEnrollmentAdd floats (enrollAll floats (calls ++ call :: more)) later).status = 0 →
      (nativeEnrollmentAdd floats (enrollAll floats (calls ++ call :: more)) later).report =
        some second →
      second.progress.complete = true := by
  have hlaws : ∀ calls call, CallLaws floats (enrollAll floats calls) call := fun calls call =>
    callLaws (enrollAll_sound floats calls).1 (enrollAll_sound floats calls).2 call
  refine ⟨(enrollAll_sound floats calls).1,
    fun hfailed => ((enrollAll_sound floats calls).2 hfailed).recordsMatch, hlaws calls,
    fun more => ?_, ?_⟩
  · have happend : enrollAll floats (calls ++ more) =
        enrollFrom floats (enrollAll floats calls) more := enrollFrom_append _ calls more
    rw [happend]
    exact enrollFrom_grows _ more
  · intro call more later first second hfirst hfirstReport hcomplete hsecond hsecondReport
    obtain ⟨report, hreport, haccepted, hiff⟩ := (hlaws calls call).complete hfirst
    obtain rfl := Option.some.inj (hfirstReport.symm.trans hreport)
    obtain ⟨report, hreport, haccepted', hiff'⟩ :=
      (hlaws (calls ++ call :: more) later).complete hsecond
    obtain rfl := Option.some.inj (hsecondReport.symm.trans hreport)
    have happend : enrollAll floats (calls ++ call :: more) =
        enrollFrom floats (nativeEnrollmentAdd floats (enrollAll floats calls) call).session more :=
      enrollFrom_append _ calls (call :: more)
    have hgrows : (nativeEnrollmentAdd floats (enrollAll floats calls) call).session.Grows
        (nativeEnrollmentAdd floats (enrollAll floats (calls ++ call :: more)) later).session := by
      rw [happend]
      exact (enrollFrom_grows _ more).trans (nativeEnrollmentAdd_grows floats _ later)
    have hle : (nativeEnrollmentAdd floats (enrollAll floats (calls ++ call :: more))
        later).session.count ≤ 13 := by
      have hall := (enrollAll_sound floats ((calls ++ call :: more) ++ [later])).1
      rwa [show enrollAll floats ((calls ++ call :: more) ++ [later]) =
        (nativeEnrollmentAdd floats (enrollAll floats (calls ++ call :: more)) later).session from
          enrollFrom_append _ _ [later]] at hall
    have hcount := hgrows.count
    rw [hiff, haccepted] at hcomplete
    rw [hiff', haccepted']
    rcases hcomplete with hfull | ⟨hseven, hlatched⟩
    · exact Or.inl (by omega)
    · exact Or.inr ⟨hseven.trans hcount, hgrows.latched hlatched⟩

end Fpc
