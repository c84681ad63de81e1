/-
**Enrollment sessions.**

A session collects the captures of one finger.  Every image passes a quality gate; an accepted one
becomes a capture and is matched with all captures before it, the captures are grouped by these
matches, and coverage and motion are measured until enough is known of the finger.  A finished
session is written as a template and loaded back.

Floating-point values are left opaque: a type with the comparisons the session makes, and for every
call the results of regrouping and measuring, which may be anything.  So may be the outcome of every
allocation of a call.

Main definitions:

* `Fpc.NativeEnrollment` — the session;
* `Fpc.enrollmentProgressProfile300`, `Fpc.enrollmentQualityProfile300` — progress and the gate;
* `Fpc.nativeEnrollmentAdd` — adding an image, stage by stage;
* `Fpc.retainedGraphCreate`, `Fpc.enrollmentInitialOrder` — the graph of a finished session;
* `Fpc.nativeEnrollmentFinish` — the template of a finished session.
-/

import FpcReader.Lib.Stages
import FpcReader.Native.Matching
import FpcReader.Native.Update

set_option relaxedAutoImplicit false
set_option autoImplicit false

namespace Fpc

/-! ### Progress and quality -/

/-- The comparisons of single-precision values that enrollment makes. -/
structure EnrollmentFloats (F : Type) where
  zero : F
  /-- `value >= 0.0f` -/
  nonneg : F → Bool
  /-- `normalized_motion > 0.4f` -/
  moves : F → Bool
  /-- `relative_area_change < 0.085f` -/
  settled : F → Bool
  /-- `area >= 25000.0f` -/
  wide : F → Bool
  /-- `0.4f >= latest_motion / fpc_sqrt_recovered(area)` -/
  still : F → F → Bool

structure EnrollmentProgress where
  percent : ℤ
  remaining : ℤ
  complete : Bool
  deriving DecidableEq, Repr

structure EnrollmentQualityState where
  attempts : UInt16
  rejectionStreak : UInt8
  earlyCompleteLatched : Bool
  progress : EnrollmentProgress
  deriving DecidableEq, Repr

section Gate

variable {F : Type} (floats : EnrollmentFloats F)

/-- The values that progress is computed from are usable: counts up to eighty, no negative value and
no NaN. -/
def progressInputs (count : ℕ) (area normalizedMotion relativeAreaChange : F) : Bool :=
  decide (count ≤ 80) && floats.nonneg area && floats.nonneg normalizedMotion &&
    floats.nonneg relativeAreaChange

/-- The latch and the progress after `count` captures.  The percentage is computed in single
precision in the source; up to thirteen captures it truncates to the exact quotient. -/
def enrollmentProgressProfile300 (count : ℕ) (area normalizedMotion relativeAreaChange : F)
    (earlyCompleteLatched : Bool) : Option (Bool × EnrollmentProgress) :=
  if !progressInputs floats count area normalizedMotion relativeAreaChange then none
  else
    let percent : ℤ := min 100 (100 * count / 13)
    let latched := earlyCompleteLatched ||
      (decide (3 ≤ count) && floats.moves normalizedMotion && floats.settled relativeAreaChange &&
        floats.wide area)
    let percent := if 7 ≤ count ∧ latched then 100 else percent
    some (latched, ⟨percent, if 100 ≤ percent then 0 else 13 - count, decide (100 ≤ percent)⟩)

/-- One bit for each quality that is too low. -/
def qualityFlags (quality28 quality32 quality16 : ℤ) : ℕ :=
  (if quality28 < 25 then 1 else 0) + (if quality32 < 60 then 16 else 0) +
    if quality16 < 32 then 32768 else 0

/-- What the quality gate leaves behind. -/
structure QualityOutcome where
  status : ℤ
  state : EnrollmentQualityState
  rejectionFlags : ℕ
  deriving DecidableEq, Repr

/-- The quality gate: a rejection recomputes the progress from the metrics there are. -/
def enrollmentQualityProfile300 (quality28 quality32 quality16 : ℤ) (acceptedCount : ℕ)
    (area normalizedMotion relativeAreaChange : F) (state : EnrollmentQualityState) :
    QualityOutcome :=
  if !progressInputs floats acceptedCount area normalizedMotion relativeAreaChange then
    ⟨-1, state, 0⟩
  else
    let flags := qualityFlags quality28 quality32 quality16
    let state := { state with attempts := state.attempts + 1 }
    if flags = 0 then ⟨0, { state with rejectionStreak := 0 }, flags⟩
    else
      match enrollmentProgressProfile300 floats acceptedCount area normalizedMotion
          relativeAreaChange state.earlyCompleteLatched with
      | none => ⟨-1, state, flags⟩
      | some (latched, progress) =>
          let streak := state.rejectionStreak + 1
          ⟨if 10 ≤ streak then 112 else 0,
            { state with
              rejectionStreak := streak, earlyCompleteLatched := latched, progress := progress },
            flags⟩

/-- The counter of images that moved too little, and whether this one did. -/
def enrollmentCheckMovement (count : ℕ) (area latestMotion : F) (insufficientCount : UInt32)
    (reportFlag : ℤ) : Option (UInt32 × ℤ) :=
  if 80 < count then none
  else if count < 2 then some (insufficientCount, reportFlag)
  else if floats.still latestMotion area then some (insufficientCount + 1, 1)
  else some (insufficientCount, 0)

end Gate

/-! ### The session -/

/-- A pair record: the similarity of two captures, its inliers and whether it counts. -/
structure CaptureMatch where
  transform : Transform
  inliers : ℕ
  success : ℕ
  deriving DecidableEq, Repr

structure CaptureGroupsState (F : Type) where
  groupCount : ℤ
  selectedGroup : ℤ
  referenceCapture : ℤ
  centerX : F
  centerY : F

structure EnrollmentMetrics (F : Type) where
  area : List F
  motion : List F
  latestMotion : F
  normalizedMotion : F
  relativeAreaChange : F

/-- A session: the first `count` of thirteen slots are in use, and the first `pairCount` of the 78
pair records. -/
structure NativeEnrollment (F : Type) where
  count : ℕ
  pairCount : ℕ
  captures : List LoadedCapture
  masks : List (List UInt32)
  coverage : List ℤ
  widths : List ℤ
  heights : List ℤ
  captureMatches : List CaptureMatch
  spatialScores : List UInt16
  roots : List UInt16
  groups : List ℤ
  transforms : List F
  grouping : CaptureGroupsState F
  metrics : EnrollmentMetrics F
  quality : EnrollmentQualityState
  insufficientMovement : UInt32
  failed : Bool

/-- An image as enrollment takes it, with its coverage mask of 352 words. -/
structure EnrollmentImage extends PreparedCapture where
  packedMask : Vector UInt32 352

structure EnrollmentReport (F : Type) where
  rejectionFlags : ℕ
  progress : EnrollmentProgress
  movement : ℤ
  groupChange : UInt32
  accepted : ℕ
  area : F
  latestMotion : F
  normalizedMotion : F
  relativeAreaChange : F

/-- What regrouping leaves in the arrays and flags it may write, with its status. -/
structure Regrouped (F : Type) where
  status : ℤ
  groups : List ℤ
  roots : List UInt16
  transforms : List F
  grouping : CaptureGroupsState F
  flags : UInt32

/-- One call: the image, the allocations as they come out (that of the capture, named `fresh`, and
the buffers of each match), and the results of the floating-point routines. -/
structure EnrollmentCall (F : Type) where
  prepared : EnrollmentImage
  fresh : ℕ
  storageAllocated : Bool
  buffersAllocated : ℕ → Bool
  rebuildCaptureGroups : NativeEnrollment F → UInt32 → Regrouped F
  computeEnrollmentMetrics : NativeEnrollment F → ℤ × EnrollmentMetrics F

section Add

variable {F : Type} (floats : EnrollmentFloats F)

/-- A session without captures. -/
def nativeEnrollmentCreate : NativeEnrollment F where
  count := 0
  pairCount := 0
  captures := List.replicate 13 LoadedCapture.empty
  masks := List.replicate 13 (List.replicate 352 0)
  coverage := List.replicate 13 0
  widths := List.replicate 13 112
  heights := List.replicate 13 88
  captureMatches := List.replicate 78 ⟨⟨0, 0, 0, 0⟩, 0, 0⟩
  spatialScores := List.replicate 78 0
  roots := List.replicate 13 0
  groups := List.replicate 13 (-1)
  transforms := List.replicate 117 floats.zero
  grouping := ⟨0, -1, -1, floats.zero, floats.zero⟩
  metrics := ⟨List.replicate 80 floats.zero, List.replicate 80 floats.zero, floats.zero,
    floats.zero, floats.zero⟩
  quality := ⟨0, 0, false, ⟨0, 13, false⟩⟩
  insufficientMovement := 0
  failed := false

/-- A report as `memset` leaves it. -/
def EnrollmentReport.zero : EnrollmentReport F :=
  ⟨0, ⟨0, 0, false⟩, 0, 0, 0, floats.zero, floats.zero, floats.zero, floats.zero⟩

/-- The session and the report while an image is added. -/
structure Adding (F : Type) where
  session : NativeEnrollment F
  report : EnrollmentReport F

/-- A stage fails with its status and with what has been done so far. -/
abbrev Staged (F : Type) := Except (ℤ × Adding F)

/-- The slot that the next capture takes. -/
def NativeEnrollment.incoming (s : NativeEnrollment F) : LoadedCapture :=
  s.captures.getD s.count LoadedCapture.empty

/-- The area after the latest capture. -/
def NativeEnrollment.latestArea (s : NativeEnrollment F) : F :=
  if s.count = 0 then floats.zero else s.metrics.area.getD (s.count - 1) floats.zero

/-- The number of captures without a group. -/
def NativeEnrollment.unassigned (s : NativeEnrollment F) : ℕ :=
  (s.groups.take s.count).countP (· < 0)

/-- The image becomes a capture in the next slot, which has to be empty. -/
def storeCapture (call : EnrollmentCall F) (a : Adding F) : Staged F (Adding F) :=
  if a.session.incoming.storage ≠ none then .error (-1, a)
  else
    match captureFromPrepared call.prepared.toPreparedCapture true call.fresh with
    | .error (.status code) => .error (code, a)
    | .error .outOfBounds => .error (-1, a)
    | .ok capture =>
        if call.storageAllocated then
          .ok { a with session := { a.session with
            captures := a.session.captures.set a.session.count capture } }
        else .error (2, a)

/-- The record of a match. -/
def matchRecord (geometry : GeometryResult) : CaptureMatch :=
  ⟨geometry.transform, if geometry.success ≠ 0 then geometry.inliers else 0, geometry.success⟩

/-- The match of capture `i` with the incoming one, whose bitmap is the one that is written. -/
def matchIncoming (call : EnrollmentCall F) (s : NativeEnrollment F) (i : ℕ) :
    Option VerifiedGeometry :=
  let earlier := (s.captures.getD i LoadedCapture.empty).view
  let incoming := s.incoming.view
  if earlier.count ≠ 0 ∧ incoming.count ≠ 0 ∧ !call.buffersAllocated i then none
  else matchProfile300Captures earlier incoming (incoming.membership.getD []) 300

/-- The incoming capture is matched with capture `i`, and the record appended. -/
def appendPair (call : EnrollmentCall F) (a : Adding F) (i : ℕ) : Staged F (Adding F) :=
  let s := a.session
  match matchIncoming call s i with
  | none => .error (-1, a)
  | some verified =>
      let view := { s.incoming.view with
        membership := s.incoming.view.membership.map fun _ => verified.targetMembership }
      .ok { a with session := { s with
        captures := s.captures.set s.count { s.incoming with view := view }
        captureMatches := s.captureMatches.set s.pairCount (matchRecord verified.result)
        spatialScores :=
          s.spatialScores.set s.pairCount (UInt16.ofNat verified.result.spatialInliers)
        pairCount := s.pairCount + 1 } }

/-- The capture counts from here on: its mask and coverage are kept and the groups rebuilt. -/
def countCapture (call : EnrollmentCall F) (a : Adding F) : Staged F (Adding F) :=
  let oldGroupCount := a.session.grouping.groupCount
  let unassignedBefore := a.session.unassigned
  let s := { a.session with
    masks := a.session.masks.set a.session.count call.prepared.packedMask.toList
    coverage := a.session.coverage.set a.session.count call.prepared.coverage
    count := a.session.count + 1 }
  let rebuilt := call.rebuildCaptureGroups s a.report.groupChange
  let s := { s with
    groups := rebuilt.groups
    roots := rebuilt.roots
    transforms := rebuilt.transforms
    grouping := rebuilt.grouping }
  if rebuilt.status ≠ 0 then
    .error (rebuilt.status, ⟨s, { a.report with groupChange := rebuilt.flags }⟩)
  else
    let change := rebuilt.flags &&& 1
    let joined := decide (s.grouping.groupCount = oldGroupCount ∧
      s.unassigned ≤ unassignedBefore ∧ 0 ≤ s.grouping.selectedGroup ∧
      s.groups.getD (s.count - 1) (-1) = s.grouping.selectedGroup)
    .ok ⟨s, { a.report with groupChange := if joined then change ||| 1 else change }⟩

/-- Coverage and motion are measured. -/
def measureCaptures (call : EnrollmentCall F) (a : Adding F) : Staged F (Adding F) :=
  let measured := call.computeEnrollmentMetrics a.session
  let a := { a with session := { a.session with metrics := measured.2 } }
  if measured.1 ≠ 0 then .error (measured.1, a) else .ok a

/-- Images that moved too little are counted. -/
def checkMovement (a : Adding F) : Staged F (Adding F) :=
  let s := a.session
  match enrollmentCheckMovement floats s.count (s.latestArea floats) s.metrics.latestMotion
      s.insufficientMovement a.report.movement with
  | none => .error (-1, a)
  | some (insufficient, movement) =>
      .ok ⟨{ s with insufficientMovement := insufficient }, { a.report with movement := movement }⟩

/-- The progress is computed from the new metrics. -/
def advanceProgress (a : Adding F) : Staged F (Adding F) :=
  let s := a.session
  match enrollmentProgressProfile300 floats s.count (s.latestArea floats)
      s.metrics.normalizedMotion s.metrics.relativeAreaChange s.quality.earlyCompleteLatched with
  | none => .error (-1, a)
  | some (latched, progress) =>
      .ok { a with session := { s with
        quality := { s.quality with earlyCompleteLatched := latched, progress := progress } } }

/-- The stages behind the quality gate. -/
def enrollImage (call : EnrollmentCall F) (a : Adding F) : Staged F (Adding F) :=
  storeCapture call a >>= fun stored =>
    (List.range stored.session.count).foldlM (appendPair call) stored >>= fun paired =>
      countCapture call paired >>= fun counted =>
        measureCaptures call counted >>= fun measured =>
          checkMovement floats measured >>= advanceProgress floats

/-- The rest of the report, from the session as it is. -/
def NativeEnrollment.publish (s : NativeEnrollment F) (report : EnrollmentReport F) :
    EnrollmentReport F :=
  { report with
    area := s.latestArea floats
    latestMotion := s.metrics.latestMotion
    normalizedMotion := s.metrics.normalizedMotion
    relativeAreaChange := s.metrics.relativeAreaChange
    accepted := s.count
    progress := s.quality.progress }

/-- What a call leaves behind; a report that is not written is `none`. -/
structure AddOutcome (F : Type) where
  status : ℤ
  session : NativeEnrollment F
  report : Option (EnrollmentReport F)

/-- The quality gate of a call. -/
def enrollmentGate (s : NativeEnrollment F) (call : EnrollmentCall F) : QualityOutcome :=
  enrollmentQualityProfile300 floats call.prepared.confidence call.prepared.coverage
    call.prepared.quality s.count (s.latestArea floats) s.metrics.normalizedMotion
    s.metrics.relativeAreaChange s.quality

/-- The session and the report as the quality gate leaves them. -/
def gatedSession (s : NativeEnrollment F) (call : EnrollmentCall F) : Adding F :=
  let gate := enrollmentGate floats s call
  ⟨{ s with quality := gate.state },
    { EnrollmentReport.zero floats with rejectionFlags := gate.rejectionFlags }⟩

/-- Add an image to a session.  A failure behind the gate marks the session. -/
def nativeEnrollmentAdd (s : NativeEnrollment F) (call : EnrollmentCall F) : AddOutcome F :=
  if s.failed then ⟨-1, s, none⟩
  else if 13 ≤ s.count then ⟨111, s, some (EnrollmentReport.zero floats)⟩
  else
    let gate := enrollmentGate floats s call
    let gated := gatedSession floats s call
    if gate.status ≠ 0 ∨ gate.rejectionFlags ≠ 0 then
      ⟨gate.status, gated.session, some (gated.session.publish floats gated.report)⟩
    else
      match enrollImage floats call gated with
      | .error (status, a) => ⟨status, { a.session with failed := true }, some a.report⟩
      | .ok a => ⟨0, a.session, some (a.session.publish floats a.report)⟩

/-- The session after a list of calls. -/
def enrollAll (calls : List (EnrollmentCall F)) : NativeEnrollment F :=
  calls.foldl (fun s call => (nativeEnrollmentAdd floats s call).session)
    (nativeEnrollmentCreate floats)

end Add

/-! ### The graph of a finished session -/

/-- Write the score of one pair, recorded in the order of appending, to its place in the rows. -/
def writePairScore (pairScores : List UInt16) (capacity later : ℕ) (scores : List UInt16)
    (earlier : ℕ) : List UInt16 :=
  -- the position stays zero where there is no such edge
  let index := (enrollmentPairIndex capacity earlier later).getD 0
  scores.set index (pairScores.getD (later * (later - 1) / 2 + earlier) 0)

/-- The packed scores of all pairs. -/
def packScores (pairScores : List UInt16) (used capacity : ℕ) : List UInt16 :=
  (List.range used).foldl
    (fun scores later => (List.range later).foldl (writePairScore pairScores capacity later) scores)
    (List.replicate (edgeCount capacity) 0)

/-- A graph of `used` captures, with the order of its slots still to be found. -/
def retainedGraphCreate (pairScores : List UInt16) (pairCount used : ℕ)
    (retentionCapacity : UInt8) (protection : UInt16) : Option RetainedGraph :=
  if 80 < used ∨ (1 < used ∧ pairCount < used * (used - 1) / 2) then none
  else
    let capacity := max used retentionCapacity.toNat
    if capacity < 2 then none
    else
      some {
        scores := some (packScores pairScores used capacity)
        order := some ((List.range capacity).map UInt16.ofNat)
        ages := some (List.replicate capacity (UInt16.ofNat (2 * retentionCapacity.toNat)))
        scoreCount := edgeCount capacity
        ageCount := capacity
        used := UInt16.ofNat used
        capacity := UInt16.ofNat capacity
        protectedCount := protection
        protectedLimit := protection
        ageThreshold := UInt16.ofNat (3 * capacity) }

/-- The squared scores of one pair, added to the costs of both slots. -/
def addOrderCost (scores : List UInt16) (capacity i : ℕ) (cost : List UInt32) (j : ℕ) :
    List UInt32 :=
  let value := squareScore (scores.getD ((enrollmentPairIndex capacity i j).getD 0) 0)
  (cost.modify i (· + value)).modify j (· + value)

/-- The cost of every used slot: its squared scores, summed. -/
def orderCosts (scores : List UInt16) (used capacity : ℕ) : List UInt32 :=
  (List.range used).foldl
    (fun cost i =>
      (List.range' (i + 1) (used - (i + 1))).foldl (addOrderCost scores capacity i) cost)
    (List.replicate capacity 0)

/-- Costs and slots while they are sorted, and where the last exchange was. -/
structure SortState where
  cost : List UInt32
  order : List UInt16
  last : ℕ
  deriving DecidableEq, Repr

/-- Exchange two neighbours. -/
def swapBefore {α : Type} (default : α) (l : List α) (i : ℕ) : List α :=
  (l.set i (l.getD (i - 1) default)).set (i - 1) (l.getD i default)

def sortStep (st : SortState) (i : ℕ) : SortState :=
  if st.cost.getD i 0 < st.cost.getD (i - 1) 0 then
    ⟨swapBefore 0 st.cost i, swapBefore 0 st.order i, i⟩
  else st

/-- One pass over the first `finish` slots. -/
def sortPass (st : SortState) (finish : ℕ) : SortState :=
  (List.range' 1 (finish - 1)).foldl sortStep { st with last := 0 }

/-- Passes up to the last exchange, until one exchanges nothing; each is shorter than the one
before, so `finish` passes are enough. -/
def sortPasses : ℕ → ℕ → SortState → SortState
  | 0, _, st => st
  | fuel + 1, finish, st =>
      if finish ≤ 1 then st
      else
        let st := sortPass st finish
        sortPasses fuel st.last st

/-- The slots by ascending cost, those in use first. -/
def enrollmentInitialOrder (scores : List UInt16) (scoreCount used capacity orderCount : ℕ) :
    Option (List UInt16) :=
  if capacity < 2 ∨ 65535 < capacity ∨ capacity < used ∨ orderCount < capacity ∨
      scoreCount < edgeCount capacity then none
  else
    let start : SortState :=
      ⟨orderCosts scores used capacity, (List.range capacity).map UInt16.ofNat, 0⟩
    some (sortPasses used used start).order

/-! ### Finishing -/

/-- The template of a finished session; `occupied` says that the output holds captures already. -/
def nativeEnrollmentFinish {F : Type} (s : NativeEnrollment F) (occupied : Bool) (fresh : ℕ) :
    Except Fault LoadedTemplate :=
  if s.failed || !s.quality.progress.complete || occupied then .error (.status (-1))
  else
    match retainedGraphCreate s.spatialScores s.pairCount s.count 32 8 with
    | none => .error (.status (-1))
    | some graph =>
        match enrollmentInitialOrder (graph.scores.getD []) graph.scoreCount graph.used.toNat
            graph.capacity.toNat graph.capacity.toNat with
        | none => .error (.status (-1))
        | some order =>
            let graph := { graph with order := some order }
            let views := (s.captures.take s.count).map LoadedCapture.view
            templateSize graph views 32 32 >>= fun bytes =>
              templateSerializeDefault graph views 32 0 32 bytes >>= fun payload =>
                templateLoadDefault payload 32 fresh

end Fpc
