/-
**Adapting a template after a match.**

A template that matched grows older in all its slots but the matched one.  When the query was good
enough it is also retained: in a free slot while there is one, else in place of the slot whose
capture overlaps most with the others, slots that have not matched for long going first.

Main definitions:

* `Fpc.captureFromPrepared` — the capture of a prepared image;
* `Fpc.enrollmentPairIndex`, `Fpc.enrollmentSelectCapture` — the edge of two slots, and the slot
  to be replaced;
* `Fpc.loadedCollectionTakeCapture`, `Fpc.loadedTemplateRetainCapture` — moving a capture into its
  slot;
* `Fpc.updateTemplateAfterMatch` — the whole update with its state word.

Statuses are returned as they are; running out of memory is left aside.
-/

import FpcReader.Native.Template
import Mathlib.Data.UInt

set_option relaxedAutoImplicit false
set_option autoImplicit false

namespace Fpc

/-! ### Prepared captures -/

/-- A feature of a prepared image: its position and its descriptor. -/
structure PreparedFeature where
  x : UInt8
  y : UInt8
  descriptor : Vector UInt8 16
  deriving DecidableEq, Repr

/-- What preparing an image leaves behind, as far as templates are concerned. -/
structure PreparedCapture where
  quality : ℤ
  confidence : ℤ
  coverage : ℤ
  features : List PreparedFeature
  deriving DecidableEq, Repr

/-- The membership bitmap of `n` features, all set or all clear. -/
def initialMembership (n : ℕ) (enrolled : Bool) : List UInt8 :=
  if enrolled then
    (List.range ((n + 7) / 8)).map fun i => UInt8.ofNat (2 ^ (min 8 (n - 8 * i)) - 1)
  else List.replicate ((n + 7) / 8) 0

/-- The view of a prepared capture: one level at scale one. -/
def preparedView (prepared : PreparedCapture) (enrolled : Bool) : CapturePayloadView where
  count := prepared.features.length
  mode := 1
  descriptorBytes := 16
  levels := 1
  tableWidth := 0
  levelFields := some [UInt16.ofNat prepared.features.length, 16384, 16384, 8, 8]
  levelExtra := none
  compactCoordinates := some (prepared.features.flatMap fun f => [f.x, f.y])
  descriptors := some (prepared.features.flatMap fun f => f.descriptor.toList)
  membership := some (initialMembership prepared.features.length enrolled)
  coordinates := none
  scores := none
  angles := none

/-- The capture of a prepared image, owned in allocation `fresh`. -/
def captureFromPrepared (prepared : PreparedCapture) (enrolled : Bool) (fresh : ℕ) :
    Except Fault LoadedCapture :=
  if 300 < prepared.features.length then .error (.status (-1))
  else
    capturePayload (preparedView prepared enrolled) defaultFlags 5500 >>= fun payload =>
      captureLoadPayload payload defaultFlags fresh

/-! ### Slots and edges -/

/-- The position of the edge between two slots. -/
def enrollmentPairIndex (capacity first second : ℕ) : Option ℕ :=
  if capacity < 2 ∨ 65535 < capacity ∨ capacity ≤ first ∨ capacity ≤ second ∨ first = second then
    none
  else
    let low := min first second
    let high := max first second
    some (low * (capacity - 2) - low * (low - 1) / 2 + high - 1)

/-- An edge has one place. -/
theorem enrollmentPairIndex_comm (capacity i j : ℕ) :
    enrollmentPairIndex capacity i j = enrollmentPairIndex capacity j i := by
  unfold enrollmentPairIndex
  rw [Nat.min_comm, Nat.max_comm]
  by_cases h : capacity < 2 ∨ 65535 < capacity ∨ capacity ≤ i ∨ capacity ≤ j ∨ i = j
  · rw [if_pos h, if_pos (by omega)]
  · rw [if_neg h, if_neg (by omega)]

/-- The square of a score, as a `uint32_t`. -/
def squareScore (score : UInt16) : UInt32 := score.toUInt32 * score.toUInt32

/-- Add the squared score of the edge between two slots to the costs of both. -/
def addEdgeCost (graph : List UInt16) (capacity i j : ℕ) (cost : List UInt32) :
    Option (List UInt32) :=
  match enrollmentPairIndex capacity i j with
  | none => none
  | some index =>
      let square := squareScore (graph.getD index 0)
      some ((cost.modify i (· + square)).modify j (· + square))

/-- The edges from slot `i` to the later ones. -/
def addRowCosts (graph : List UInt16) (capacity count i : ℕ) (cost : List UInt32) :
    Option (List UInt32) :=
  (List.range' (i + 1) (count - (i + 1))).foldlM (fun cost j => addEdgeCost graph capacity i j cost)
    cost

/-- The cost of every slot, and of the new capture at the end: sums of squared scores. -/
def captureCosts (graph : List UInt16) (capacity count : ℕ) (newScores : List UInt16) :
    Option (List UInt32) :=
  let squares := (List.range count).map fun i => squareScore (newScores.getD i 0)
  (List.range count).foldlM (fun cost i => addRowCosts graph capacity count i cost)
    (squares ++ [squares.sum])

/-- The first scan: take the most expensive slot, and stop at one that is overdue. -/
def scanSlots (cost : List UInt32) (ages : List UInt16) (ageThreshold : UInt16) :
    List UInt16 → UInt32 × ℤ → (UInt32 × ℤ) × List UInt16
  | [], st => (st, [])
  | slot :: rest, st =>
      let k := slot.toNat
      let aged := decide (ageThreshold ≤ ages.getD k 0)
      if st.1 < cost.getD k 0 ∨ aged then
        let st := (cost.getD k 0, (k : ℤ))
        if aged then (st, rest) else scanSlots cost ages ageThreshold rest st
      else scanSlots cost ages ageThreshold rest st

/-- The second scan: only overdue slots count. -/
def scanAgedSlots (cost : List UInt32) (ages : List UInt16) (ageThreshold : UInt16) :
    List UInt16 → UInt32 × ℤ → UInt32 × ℤ
  | [], st => st
  | slot :: rest, st =>
      let k := slot.toNat
      let st :=
        if st.1 < cost.getD k 0 ∧ ageThreshold ≤ ages.getD k 0 then (cost.getD k 0, (k : ℤ))
        else st
      scanAgedSlots cost ages ageThreshold rest st

/-- The slot for a new capture: the next free one, or the one to replace, or minus one. -/
def enrollmentSelectCapture (graph : Option (List UInt16)) (graphSize count capacity : ℕ)
    (newScores : List UInt16) (order ages : Option (List UInt16)) (protectedCount : ℕ)
    (ageThreshold : UInt16) : Option ℤ :=
  if capacity < 2 ∨ 65535 < capacity ∨ capacity < count then none
  else if count < capacity then some count
  else
    match graph, order, ages with
    | some graph, some order, some ages =>
        let slots := order.take capacity
        if graphSize < edgeCount capacity ∨ slots.any (fun slot => count ≤ slot.toNat) then none
        else
          match captureCosts graph capacity count newScores with
          | none => none
          | some cost =>
              let first := scanSlots cost ages ageThreshold (slots.drop protectedCount)
                (cost.getD count 0, -1)
              some (scanAgedSlots cost ages ageThreshold first.2 first.1).2
    | _, _, _ => none

/-- Write the edges between a slot and the used ones; the slot count grows when it is new. -/
def enrollmentWriteCaptureScores (graph : List UInt16) (graphSize count capacity capture : ℕ)
    (newScores : List UInt16) : Option (List UInt16 × ℕ) :=
  if capacity < 2 ∨ 65535 < capacity ∨ capacity < count ∨ graphSize < edgeCount capacity ∨
      count < capture ∨ capacity ≤ capture ∨ newScores.length < count then none
  else
    match ((List.range count).filter (· ≠ capture)).foldlM (fun (graph : List UInt16) i =>
        (enrollmentPairIndex capacity i capture).map fun index =>
          graph.set index (newScores.getD i 0)) graph with
    | none => none
    | some graph => some (graph, if capture = count then count + 1 else count)

/-! ### Retaining a capture -/

/-- A capture that owns nothing, as `memset` leaves it. -/
def LoadedCapture.empty : LoadedCapture := ⟨CapturePayloadView.bare 0, none⟩

/-- Move a capture into a slot, appending it or replacing what is there. -/
def loadedCollectionTakeCapture (collection : LoadedCollection) (incoming : LoadedCapture)
    (index : ℕ) : Option LoadedCollection :=
  let count := collection.captures.length
  if collection.capacity < count ∨ collection.capacity ≤ index ∨ count < index then none
  else if incoming.storage ≠ none ∧
      collection.captures.any (fun c => c.storage = incoming.storage) then none
  else if index = count then
    some { collection with captures := collection.captures ++ [incoming] }
  else some { collection with captures := collection.captures.set index incoming }

/-- What retaining leaves behind: a status, the template, the incoming capture and the slot. -/
structure RetainOutcome where
  status : ℤ
  template : LoadedTemplate
  incoming : LoadedCapture
  selected : ℤ
  deriving DecidableEq, Repr

/-- The checks before a capture is retained. -/
def retainable (t : LoadedTemplate) (spatialScores : List UInt16) : Bool :=
  let graph := t.graph
  let used := graph.used.toNat
  let capacity := graph.capacity.toNat
  decide (used ≤ 80 ∧ 2 ≤ capacity ∧ used ≤ capacity ∧ t.collection.captures.length = used ∧
    capacity ≤ t.collection.capacity ∧ graph.scores ≠ none ∧
    edgeCount capacity ≤ graph.scoreCount ∧ used ≤ spatialScores.length ∧
    (used = capacity → graph.ages ≠ none ∧ used ≤ graph.ageCount ∧ graph.order ≠ none))

def loadedTemplateRetainCapture (t : LoadedTemplate) (spatialScores : List UInt16)
    (protection : UInt16) (incoming : LoadedCapture) : RetainOutcome :=
  if !retainable t spatialScores then ⟨1, t, incoming, -1⟩
  else
    let used := t.graph.used.toNat
    let scores := spatialScores.take used
    let graph := { t.graph with protectedCount := protection, protectedLimit := protection }
    let t := { t with graph := graph }
    match enrollmentSelectCapture graph.scores graph.scoreCount used graph.capacity.toNat scores
        graph.order graph.ages protection.toNat graph.ageThreshold with
    | none => ⟨1, t, incoming, -1⟩
    | some selected =>
        if selected < 0 then ⟨0, t, incoming, selected⟩
        else
          match loadedCollectionTakeCapture t.collection incoming selected.toNat with
          | none => ⟨1, t, incoming, selected⟩
          | some collection =>
              let t := { t with collection := collection }
              match enrollmentWriteCaptureScores (graph.scores.getD []) graph.scoreCount used
                  graph.capacity.toNat selected.toNat scores with
              | none => ⟨1, t, LoadedCapture.empty, selected⟩
              | some (written, count) =>
                  let graph := { graph with scores := some written, used := UInt16.ofNat count }
                  ⟨0, { t with graph := graph }, LoadedCapture.empty, selected⟩

/-! ### Ages -/

/-- One match older, up to the largest age there is. -/
def olderAge (age : UInt16) : UInt16 := if age = 65535 then age else age + 1

def retainedGraphIncrementAges (graph : RetainedGraph) : Option RetainedGraph :=
  let used := graph.used.toNat
  if graph.ageCount < used ∨ (used ≠ 0 ∧ graph.ages = none) then none
  else
    some { graph with
      ages := graph.ages.map fun ages => (ages.take used).map olderAge ++ ages.drop used }

def retainedGraphResetAge (graph : RetainedGraph) (index : ℤ) : Option RetainedGraph :=
  if index < 0 ∨ (graph.used.toNat : ℤ) < index ∨ (graph.ageCount : ℤ) ≤ index ∨
      graph.ages = none then none
  else some { graph with ages := graph.ages.map fun ages => ages.set index.toNat 0 }

/-! ### The update -/

structure TemplateUpdatePolicy where
  minimumScore : ℕ
  protection : UInt16
  minimumQuality28 : ℤ
  minimumQuality32 : ℤ
  minimumQuality16 : ℤ
  deriving DecidableEq, Repr

structure TemplateUpdateState where
  code : ℤ
  matched : ℤ
  updateAllowed : ℤ
  ageUpdateAllowed : ℤ
  reportedScore : ℕ
  selectedCapture : ℤ
  changed : ℕ
  retainedSlot : ℤ
  deriving DecidableEq, Repr

/-- What an update leaves behind: a status, the template, the incoming capture and the state. -/
structure UpdateOutcome where
  status : ℤ
  template : LoadedTemplate
  incoming : LoadedCapture
  state : TemplateUpdateState
  reportedChanged : ℕ
  deriving DecidableEq, Repr

/-- Reset the age of a slot; a slot that is out of range is ignored. -/
def resetAgeIgnoring (t : LoadedTemplate) (index : ℤ) : LoadedTemplate :=
  { t with graph := (retainedGraphResetAge t.graph index).getD t.graph }

/-- The scores and the three qualities reach the policy. -/
def goodEnough (policy : TemplateUpdatePolicy) (state : TemplateUpdateState)
    (quality28 quality32 quality16 : ℤ) : Bool :=
  decide (policy.minimumScore ≤ state.reportedScore ∧ policy.minimumQuality28 ≤ quality28 ∧
    policy.minimumQuality32 ≤ quality32 ∧ policy.minimumQuality16 ≤ quality16)

/-- The part of the update that changes a template that has aged. -/
def retainGoodCapture (t : LoadedTemplate) (incoming : LoadedCapture)
    (quality28 quality32 quality16 : ℤ) (spatialScores : List UInt16)
    (policy : TemplateUpdatePolicy) (state : TemplateUpdateState) : UpdateOutcome :=
  if goodEnough policy state quality28 quality32 quality16 then
    let retained := loadedTemplateRetainCapture t spatialScores policy.protection incoming
    let t :=
      if retained.status = 0 ∧ 0 ≤ retained.selected then
        resetAgeIgnoring retained.template retained.selected
      else retained.template
    ⟨retained.status, t, retained.incoming,
      { state with retainedSlot := retained.selected, changed := 1 }, 1⟩
  else ⟨0, t, incoming, { state with changed := 1 }, 1⟩

def updateTemplateAfterMatch (t : LoadedTemplate) (incoming : LoadedCapture)
    (quality28 quality32 quality16 : ℤ) (spatialScores : List UInt16)
    (policy : TemplateUpdatePolicy) (state : TemplateUpdateState) : UpdateOutcome :=
  if state.code ≠ 102 then ⟨1041, t, incoming, state, 0⟩
  else
    let state := { state with code := 103 }
    if state.matched = 1 ∧ state.updateAllowed = 1 ∧ state.ageUpdateAllowed = 1 then
      match retainedGraphIncrementAges t.graph with
      | none => ⟨1, t, incoming, state, 0⟩
      | some graph =>
          let t := resetAgeIgnoring { t with graph := graph } state.selectedCapture
          retainGoodCapture t incoming quality28 quality32 quality16 spatialScores policy state
    else ⟨0, t, incoming, state, state.changed⟩

end Fpc
