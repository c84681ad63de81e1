/-
**Stored templates.**

A template is a retained graph, the captures its nodes stand for and the ages of its slots.  It is
stored as a version header and checked blocks: metadata, graph, collection header, one block for
each capture, ages.

Main definitions:

* `Fpc.RetainedGraph`, `Fpc.LoadedTemplate` — the structures in memory;
* `Fpc.collectionLoadDefault`, `Fpc.collectionSerializeDefault` — the capture blocks;
* `Fpc.retainedGraphLoadPayload`, `Fpc.retainedGraphPayload` — the graph block;
* `Fpc.templateLoadDefault`, `Fpc.templateSerializeDefault` — whole templates.
-/

import FpcReader.Native.CapturePayload

set_option relaxedAutoImplicit false
set_option autoImplicit false

namespace Fpc

open Bytes

/-! ### Templates in memory -/

/-- The pair scores of the retained captures, packed without the diagonal, with the replacement
order and the age of each slot. -/
structure RetainedGraph where
  scores : Option (List UInt16)
  order : Option (List UInt16)
  ages : Option (List UInt16)
  scoreCount : ℕ
  ageCount : ℕ
  used : UInt16
  capacity : UInt16
  protectedCount : UInt16
  protectedLimit : UInt16
  ageThreshold : UInt16
  deriving DecidableEq, Repr

structure LoadedTemplate where
  graph : RetainedGraph
  collection : LoadedCollection
  metadata : UInt16
  deriving DecidableEq, Repr

/-- The number of edges between `capacity` slots. -/
def edgeCount (capacity : ℕ) : ℕ := capacity * (capacity - 1) / 2

/-- The flags of a stored capture. -/
def defaultFlags : UInt16 := 0x0ce1

/-- The payload of a checked block of `length` bytes. -/
def blockPayload (block : List UInt8) (length : ℕ) : List UInt8 :=
  (block.drop 8).take (length - 12)

/-- Every nonzero status becomes `code`. -/
def withStatus {α : Type} (code : ℤ) (x : Except Fault α) : Except Fault α :=
  match x with
  | .error (.status _) => .error (.status code)
  | .error .outOfBounds => .error .outOfBounds
  | .ok a => .ok a

/-! ### Collections -/

/-- The capture blocks from `offset` on, the next one being number `i`, and where they end. -/
def loadCaptures (data : List UInt8) (fresh : ℕ) :
    ℕ → ℕ → ℕ → Except Fault (List LoadedCapture × ℕ)
  | 0, _, offset => .ok ([], offset)
  | count + 1, i, offset =>
      checkedBlock (data.drop offset) (1540162048 + i) >>= fun length =>
        captureLoadPayload (blockPayload (data.drop offset) length) defaultFlags (fresh + i) >>=
          fun capture =>
            loadCaptures data fresh count (i + 1) (offset + length) >>= fun (captures, finish) =>
              .ok (capture :: captures, finish)

/-- The collection at the start of `data` and the number of bytes it takes; capture `i` lives in
allocation `fresh + i`. -/
def collectionLoadDefault (data : List UInt8) (fresh : ℕ) :
    Except Fault (LoadedCollection × ℕ) :=
  checkedBlock data 1540161792 >>= fun length =>
    if length ≠ 24 then .error (.status 140)
    else
      loadLe32 data 8 >>= fun flags =>
        if flags.toNat ≠ 0x0ce1 then .error (.status 140)
        else
          loadLe32 data 12 >>= fun count =>
            loadLe32 data 16 >>= fun capacity =>
              if count.toNat = 0 ∨ 80 < count.toNat ∨ capacity.toNat < count.toNat ∨
                  65535 < capacity.toNat then .error (.status 140)
              else
                loadCaptures data fresh count.toNat 0 24 >>= fun (captures, finish) =>
                  .ok (⟨captures, capacity.toNat⟩, finish)

/-- The size of the capture blocks on top of `total`. -/
def captureSizes : List CapturePayloadView → ℕ → Except Fault ℕ
  | [], total => .ok total
  | view :: views, total =>
      withStatus (-1) (capturePayloadSize view defaultFlags) >>= fun size =>
        if 2 ^ 32 - 1 - 12 < size ∨ 2 ^ 64 - 1 - size - 12 < total then .error (.status (-1))
        else captureSizes views (total + (size + 12))

/-- The size query of a collection. -/
def collectionSize (captures : List CapturePayloadView) (captureCapacity : ℕ) :
    Except Fault ℕ :=
  if 80 < captures.length ∨ captureCapacity < captures.length then .error (.status (-1))
  else captureSizes captures 24

/-- The capture blocks, the first one being number `i`. -/
def serializeCaptures : List CapturePayloadView → ℕ → Except Fault (List UInt8)
  | [], _ => .ok []
  | view :: views, i =>
      capturePayloadSize view defaultFlags >>= fun size =>
        capturePayload view defaultFlags size >>= fun payload =>
          serializeCaptures views (i + 1) >>= fun rest =>
            .ok (frameBlock (1540162048 + i) payload ++ rest)

/-- The payload of the collection header. -/
def collectionHeader (count captureCapacity : ℕ) : List UInt8 :=
  storeLe32 0x0ce1 ++ (storeLe32 count ++ storeLe32 captureCapacity)

/-- The writer of a collection, into a buffer of `capacity` bytes. -/
def collectionSerializeDefault (captures : List CapturePayloadView) (captureCapacity : ℕ)
    (capacity : ℕ) : Except Fault (List UInt8) :=
  collectionSize captures captureCapacity >>= fun total =>
    if capacity < total then .error (.status (-1))
    else
      withStatus (-1) (serializeCaptures captures 0) >>= fun blocks =>
        .ok (frameBlock 1540161792 (collectionHeader captures.length captureCapacity) ++ blocks)

/-! ### Retained graphs -/

/-- The graph of a payload and its number of pending records. -/
def retainedGraphLoadPayload (data : List UInt8) : Except Fault (RetainedGraph × UInt16) :=
  if data.length < 12 then .error (.status (-1))
  else
    let h := loadWords16 6 data
    let used := h.getD 0 0
    let capacity := h.getD 1 0
    if used = 0 then .error (.status 1)
    else if capacity.toNat < 2 ∨ capacity.toNat < used.toNat ∨ 80 < used.toNat ∨
        10 < (h.getD 5 0).toNat then .error (.status (-1))
    else
      let edges := edgeCount capacity.toNat
      if data.length ≠ 12 + 2 * (capacity.toNat + edges) then .error (.status (-1))
      else
        let words := loadWords16 (capacity.toNat + edges) (data.drop 12)
        .ok ({
          scores := some (words.drop capacity.toNat)
          order := some (words.take capacity.toNat)
          ages := none
          scoreCount := edges
          ageCount := 0
          used := used
          capacity := capacity
          protectedCount := h.getD 2 0
          protectedLimit := h.getD 3 0
          ageThreshold := h.getD 4 0 }, h.getD 5 0)

/-- The size query of a graph. -/
def retainedGraphSize (graph : RetainedGraph) : Except Fault ℕ :=
  if graph.capacity.toNat < 2 ∨ graph.capacity.toNat < graph.used.toNat ∨ graph.order = none ∨
      graph.scores = none ∨ graph.scoreCount < edgeCount graph.capacity.toNat then
    .error (.status (-1))
  else .ok (2 * (6 + graph.capacity.toNat + edgeCount graph.capacity.toNat))

/-- The six words in front of order and scores. -/
def graphHeader (graph : RetainedGraph) (pendingCount : UInt16) : List UInt16 :=
  [graph.used, graph.capacity, graph.protectedCount, graph.protectedLimit, graph.ageThreshold,
    pendingCount]

/-- The writer of a graph, into a buffer of `capacity` bytes. -/
def retainedGraphPayload (graph : RetainedGraph) (pendingCount : UInt16) (capacity : ℕ) :
    Except Fault (List UInt8) :=
  retainedGraphSize graph >>= fun size =>
    if capacity < size then .error (.status (-1))
    else
      readArray graph.order graph.capacity.toNat >>= fun order =>
        readArray graph.scores (edgeCount graph.capacity.toNat) >>= fun scores =>
          .ok (storeWords16 (graphHeader graph pendingCount ++ (order ++ scores)))

/-- Replace the ages of a graph by those of a payload. -/
def retainedGraphLoadAges (graph : RetainedGraph) (data : List UInt8) (retentionCapacity : UInt8) :
    Except Fault RetainedGraph :=
  if retentionCapacity = 0 ∨ data.length ≠ 2 * retentionCapacity.toNat then .error (.status (-1))
  else
    .ok { graph with
      ages := some (loadWords16 retentionCapacity.toNat data)
      ageCount := retentionCapacity.toNat }

/-! ### Templates -/

/-- The metadata block: the metadata word, the number of captures, and where the block ends. -/
def loadMetadata (data : List UInt8) : Except Fault (UInt16 × UInt16 × ℕ) :=
  checkedBlock data 305398016 >>= fun length =>
    if length ≠ 16 then .error (.status 140)
    else
      loadLe16 data 8 >>= fun metadata =>
        loadLe16 data 10 >>= fun count =>
          if count = 0 then .error (.status 140) else .ok (metadata, count, length)

/-- The graph block: a graph of `count` captures, and where the block ends. -/
def loadGraphBlock (data : List UInt8) (count : UInt16) : Except Fault (RetainedGraph × ℕ) :=
  checkedBlock data 305398528 >>= fun length =>
    withStatus 140 (retainedGraphLoadPayload (blockPayload data length)) >>=
      fun (graph, pending) =>
        if pending ≠ 0 ∨ graph.used ≠ count then .error (.status 140) else .ok (graph, length)

/-- The block of the ages, which has to be the last one. -/
def loadAgeBlock (data : List UInt8) (graph : RetainedGraph) (retentionCapacity : UInt8) :
    Except Fault RetainedGraph :=
  checkedBlock data 305398784 >>= fun length =>
    if length ≠ data.length then .error (.status 140)
    else withStatus 140 (retainedGraphLoadAges graph (blockPayload data length) retentionCapacity)

/-- The blocks of a template behind its header. -/
def loadTemplateBlocks (data : List UInt8) (retentionCapacity : UInt8) (fresh : ℕ) :
    Except Fault LoadedTemplate :=
  loadMetadata data >>= fun (metadata, count, length) =>
    let data := data.drop length
    loadGraphBlock data count >>= fun (graph, length) =>
      let data := data.drop length
      collectionLoadDefault data fresh >>= fun (collection, length) =>
        let data := data.drop length
        if collection.captures.length ≠ count.toNat then .error (.status 140)
        else
          loadAgeBlock data graph retentionCapacity >>= fun graph =>
            .ok ⟨graph, collection, metadata⟩

def templateLoadDefault (data : List UInt8) (retentionCapacity : UInt8) (fresh : ℕ) :
    Except Fault LoadedTemplate :=
  if retentionCapacity = 0 then .error (.status 140)
  else
    withStatus 140 (templateValidate data) >>= fun (version, _) =>
      if version ≠ 0x001a0000#32 then .error (.status 140)
      else loadTemplateBlocks (data.drop 8) retentionCapacity fresh

/-- The size query of a template. -/
def templateSize (graph : RetainedGraph) (captures : List CapturePayloadView)
    (captureCapacity : ℕ) (retentionCapacity : UInt8) : Except Fault ℕ :=
  if captures.length = 0 ∨ graph.used.toNat ≠ captures.length ∨ retentionCapacity = 0 ∨
      graph.ages = none ∨ graph.ageCount < retentionCapacity.toNat then .error (.status (-1))
  else
    withStatus (-1) (retainedGraphSize graph) >>= fun graphSize =>
      withStatus (-1) (collectionSize captures captureCapacity) >>= fun collectionSize =>
        let total := 24 + 12 + graphSize + collectionSize + 12 + 2 * retentionCapacity.toNat
        if 2 ^ 31 - 1 < total then .error (.status (-1)) else .ok total

/-- The writer of a template, into a buffer of `capacity` bytes. -/
def templateSerializeDefault (graph : RetainedGraph) (captures : List CapturePayloadView)
    (captureCapacity : ℕ) (metadata : UInt16) (retentionCapacity : UInt8) (capacity : ℕ) :
    Except Fault (List UInt8) :=
  templateSize graph captures captureCapacity retentionCapacity >>= fun total =>
    if capacity < total then .error (.status (-1))
    else
      withStatus (-1) (retainedGraphSize graph) >>= fun graphSize =>
        withStatus (-1) (retainedGraphPayload graph 0 graphSize) >>= fun graphBytes =>
          withStatus (-1) (collectionSize captures captureCapacity) >>= fun collectionSize =>
            withStatus (-1)
                (collectionSerializeDefault captures captureCapacity collectionSize) >>=
              fun collectionBytes =>
                readArray graph.ages retentionCapacity.toNat >>= fun ages =>
                  .ok ([26, 0, 0, 0] ++ (storeLe32 total ++
                    (frameBlock 305398016
                        (storeLe16 metadata ++ storeLe16 (UInt16.ofNat captures.length)) ++
                      (frameBlock 305398528 graphBytes ++
                        (collectionBytes ++ frameBlock 305398784 (storeWords16 ages))))))

end Fpc
