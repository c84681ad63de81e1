/-
**The loader in memory.**

The loader once more, as it works on memory: it reads one byte string at absolute positions and
writes into allocations at computed positions.  Every access is checked; one that leaves the string
or the allocation is the fault `outOfBounds`, which the source would not notice.

All arrays of a capture share one allocation, numbers first and bytes behind them.

Main definitions:

* `Fpc.storeAt`, `Fpc.setAt` — a store into an allocation, and into an array;
* `Fpc.StorageLayout`, `Fpc.storageLayout` — where the arrays of a capture are;
* `Fpc.captureLoadAt`, `Fpc.collectionLoadAt`, `Fpc.graphLoadAt`, `Fpc.agesLoadAt` — the nested
  loaders;
* `Fpc.templateValidateAt`, `Fpc.templateLoadAt` — the framing check and the loader.
-/

import FpcReader.Native.Template

set_option relaxedAutoImplicit false
set_option autoImplicit false

namespace Fpc

open Bytes

/-! ### Accesses -/

/-- The `n` bytes at a position. -/
def readAt (data : List UInt8) (offset n : ℕ) : Except Fault (List UInt8) :=
  if offset + n ≤ data.length then .ok ((data.drop offset).take n) else .error .outOfBounds

/-- Store bytes into an allocation. -/
def storeAt (storage : List UInt8) (offset : ℕ) (bytes : List UInt8) :
    Except Fault (List UInt8) :=
  if offset + bytes.length ≤ storage.length then
    .ok (storage.take offset ++ (bytes ++ storage.drop (offset + bytes.length)))
  else .error .outOfBounds

/-- Store an element of an array. -/
def setAt {α : Type} (array : List α) (i : ℕ) (a : α) : Except Fault (List α) :=
  if i < array.length then .ok (array.set i a) else .error .outOfBounds

/-- The loop of a `for` from zero. -/
def forRange {σ : Type} (n : ℕ) (step : σ → ℕ → Except Fault σ) (start : σ) : Except Fault σ :=
  (List.range n).foldlM step start

/-! ### Storage -/

/-- A part of an allocation: where it starts and how many bytes it takes. -/
structure Slot where
  offset : ℕ
  size : ℕ
  deriving DecidableEq, Repr

/-- The arrays of a capture in their allocation. -/
structure StorageLayout where
  fields : Slot
  extras : Slot
  coordinates : Slot
  scores : Slot
  angles : Slot
  compact : Slot
  descriptors : Slot
  membership : Slot
  allocation : ℕ
  deriving DecidableEq, Repr

/-- Words first, rounded up to four bytes, then the wide numbers, then the bytes. -/
def storageLayout (sizes : SectionSizes) (levels extra : ℕ) : StorageLayout :=
  let start := (2 * (levels * (5 + extra)) + 3) / 4 * 4
  let numeric := start + sizes.coordinates + (sizes.scores + sizes.angles)
  let descriptors := numeric + sizes.compact
  { fields := ⟨0, 10 * levels⟩
    extras := ⟨10 * levels, 2 * (extra * levels)⟩
    coordinates := ⟨start, sizes.coordinates⟩
    scores := ⟨start + sizes.coordinates, sizes.scores⟩
    angles := ⟨start + sizes.coordinates + sizes.scores, sizes.angles⟩
    compact := ⟨numeric, sizes.compact⟩
    descriptors := ⟨descriptors, sizes.descriptors⟩
    membership := ⟨descriptors + sizes.descriptors, sizes.membership⟩
    allocation := numeric + sizes.compact + sizes.descriptors + sizes.membership }

/-- The words of the levels: the first five of a level are its fields. -/
def storeLevels (data : List UInt8) (offset levels extra : ℕ) (storage : List UInt8) :
    Except Fault (List UInt8) :=
  forRange levels (fun storage l =>
    forRange (5 + extra) (fun storage j =>
      loadLe16 data (offset + 2 * (l * (5 + extra) + j)) >>= fun value =>
        storeAt storage
          (if j < 5 then 2 * (5 * l + j) else 10 * levels + 2 * (extra * l + (j - 5)))
          (storeLe16 value)) storage) storage

/-- Numbers of four bytes, copied one by one. -/
def storeNumbers (data : List UInt8) (offset : ℕ) (slot : Slot) (storage : List UInt8) :
    Except Fault (List UInt8) :=
  forRange (slot.size / 4) (fun storage i =>
    loadLe32 data (offset + 4 * i) >>= fun value =>
      storeAt storage (slot.offset + 4 * i) (storeLe32 value.toNat)) storage

/-- Bytes, copied at once unless there are none. -/
def copyBytes (data : List UInt8) (offset : ℕ) (slot : Slot) (storage : List UInt8) :
    Except Fault (List UInt8) :=
  if slot.size = 0 then .ok storage
  else readAt data offset slot.size >>= fun bytes => storeAt storage slot.offset bytes

/-- Fill the storage of a capture from the sections at `offset`. -/
def fillStorage (data : List UInt8) (offset : ℕ) (sizes : SectionSizes) (levels extra : ℕ)
    (layout : StorageLayout) (storage : List UInt8) : Except Fault (List UInt8) :=
  storeLevels data offset levels extra storage >>= fun storage =>
    let offset := offset + sizes.levels
    copyBytes data offset layout.compact storage >>= fun storage =>
      let offset := offset + sizes.compact
      storeNumbers data offset layout.coordinates storage >>= fun storage =>
        let offset := offset + sizes.coordinates
        storeNumbers data offset layout.scores storage >>= fun storage =>
          let offset := offset + sizes.scores
          storeNumbers data offset layout.angles storage >>= fun storage =>
            let offset := offset + sizes.angles
            copyBytes data offset layout.descriptors storage >>= fun storage =>
              copyBytes data (offset + sizes.descriptors) layout.membership storage

/-! ### Captures -/

/-- A capture in memory; one without arrays has no storage. -/
structure CaptureMemory where
  count : ℕ
  storage : Option (StorageLayout × List UInt8)
  deriving DecidableEq, Repr

/-- The loader of the capture in the `size` bytes from `start` on. -/
def captureLoadAt (data : List UInt8) (start size : ℕ) (flags : UInt16) :
    Except Fault CaptureMemory :=
  if size < 4 then .error (.status 140)
  else
    loadLe32 data start >>= fun count =>
      let n := count.toNat
      if 32767 < n then .error (.status 140)
      else if !hasFlag flags 0x400 then
        if size ≠ 4 then .error (.status 140) else .ok ⟨n, none⟩
      else if size < 8 then .error (.status 140)
      else
        readAt data (start + 4) 4 >>= fun header =>
          let levels := header.getD 2 0
          let extra := extraWords (header.getD 3 0)
          let sizes := sectionSizes n (header.getD 1 0) levels (header.getD 3 0) flags
          if size ≠ 8 + sizes.total then .error (.status 140)
          else
            loadLevelCounts (2 * (5 + extra)) data levels.toNat (start + 8) >>= fun sum =>
              -- the sum is a `uint32_t`
              if sum % 2 ^ 32 ≠ n then .error (.status 140)
              else
                let layout := storageLayout sizes levels.toNat extra
                let allocation := if layout.allocation = 0 then 1 else layout.allocation
                fillStorage data (start + 8) sizes levels.toNat extra layout
                    (List.replicate allocation 0) >>= fun storage =>
                  .ok ⟨n, some (layout, storage)⟩

/-! ### Collections -/

/-- The checked block at `start`, with `size` bytes left. -/
def checkedBlockAt (data : List UInt8) (start size tag : ℕ) : Except Fault ℕ :=
  if size < 12 then .error (.status 140)
  else
    loadLe32 data start >>= fun found =>
      if found.toNat ≠ tag then .error (.status 140)
      else
        loadLe32 data (start + 4) >>= fun bytes =>
          if bytes.toNat < 12 ∨ size < bytes.toNat then .error (.status 140)
          else
            readAt data start (bytes.toNat - 4) >>= fun body =>
              loadLe32 data (start + (bytes.toNat - 4)) >>= fun stored =>
                if crc32 body == stored then .ok bytes.toNat else .error (.status 140)

/-- The capture blocks from `offset` on, the next one being number `i`, into an array of captures;
the array and the end of the blocks are returned. -/
def loadCapturesAt (data : List UInt8) (start size : ℕ) :
    ℕ → ℕ → ℕ → List (Option CaptureMemory) → Except Fault (List (Option CaptureMemory) × ℕ)
  | 0, _, offset, captures => .ok (captures, offset)
  | count + 1, i, offset, captures =>
      checkedBlockAt data (start + offset) (size - offset) (1540162048 + i) >>= fun length =>
        captureLoadAt data (start + offset + 8) (length - 12) defaultFlags >>= fun capture =>
          setAt captures i (some capture) >>= fun captures =>
            loadCapturesAt data start size count (i + 1) (offset + length) captures

/-- The collection in the `size` bytes from `start` on: its captures, its capacity and the bytes it
takes. -/
def collectionLoadAt (data : List UInt8) (start size : ℕ) :
    Except Fault (List (Option CaptureMemory) × ℕ × ℕ) :=
  checkedBlockAt data start size 1540161792 >>= fun length =>
    if length ≠ 24 then .error (.status 140)
    else
      loadLe32 data (start + 8) >>= fun flags =>
        if flags.toNat ≠ 0x0ce1 then .error (.status 140)
        else
          loadLe32 data (start + 12) >>= fun count =>
            loadLe32 data (start + 16) >>= fun capacity =>
              if count.toNat = 0 ∨ 80 < count.toNat ∨ capacity.toNat < count.toNat ∨
                  65535 < capacity.toNat then .error (.status 140)
              else
                loadCapturesAt data start size count.toNat 0 24
                    (List.replicate count.toNat none) >>= fun (captures, finish) =>
                  .ok (captures, capacity.toNat, finish)

/-! ### Graphs -/

/-- The six words of a graph header. -/
def loadHeader (data : List UInt8) (start : ℕ) : Except Fault (List UInt16) :=
  forRange 6 (fun h i => loadLe16 data (start + 2 * i) >>= fun value => setAt h i value)
    (List.replicate 6 0)

/-- Order and scores of a graph, each an array of its own. -/
def loadEdges (data : List UInt8) (offset capacity edges : ℕ) :
    Except Fault (List UInt16 × List UInt16) :=
  forRange (capacity + edges) (fun (order, scores) i =>
    loadLe16 data (offset + 2 * i) >>= fun value =>
      if i < capacity then setAt order i value >>= fun order => .ok (order, scores)
      else setAt scores (i - capacity) value >>= fun scores => .ok (order, scores))
    (List.replicate capacity 0, List.replicate edges 0)

/-- The loader of the graph in the `size` bytes from `start` on. -/
def graphLoadAt (data : List UInt8) (start size : ℕ) : Except Fault (RetainedGraph × UInt16) :=
  if size < 12 then .error (.status (-1))
  else
    loadHeader data start >>= fun h =>
      let used := h.getD 0 0
      let capacity := h.getD 1 0
      if used = 0 then .error (.status 1)
      else if capacity.toNat < 2 ∨ capacity.toNat < used.toNat ∨ 80 < used.toNat ∨
          10 < (h.getD 5 0).toNat then .error (.status (-1))
      else
        let edges := edgeCount capacity.toNat
        if size ≠ 12 + 2 * (capacity.toNat + edges) then .error (.status (-1))
        else
          loadEdges data (start + 12) capacity.toNat edges >>= fun (order, scores) =>
            .ok ({
              scores := some scores
              order := some order
              ages := none
              scoreCount := edges
              ageCount := 0
              used := used
              capacity := capacity
              protectedCount := h.getD 2 0
              protectedLimit := h.getD 3 0
              ageThreshold := h.getD 4 0 }, h.getD 5 0)

/-- The loader of the ages in the `size` bytes from `start` on. -/
def agesLoadAt (graph : RetainedGraph) (data : List UInt8) (start size : ℕ)
    (retentionCapacity : UInt8) : Except Fault RetainedGraph :=
  if retentionCapacity = 0 ∨ size ≠ 2 * retentionCapacity.toNat then .error (.status (-1))
  else
    forRange retentionCapacity.toNat
        (fun ages i => loadLe16 data (start + 2 * i) >>= fun value => setAt ages i value)
        (List.replicate retentionCapacity.toNat 0) >>= fun ages =>
      .ok { graph with ages := some ages, ageCount := retentionCapacity.toNat }

/-! ### Templates -/

/-- The loop over the blocks, the next one at `offset`. -/
def validateBlocksAt (data : List UInt8) : ℕ → ℕ → ℕ → Except Fault ℕ
  | 0, offset, count => if data.length ≤ offset then .ok count else .error (.status (-1))
  | fuel + 1, offset, count =>
      if data.length ≤ offset then .ok count
      else if data.length - offset < 12 then .error (.status (-1))
      else
        loadLe32 data (offset + 4) >>= fun length =>
          if length.toNat < 12 ∨ data.length - offset < length.toNat then .error (.status (-1))
          else
            readAt data offset (length.toNat - 4) >>= fun body =>
              loadLe32 data (offset + (length.toNat - 4)) >>= fun stored =>
                if crc32 body == stored then
                  validateBlocksAt data fuel (offset + length.toNat) (count + 1)
                else .error (.status (-1))

/-- The framing check, with as much fuel as there are bytes. -/
def templateValidateAt (data : List UInt8) : Except Fault (BitVec 32 × ℕ) :=
  if data.length < 8 ∨ 2 ^ 31 - 1 < data.length then .error (.status (-1))
  else
    loadLe32 data 4 >>= fun size =>
      if size.toNat ≠ data.length then .error (.status (-1))
      else
        validateBlocksAt data data.length 8 0 >>= fun blocks =>
          loadLe16 data 0 >>= fun major =>
            loadLe16 data 2 >>= fun minor =>
              .ok (major.toBitVec.setWidth 32 <<< 16 ||| minor.toBitVec.setWidth 32, blocks)

/-- A template in memory. -/
structure TemplateMemory where
  graph : RetainedGraph
  captures : List (Option CaptureMemory)
  capacity : ℕ
  metadata : UInt16
  deriving DecidableEq, Repr

/-- The metadata block at `start`. -/
def metadataLoadAt (data : List UInt8) (start : ℕ) : Except Fault (UInt16 × UInt16 × ℕ) :=
  checkedBlockAt data start (data.length - start) 305398016 >>= fun length =>
    if length ≠ 16 then .error (.status 140)
    else
      loadLe16 data (start + 8) >>= fun metadata =>
        loadLe16 data (start + 10) >>= fun count =>
          if count = 0 then .error (.status 140) else .ok (metadata, count, length)

/-- The graph block at `start`. -/
def graphBlockAt (data : List UInt8) (start : ℕ) (count : UInt16) :
    Except Fault (RetainedGraph × ℕ) :=
  checkedBlockAt data start (data.length - start) 305398528 >>= fun length =>
    withStatus 140 (graphLoadAt data (start + 8) (length - 12)) >>= fun (graph, pending) =>
      if pending ≠ 0 ∨ graph.used ≠ count then .error (.status 140) else .ok (graph, length)

/-- The age block at `start`, which has to be the last one. -/
def ageBlockAt (data : List UInt8) (start : ℕ) (graph : RetainedGraph)
    (retentionCapacity : UInt8) : Except Fault RetainedGraph :=
  checkedBlockAt data start (data.length - start) 305398784 >>= fun length =>
    if start + length ≠ data.length then .error (.status 140)
    else
      withStatus 140 (agesLoadAt graph data (start + 8) (length - 12) retentionCapacity)

def templateLoadAt (data : List UInt8) (retentionCapacity : UInt8) : Except Fault TemplateMemory :=
  if retentionCapacity = 0 then .error (.status 140)
  else
    withStatus 140 (templateValidateAt data) >>= fun (version, _) =>
      if version ≠ 0x001a0000#32 then .error (.status 140)
      else
        metadataLoadAt data 8 >>= fun (metadata, count, length) =>
          let offset := 8 + length
          graphBlockAt data offset count >>= fun (graph, length) =>
            let offset := offset + length
            collectionLoadAt data offset (data.length - offset) >>=
              fun (captures, capacity, consumed) =>
                let offset := offset + consumed
                if captures.length ≠ count.toNat then .error (.status 140)
                else
                  ageBlockAt data offset graph retentionCapacity >>= fun graph =>
                    .ok ⟨graph, captures, capacity, metadata⟩

end Fpc
