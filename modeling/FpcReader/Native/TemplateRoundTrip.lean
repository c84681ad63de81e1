/-
**Stored templates load back.**

The writer and the loader of a template are inverse on every template whose arrays have the lengths
their counts announce: the writer fills exactly the announced size, and the loader gives back the
graph, the metadata, the capacity and every capture, each capture with the arrays its flags select.

Main definitions:

* `Fpc.RetainedGraph.Fits`, `Fpc.TemplateFits` — arrays of the announced lengths.

Main results:

* `Fpc.retainedGraphLoadPayload_graphBytes`, `Fpc.collectionLoadDefault_collectionBytes` — the
  round trips of the parts;
* `Fpc.templateSerializeDefault_eq`, `Fpc.templateLoadDefault_templateBytes` — **the round trip of
  a template**.
-/

import FpcReader.Native.Template

set_option relaxedAutoImplicit false
set_option autoImplicit false

namespace Fpc

open Bytes Fallible

@[simp]
theorem withStatus_ok {α : Type} (code : ℤ) (a : α) :
    withStatus code (.ok a : Except Fault α) = .ok a :=
  rfl

/-- The payload of a written block. -/
theorem blockPayload_frameBlock (tag : ℕ) (payload rest : List UInt8) :
    blockPayload (frameBlock tag payload ++ rest) (payload.length + 12) = payload := by
  have hdrop : (frameBlock tag payload ++ rest).drop 8 =
      payload ++ (storeLe32 (crc32 (storeLe32 tag ++
        (storeLe32 (payload.length + 12) ++ payload))).toNat ++ rest) := by
    simp only [frameBlock, List.append_assoc]
    rw [← List.append_assoc]
    exact List.drop_left' rfl
  rw [blockPayload, hdrop, Nat.add_sub_cancel]
  exact List.take_left' rfl

/-- What follows a written block. -/
theorem drop_frameBlock (tag : ℕ) (payload rest : List UInt8) :
    (frameBlock tag payload ++ rest).drop (payload.length + 12) = rest :=
  List.drop_left' (frameBlock_length tag payload)

/-! ### Graphs -/

/-- Order, scores and ages have the lengths announced for them. -/
structure RetainedGraph.Fits (graph : RetainedGraph) (retentionCapacity : UInt8) : Prop where
  used_pos : 0 < graph.used.toNat
  used_le : graph.used.toNat ≤ 80
  used_le_capacity : graph.used.toNat ≤ graph.capacity.toNat
  capacity : 2 ≤ graph.capacity.toNat
  order : ∃ order, graph.order = some order ∧ order.length = graph.capacity.toNat
  scores : ∃ scores, graph.scores = some scores ∧
    scores.length = edgeCount graph.capacity.toNat
  scoreCount : graph.scoreCount = edgeCount graph.capacity.toNat
  ages : ∃ ages, graph.ages = some ages ∧ ages.length = retentionCapacity.toNat
  ageCount : graph.ageCount = retentionCapacity.toNat

/-- The bytes of a graph block. -/
def graphBytes (graph : RetainedGraph) : List UInt8 :=
  storeWords16 (graphHeader graph 0 ++ (graph.order.getD [] ++ graph.scores.getD []))

section Graph

variable {graph : RetainedGraph} {retentionCapacity : UInt8}

theorem RetainedGraph.Fits.order_length (h : graph.Fits retentionCapacity) :
    (graph.order.getD []).length = graph.capacity.toNat := by
  obtain ⟨order, horder, hlen⟩ := h.order
  rw [horder]
  exact hlen

theorem RetainedGraph.Fits.scores_length (h : graph.Fits retentionCapacity) :
    (graph.scores.getD []).length = edgeCount graph.capacity.toNat := by
  obtain ⟨scores, hscores, hlen⟩ := h.scores
  rw [hscores]
  exact hlen

theorem RetainedGraph.Fits.ages_length (h : graph.Fits retentionCapacity) :
    (graph.ages.getD []).length = retentionCapacity.toNat := by
  obtain ⟨ages, hages, hlen⟩ := h.ages
  rw [hages]
  exact hlen

theorem graphBytes_length (h : graph.Fits retentionCapacity) :
    (graphBytes graph).length =
      2 * (6 + graph.capacity.toNat + edgeCount graph.capacity.toNat) := by
  rw [graphBytes, storeWords16_length, List.length_append, List.length_append, h.order_length,
    h.scores_length, graphHeader]
  simp only [List.length_cons, List.length_nil]
  ring

theorem retainedGraphSize_eq (h : graph.Fits retentionCapacity) :
    retainedGraphSize graph =
      .ok (2 * (6 + graph.capacity.toNat + edgeCount graph.capacity.toNat)) := by
  obtain ⟨order, horder, -⟩ := h.order
  obtain ⟨scores, hscores, -⟩ := h.scores
  have hcapacity := h.capacity
  have hused := h.used_le_capacity
  rw [retainedGraphSize, if_neg]
  rw [horder, hscores, h.scoreCount]
  simp only [reduceCtorEq, lt_self_iff_false, or_false]
  omega

theorem retainedGraphPayload_eq (h : graph.Fits retentionCapacity) {capacity : ℕ}
    (hcap : 2 * (6 + graph.capacity.toNat + edgeCount graph.capacity.toNat) ≤ capacity) :
    retainedGraphPayload graph 0 capacity = .ok (graphBytes graph) := by
  have horder : readArray graph.order graph.capacity.toNat = .ok (graph.order.getD []) :=
    readArray_part true (fun _ => h.order_length) rfl
  have hscores : readArray graph.scores (edgeCount graph.capacity.toNat) =
      .ok (graph.scores.getD []) :=
    readArray_part true (fun _ => h.scores_length) rfl
  rw [retainedGraphPayload, retainedGraphSize_eq h, ok_bind, if_neg (not_lt.2 hcap), horder,
    ok_bind, hscores, ok_bind]
  rfl

/-- **A written graph loads back**, its ages aside. -/
theorem retainedGraphLoadPayload_graphBytes (h : graph.Fits retentionCapacity) :
    retainedGraphLoadPayload (graphBytes graph) =
      .ok ({ graph with ages := none, ageCount := 0 }, 0) := by
  obtain ⟨order, horder, holen⟩ := h.order
  obtain ⟨scores, hscores, hslen⟩ := h.scores
  have hlen := graphBytes_length h
  have hbytes : graphBytes graph =
      storeWords16 (graphHeader graph 0) ++ storeWords16 (order ++ scores) := by
    rw [graphBytes, horder, hscores, storeWords16_append]
    rfl
  have hheader : loadWords16 6 (graphBytes graph) = graphHeader graph 0 := by
    rw [hbytes, loadWords16_append (by rfl)]
  have hdrop : (graphBytes graph).drop 12 = storeWords16 (order ++ scores) := by
    rw [hbytes]
    exact List.drop_left' rfl
  have hwords : loadWords16 (graph.capacity.toNat + edgeCount graph.capacity.toNat)
      (storeWords16 (order ++ scores)) = order ++ scores :=
    loadWords16_storeWords16 (by rw [List.length_append, holen, hslen])
  have hcapacity := h.capacity
  have hused := h.used_le_capacity
  have husedpos := h.used_pos
  have hle := h.used_le
  have hne : graph.used ≠ 0 := by
    intro h0
    rw [h0] at husedpos
    exact absurd husedpos (by decide)
  rw [retainedGraphLoadPayload, if_neg (by omega)]
  simp only [hheader, graphHeader, List.getD_cons_zero, List.getD_cons_succ]
  rw [if_neg hne, if_neg (by
    have hpending : ¬10 < (0 : UInt16).toNat := by decide
    omega), if_neg (by omega), hdrop, hwords, List.take_left' holen, List.drop_left' holen,
    ← horder, ← hscores, ← h.scoreCount]

theorem retainedGraphLoadAges_eq (h : graph.Fits retentionCapacity) (hr : retentionCapacity ≠ 0) :
    retainedGraphLoadAges { graph with ages := none, ageCount := 0 }
      (storeWords16 (graph.ages.getD [])) retentionCapacity = .ok graph := by
  have hages : some (graph.ages.getD []) = graph.ages := by
    obtain ⟨ages, hages, -⟩ := h.ages
    rw [hages]
    rfl
  rw [retainedGraphLoadAges, if_neg (by
    rw [storeWords16_length, h.ages_length]
    simpa using hr), loadWords16_storeWords16 h.ages_length, ← h.ageCount, hages]

end Graph

/-! ### Collections -/

/-- The blocks of the captures, the first one being number `i`. -/
def captureBlocks : List CapturePayloadView → ℕ → List (ℕ × List UInt8)
  | [], _ => []
  | view :: views, i =>
      (1540162048 + i, payloadBytes view defaultFlags) :: captureBlocks views (i + 1)

/-- The blocks, one after the other. -/
def frameBlocks (blocks : List (ℕ × List UInt8)) : List UInt8 :=
  blocks.flatMap fun block => frameBlock block.1 block.2

/-- What the captures are loaded back as. -/
def loadedCaptures (fresh : ℕ) : List CapturePayloadView → ℕ → List LoadedCapture
  | [], _ => []
  | view :: views, i =>
      ⟨view.selected defaultFlags, some (fresh + i)⟩ :: loadedCaptures fresh views (i + 1)

theorem loadedCaptures_length (fresh : ℕ) (views : List CapturePayloadView) (i : ℕ) :
    (loadedCaptures fresh views i).length = views.length := by
  induction views generalizing i with
  | nil => rfl
  | cons view views ih => rw [loadedCaptures, List.length_cons, ih, List.length_cons]

theorem loadedCaptures_views (fresh : ℕ) (views : List CapturePayloadView) (i : ℕ) :
    (loadedCaptures fresh views i).map LoadedCapture.view =
      views.map fun view => view.selected defaultFlags := by
  induction views generalizing i with
  | nil => rfl
  | cons view views ih => rw [loadedCaptures, List.map_cons, List.map_cons, ih]

/-- The size of all capture payloads with their framing. -/
def captureBytes (views : List CapturePayloadView) : ℕ :=
  (views.map fun view => 8 + (view.sizes defaultFlags).total + 12).sum

/-- The sections of a stored capture: levels, packed coordinates, descriptors and membership. -/
theorem default_sizes (view : CapturePayloadView) :
    view.sizes defaultFlags =
      ⟨view.levels.toNat * (10 + 2 * extraWords view.tableWidth), 2 * view.count, 0, 0, 0,
        view.count * view.descriptorBytes.toNat, (view.count + 7) / 8⟩ := by
  have hcompact : hasFlag defaultFlags 0x20 = true := rfl
  have hscores : hasFlag defaultFlags 4 = false := rfl
  have hangles : hasFlag defaultFlags 2 = false := rfl
  have hdescriptors : hasFlag defaultFlags 0x800 = true := rfl
  have hmembership : hasFlag defaultFlags 0x80 = true := rfl
  simp only [CapturePayloadView.sizes, sectionSizes, hcompact, hscores, hangles, hdescriptors,
    hmembership, if_true, Bool.false_eq_true, if_false]

/-- A payload is well below the limits of a block. -/
theorem payload_size_lt {view : CapturePayloadView} (h : view.count ≤ 32767) :
    8 + (view.sizes defaultFlags).total + 12 < 2 ^ 24 := by
  have hbytes := view.descriptorBytes.toNat_lt
  have hlevels := view.levels.toNat_lt
  have hextra : extraWords view.tableWidth ≤ 255 := by
    have := view.tableWidth.toNat_lt
    unfold extraWords
    split_ifs <;> omega
  have hlevelBytes : view.levels.toNat * (10 + 2 * extraWords view.tableWidth) ≤ 255 * 520 :=
    Nat.mul_le_mul (by omega) (by omega)
  have hdescriptors : view.count * view.descriptorBytes.toNat ≤ 32767 * 255 :=
    Nat.mul_le_mul h (by omega)
  rw [default_sizes]
  simp only [SectionSizes.total]
  omega

theorem frameBlocks_captureBlocks_length {views : List CapturePayloadView}
    (h : ∀ view ∈ views, view.Fits defaultFlags) (i : ℕ) :
    (frameBlocks (captureBlocks views i)).length = captureBytes views := by
  induction views generalizing i with
  | nil => rfl
  | cons view views ih =>
      rw [captureBlocks, frameBlocks, List.flatMap_cons, List.length_append, frameBlock_length,
        payloadBytes_length (h view (by simp)), captureBytes, List.map_cons, List.sum_cons]
      have := ih (fun v hv => h v (by simp [hv])) (i + 1)
      rw [frameBlocks, captureBytes] at this
      rw [this]

theorem hasFlag_default : hasFlag defaultFlags 0x400 = true := rfl

/-- The size query of the capture blocks. -/
theorem captureSizes_eq {views : List CapturePayloadView}
    (h : ∀ view ∈ views, view.Fits defaultFlags) {total : ℕ}
    (htotal : total + 2 ^ 24 * views.length < 2 ^ 63) :
    captureSizes views total = .ok (total + captureBytes views) := by
  induction views generalizing total with
  | nil => rfl
  | cons view views ih =>
      have hview := h view (by simp)
      have hsize := payload_size_lt hview.count
      rw [List.length_cons] at htotal
      rw [captureSizes, capturePayloadSize_eq hview hasFlag_default, withStatus_ok, ok_bind,
        if_neg (by omega), ih (fun v hv => h v (by simp [hv])) (by omega), captureBytes,
        captureBytes, List.map_cons, List.sum_cons, Nat.add_assoc]

/-- The writer of the capture blocks. -/
theorem serializeCaptures_eq {views : List CapturePayloadView}
    (h : ∀ view ∈ views, view.Fits defaultFlags) (i : ℕ) :
    serializeCaptures views i = .ok (frameBlocks (captureBlocks views i)) := by
  induction views generalizing i with
  | nil => rfl
  | cons view views ih =>
      have hview := h view (by simp)
      rw [serializeCaptures, capturePayloadSize_eq hview hasFlag_default, ok_bind,
        capturePayload_eq hview hasFlag_default le_rfl, ok_bind,
        ih (fun v hv => h v (by simp [hv])), ok_bind]
      rfl

/-- The loop over written capture blocks loads them all. -/
theorem loadCaptures_frameBlocks {views : List CapturePayloadView}
    (h : ∀ view ∈ views, view.Fits defaultFlags) {i : ℕ} (hi : i + views.length ≤ 80)
    (fresh : ℕ) (pre rest : List UInt8) :
    loadCaptures (pre ++ (frameBlocks (captureBlocks views i) ++ rest)) fresh views.length i
        pre.length =
      .ok (loadedCaptures fresh views i, pre.length + captureBytes views) := by
  induction views generalizing i pre with
  | nil => rfl
  | cons view views ih =>
      have hview := h view (by simp)
      have hsize := payload_size_lt hview.count
      have hlen := payloadBytes_length hview
      rw [List.length_cons] at hi
      set block := frameBlock (1540162048 + i) (payloadBytes view defaultFlags) with hblock
      set others := frameBlocks (captureBlocks views (i + 1)) with hothers
      have hcat : frameBlocks (captureBlocks (view :: views) i) = block ++ others := by
        rw [captureBlocks, frameBlocks, List.flatMap_cons]
        rfl
      have hdrop : (pre ++ (block ++ others ++ rest)).drop pre.length =
          block ++ (others ++ rest) := by
        rw [List.drop_left, List.append_assoc]
      have hchecked : checkedBlock (block ++ (others ++ rest)) (1540162048 + i) =
          .ok ((payloadBytes view defaultFlags).length + 12) :=
        checkedBlock_frameBlock _ _ (by omega) (by omega)
      have hnext := ih (fun v hv => h v (by simp [hv])) (i := i + 1) (by omega) (pre ++ block)
      have hoffset : (pre ++ block).length =
          pre.length + ((payloadBytes view defaultFlags).length + 12) := by
        rw [List.length_append, hblock, frameBlock_length]
      have hsplit : pre ++ (block ++ others ++ rest) = pre ++ block ++ (others ++ rest) := by
        simp only [List.append_assoc]
      rw [hcat, List.length_cons, loadCaptures, hdrop, hchecked, ok_bind, hblock,
        blockPayload_frameBlock, captureLoadPayload_payloadBytes hview hasFlag_default, ok_bind,
        ← hblock, hsplit, ← hoffset, hnext, ok_bind]
      simp only [loadedCaptures, captureBytes, List.map_cons, List.sum_cons, hoffset, hlen,
        Nat.add_assoc]

/-- The bytes of a collection. -/
def collectionBytes (views : List CapturePayloadView) (captureCapacity : ℕ) : List UInt8 :=
  frameBlock 1540161792 (collectionHeader views.length captureCapacity) ++
    frameBlocks (captureBlocks views 0)

section Collection

variable {views : List CapturePayloadView} {captureCapacity : ℕ}

theorem collectionBytes_length (h : ∀ view ∈ views, view.Fits defaultFlags) :
    (collectionBytes views captureCapacity).length = 24 + captureBytes views := by
  rw [collectionBytes, List.length_append, frameBlock_length,
    frameBlocks_captureBlocks_length h]
  simp only [collectionHeader, List.length_append, storeLe32_length]

theorem collectionSize_eq (h : ∀ view ∈ views, view.Fits defaultFlags) (hcount : views.length ≤ 80)
    (hcap : views.length ≤ captureCapacity) :
    collectionSize views captureCapacity = .ok (24 + captureBytes views) := by
  rw [collectionSize, if_neg (by omega), captureSizes_eq h (by omega)]

theorem collectionSerializeDefault_eq (h : ∀ view ∈ views, view.Fits defaultFlags)
    (hcount : views.length ≤ 80) (hcap : views.length ≤ captureCapacity) {capacity : ℕ}
    (hroom : 24 + captureBytes views ≤ capacity) :
    collectionSerializeDefault views captureCapacity capacity =
      .ok (collectionBytes views captureCapacity) := by
  rw [collectionSerializeDefault, collectionSize_eq h hcount hcap, ok_bind,
    if_neg (not_lt.2 hroom), serializeCaptures_eq h, withStatus_ok, ok_bind]
  rfl

/-- **A written collection loads back**, whatever follows it. -/
theorem collectionLoadDefault_collectionBytes (h : ∀ view ∈ views, view.Fits defaultFlags)
    (hpos : 0 < views.length) (hcount : views.length ≤ 80) (hcap : views.length ≤ captureCapacity)
    (hcapacity : captureCapacity ≤ 65535) (fresh : ℕ) (rest : List UInt8) :
    collectionLoadDefault (collectionBytes views captureCapacity ++ rest) fresh =
      .ok (⟨loadedCaptures fresh views 0, captureCapacity⟩, 24 + captureBytes views) := by
  set header := collectionHeader views.length captureCapacity with hheader
  have hlen : header.length = 12 := by
    simp only [hheader, collectionHeader, List.length_append, storeLe32_length]
  set data := collectionBytes views captureCapacity ++ rest with hdata
  have hcat : data = frameBlock 1540161792 header ++
      (frameBlocks (captureBlocks views 0) ++ rest) := by
    rw [hdata, collectionBytes, List.append_assoc]
  have hchecked : checkedBlock data 1540161792 = .ok 24 := by
    rw [hcat, checkedBlock_frameBlock _ _ (by norm_num) (by omega), hlen]
  have hwords : data = (storeLe32 1540161792 ++ storeLe32 24) ++ (storeLe32 0x0ce1 ++
      (storeLe32 views.length ++ (storeLe32 captureCapacity ++ (storeLe32 (crc32
        (storeLe32 1540161792 ++ (storeLe32 24 ++ header))).toNat ++
          (frameBlocks (captureBlocks views 0) ++ rest))))) := by
    rw [hcat, frameBlock, hlen, hheader, collectionHeader]
    simp only [List.append_assoc]
  have hflags : loadLe32 data 8 = .ok (BitVec.ofNat 32 0x0ce1) := by
    rw [hwords]
    exact loadLe32_append _ _ (by norm_num)
  have hload : loadLe32 data 12 = .ok (BitVec.ofNat 32 views.length) := by
    rw [hwords, ← List.append_assoc]
    exact loadLe32_append (storeLe32 1540161792 ++ storeLe32 24 ++ storeLe32 0x0ce1) _ (by omega)
  have hloadcap : loadLe32 data 16 = .ok (BitVec.ofNat 32 captureCapacity) := by
    rw [hwords, ← List.append_assoc, ← List.append_assoc]
    exact loadLe32_append
      (storeLe32 1540161792 ++ storeLe32 24 ++ storeLe32 0x0ce1 ++ storeLe32 views.length) _
      (by omega)
  have hn : (BitVec.ofNat 32 views.length).toNat = views.length := by
    rw [BitVec.toNat_ofNat, Nat.mod_eq_of_lt (by omega)]
  have hc : (BitVec.ofNat 32 captureCapacity).toNat = captureCapacity := by
    rw [BitVec.toNat_ofNat, Nat.mod_eq_of_lt (by omega)]
  have hblocks := loadCaptures_frameBlocks h (i := 0) (by omega) fresh
    (frameBlock 1540161792 header) rest
  rw [frameBlock_length, hlen, ← hcat] at hblocks
  rw [collectionLoadDefault, hchecked, ok_bind, if_neg (by norm_num), hflags, ok_bind,
    if_neg (by decide), hload, ok_bind, hloadcap, ok_bind, hn, hc, if_neg (by omega), hblocks,
    ok_bind]

end Collection

/-! ### Whole templates -/

/-- The bytes a template takes. -/
def templateTotal (graph : RetainedGraph) (views : List CapturePayloadView)
    (retentionCapacity : UInt8) : ℕ :=
  24 + 12 + 2 * (6 + graph.capacity.toNat + edgeCount graph.capacity.toNat) +
    (24 + captureBytes views) + 12 + 2 * retentionCapacity.toNat

/-- Graph and captures have the announced lengths, belong together and stay within the limits of
the format. -/
structure TemplateFits (graph : RetainedGraph) (views : List CapturePayloadView)
    (captureCapacity : ℕ) (retentionCapacity : UInt8) : Prop where
  graphFits : graph.Fits retentionCapacity
  viewsFit : ∀ view ∈ views, view.Fits defaultFlags
  retention : retentionCapacity ≠ 0
  used : graph.used.toNat = views.length
  count_le : views.length ≤ captureCapacity
  capacity : captureCapacity ≤ 65535
  total : templateTotal graph views retentionCapacity < 2 ^ 31

/-- The blocks of a template. -/
def templateBlocks (graph : RetainedGraph) (views : List CapturePayloadView)
    (captureCapacity : ℕ) (metadata : UInt16) : List UInt8 :=
  frameBlock 305398016 (storeLe16 metadata ++ storeLe16 (UInt16.ofNat views.length)) ++
    (frameBlock 305398528 (graphBytes graph) ++
      (collectionBytes views captureCapacity ++
        frameBlock 305398784 (storeWords16 (graph.ages.getD []))))

/-- The bytes of a template. -/
def templateBytes (graph : RetainedGraph) (views : List CapturePayloadView)
    (captureCapacity : ℕ) (metadata : UInt16) (retentionCapacity : UInt8) : List UInt8 :=
  [26, 0, 0, 0] ++ (storeLe32 (templateTotal graph views retentionCapacity) ++
    templateBlocks graph views captureCapacity metadata)

section Template

variable {graph : RetainedGraph} {views : List CapturePayloadView} {captureCapacity : ℕ}
variable {metadata : UInt16} {retentionCapacity : UInt8}

theorem TemplateFits.count_pos (h : TemplateFits graph views captureCapacity retentionCapacity) :
    0 < views.length := by
  rw [← h.used]
  exact h.graphFits.used_pos

theorem TemplateFits.count_le_eighty
    (h : TemplateFits graph views captureCapacity retentionCapacity) : views.length ≤ 80 := by
  rw [← h.used]
  exact h.graphFits.used_le

theorem TemplateFits.count_word (h : TemplateFits graph views captureCapacity retentionCapacity) :
    UInt16.ofNat views.length = graph.used := by
  rw [← h.used, UInt16.ofNat_toNat]

theorem templateBlocks_length (metadata : UInt16)
    (h : TemplateFits graph views captureCapacity retentionCapacity) :
    (templateBlocks graph views captureCapacity metadata).length + 8 =
      templateTotal graph views retentionCapacity := by
  simp only [templateBlocks, List.length_append, frameBlock_length, storeLe16_length,
    graphBytes_length h.graphFits, collectionBytes_length h.viewsFit, storeWords16_length,
    h.graphFits.ages_length, templateTotal]
  omega

/-- The size query announces the length of the template. -/
theorem templateSize_eq (h : TemplateFits graph views captureCapacity retentionCapacity) :
    templateSize graph views captureCapacity retentionCapacity =
      .ok (templateTotal graph views retentionCapacity) := by
  obtain ⟨ages, hages, -⟩ := h.graphFits.ages
  have hpos := h.count_pos
  have htotal := h.total
  have hguard : ¬(views.length = 0 ∨ graph.used.toNat ≠ views.length ∨ retentionCapacity = 0 ∨
      graph.ages = none ∨ graph.ageCount < retentionCapacity.toNat) := by
    rw [hages, h.graphFits.ageCount, h.used]
    simp only [ne_eq, not_true_eq_false, h.retention, reduceCtorEq, lt_self_iff_false, or_false]
    omega
  rw [templateTotal] at htotal
  rw [templateSize, if_neg hguard, retainedGraphSize_eq h.graphFits, withStatus_ok, ok_bind,
    collectionSize_eq h.viewsFit h.count_le_eighty h.count_le, withStatus_ok, ok_bind]
  simp only
  rw [if_neg (by omega), templateTotal]

/-- **The writer fills exactly the announced size.** -/
theorem templateSerializeDefault_eq (metadata : UInt16)
    (h : TemplateFits graph views captureCapacity retentionCapacity) {capacity : ℕ}
    (hroom : templateTotal graph views retentionCapacity ≤ capacity) :
    templateSerializeDefault graph views captureCapacity metadata retentionCapacity capacity =
      .ok (templateBytes graph views captureCapacity metadata retentionCapacity) := by
  have hages : readArray graph.ages retentionCapacity.toNat = .ok (graph.ages.getD []) :=
    readArray_part true (fun _ => h.graphFits.ages_length) rfl
  rw [templateSerializeDefault, templateSize_eq h, ok_bind, if_neg (not_lt.2 hroom),
    retainedGraphSize_eq h.graphFits, withStatus_ok, ok_bind,
    retainedGraphPayload_eq h.graphFits le_rfl, withStatus_ok, ok_bind,
    collectionSize_eq h.viewsFit h.count_le_eighty h.count_le, withStatus_ok, ok_bind,
    collectionSerializeDefault_eq h.viewsFit h.count_le_eighty h.count_le le_rfl, withStatus_ok,
    ok_bind, hages, ok_bind]
  rfl

theorem templateBytes_length (h : TemplateFits graph views captureCapacity retentionCapacity) :
    (templateBytes graph views captureCapacity metadata retentionCapacity).length =
      templateTotal graph views retentionCapacity := by
  have hlen := templateBlocks_length metadata h
  rw [templateBytes, List.length_append, List.length_append, storeLe32_length, List.length_cons,
    List.length_cons, List.length_cons, List.length_cons, List.length_nil]
  omega

/-- The framing of a written template is valid. -/
theorem templateValidate_templateBytes (metadata : UInt16)
    (h : TemplateFits graph views captureCapacity retentionCapacity) :
    ∃ blocks, templateValidate
      (templateBytes graph views captureCapacity metadata retentionCapacity) =
        .ok (0x001a0000#32, blocks) := by
  have hlen := templateBlocks_length metadata h
  have htotal := h.total
  set blocks := (305398016, storeLe16 metadata ++ storeLe16 (UInt16.ofNat views.length)) ::
    (305398528, graphBytes graph) ::
      (1540161792, collectionHeader views.length captureCapacity) ::
        (captureBlocks views 0 ++ [(305398784, storeWords16 (graph.ages.getD []))]) with hblocks
  have hbody : templateBlocks graph views captureCapacity metadata =
      blocks.flatMap fun block => frameBlock block.1 block.2 := by
    simp only [hblocks, templateBlocks, collectionBytes, frameBlocks, List.flatMap_cons,
      List.flatMap_append, List.flatMap_nil, List.append_nil, List.append_assoc]
  have := templateValidate_frames 26 0 hbody (by omega)
  rw [hlen, ← List.append_assoc] at this
  exact ⟨blocks.length, this⟩

theorem loadMetadata_templateBlocks
    (h : TemplateFits graph views captureCapacity retentionCapacity) (rest : List UInt8) :
    loadMetadata (frameBlock 305398016
        (storeLe16 metadata ++ storeLe16 (UInt16.ofNat views.length)) ++ rest) =
      .ok (metadata, graph.used, 16) := by
  set payload := storeLe16 metadata ++ storeLe16 (UInt16.ofNat views.length) with hpayload
  have hlen : payload.length = 4 := by
    rw [hpayload, List.length_append, storeLe16_length, storeLe16_length]
  have hchecked : checkedBlock (frameBlock 305398016 payload ++ rest) 305398016 = .ok 16 := by
    rw [checkedBlock_frameBlock _ _ (by norm_num) (by omega), hlen]
  have hwords : frameBlock 305398016 payload ++ rest =
      (storeLe32 305398016 ++ storeLe32 16) ++ (storeLe16 metadata ++
        (storeLe16 (UInt16.ofNat views.length) ++ (storeLe32 (crc32 (storeLe32 305398016 ++
          (storeLe32 16 ++ payload))).toNat ++ rest))) := by
    rw [frameBlock, hlen, hpayload]
    simp only [List.append_assoc]
  have hmetadata : loadLe16 (frameBlock 305398016 payload ++ rest) 8 = .ok metadata := by
    rw [hwords]
    exact loadLe16_append _ _ _
  have hcount : loadLe16 (frameBlock 305398016 payload ++ rest) 10 =
      .ok (UInt16.ofNat views.length) := by
    rw [hwords, ← List.append_assoc]
    exact loadLe16_append (storeLe32 305398016 ++ storeLe32 16 ++ storeLe16 metadata) _ _
  have hne : graph.used ≠ 0 := by
    intro h0
    have := h.graphFits.used_pos
    rw [h0] at this
    exact absurd this (by decide)
  rw [loadMetadata, hchecked, ok_bind, if_neg (by norm_num), hmetadata, ok_bind, hcount, ok_bind,
    h.count_word, if_neg hne]

theorem loadGraphBlock_templateBlocks
    (h : TemplateFits graph views captureCapacity retentionCapacity) (rest : List UInt8) :
    loadGraphBlock (frameBlock 305398528 (graphBytes graph) ++ rest) graph.used =
      .ok ({ graph with ages := none, ageCount := 0 }, (graphBytes graph).length + 12) := by
  have hlen := graphBytes_length h.graphFits
  have htotal := h.total
  rw [templateTotal] at htotal
  rw [loadGraphBlock, checkedBlock_frameBlock _ _ (by norm_num) (by omega), ok_bind,
    blockPayload_frameBlock, retainedGraphLoadPayload_graphBytes h.graphFits, withStatus_ok,
    ok_bind]
  simp

theorem loadAgeBlock_templateBlocks
    (h : TemplateFits graph views captureCapacity retentionCapacity) :
    loadAgeBlock (frameBlock 305398784 (storeWords16 (graph.ages.getD [])))
      { graph with ages := none, ageCount := 0 } retentionCapacity = .ok graph := by
  have hlen : (storeWords16 (graph.ages.getD [])).length + 12 < 2 ^ 32 := by
    have := retentionCapacity.toNat_lt
    rw [storeWords16_length, h.graphFits.ages_length]
    omega
  have hchecked := checkedBlock_frameBlock 305398784 [] (by norm_num) hlen
  have hpayload := blockPayload_frameBlock 305398784 (storeWords16 (graph.ages.getD [])) []
  rw [List.append_nil] at hchecked hpayload
  rw [loadAgeBlock, hchecked, ok_bind, frameBlock_length, if_neg (by simp), hpayload,
    retainedGraphLoadAges_eq h.graphFits h.retention, withStatus_ok]

/-- **A written template loads back**, each capture with the arrays its flags select. -/
theorem templateLoadDefault_templateBytes
    (h : TemplateFits graph views captureCapacity retentionCapacity) (fresh : ℕ) :
    templateLoadDefault (templateBytes graph views captureCapacity metadata retentionCapacity)
        retentionCapacity fresh =
      .ok ⟨graph, ⟨loadedCaptures fresh views 0, captureCapacity⟩, metadata⟩ := by
  obtain ⟨blocks, hvalid⟩ := templateValidate_templateBytes metadata h
  have hdrop : (templateBytes graph views captureCapacity metadata retentionCapacity).drop 8 =
      templateBlocks graph views captureCapacity metadata := by
    rw [templateBytes, ← List.append_assoc]
    exact List.drop_left' rfl
  have hcollection := collectionLoadDefault_collectionBytes h.viewsFit h.count_pos h.count_le_eighty
    h.count_le h.capacity fresh (frameBlock 305398784 (storeWords16 (graph.ages.getD [])))
  have hmetadata : (frameBlock 305398016
      (storeLe16 metadata ++ storeLe16 (UInt16.ofNat views.length))).length = 16 := by
    rw [frameBlock_length, List.length_append, storeLe16_length, storeLe16_length]
  rw [templateLoadDefault, if_neg h.retention, hvalid, withStatus_ok, ok_bind]
  simp only [ne_eq, not_true_eq_false, if_false]
  rw [hdrop, loadTemplateBlocks, templateBlocks, loadMetadata_templateBlocks h, ok_bind]
  simp only
  rw [List.drop_left' hmetadata, loadGraphBlock_templateBlocks h, ok_bind]
  simp only
  rw [drop_frameBlock, hcollection, ok_bind]
  simp only
  rw [List.drop_left' (collectionBytes_length h.viewsFit), if_neg (by
    rw [loadedCaptures_length, h.used]
    simp), loadAgeBlock_templateBlocks h, ok_bind]

end Template

end Fpc
