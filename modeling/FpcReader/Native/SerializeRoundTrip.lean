/-
**Everything the writer accepts loads back.**

The writer reads as many elements of an array as the counts announce and looks no further.  What it
accepts is therefore written as if every array ended there; and a template with such arrays fits the
format, so the loader gives it back.

Main definitions:

* `Fpc.CapturePayloadView.trimmed`, `Fpc.RetainedGraph.trimmed` — the arrays up to the announced
  lengths;
* `Fpc.CapturePayloadView.LevelsCover` — the levels cover the features.

Main results:

* `Fpc.templateSerializeDefault_trimmed` — the writer looks at the announced elements only;
* `Fpc.templateFits_trimmed` — what the writer accepts fits the format;
* `Fpc.templateSerializeDefault_roundTrip` — **what the writer accepts loads back, and the size
  query announces its length**.
-/

import FpcReader.Native.TemplateSound

set_option relaxedAutoImplicit false
set_option autoImplicit false

namespace Fpc

open Bytes Fallible

/-! ### Arrays up to a length -/

/-- The first `n` elements of an array. -/
def trim {α : Type} (n : ℕ) (array : Option (List α)) : Option (List α) := array.map (List.take n)

section Trim

variable {α : Type} {n : ℕ} {array : Option (List α)}

theorem trim_getD (n : ℕ) (array : Option (List α)) :
    (trim n array).getD [] = (array.getD []).take n := by
  cases array with
  | none => exact List.take_nil.symm
  | some l => rfl

@[simp]
theorem trim_isSome : (trim n array).isSome = array.isSome := Option.isSome_map

@[simp]
theorem trim_eq_none : trim n array = none ↔ array = none := Option.map_eq_none_iff

/-- Reading up to the length finds the same elements. -/
@[simp]
theorem readArray_trim (n : ℕ) (array : Option (List α)) :
    readArray (trim n array) n = readArray array n := by
  rw [readArray, readArray, trim_getD, List.take_take, Nat.min_self]
  by_cases h : n ≤ (array.getD []).length
  · rw [if_pos h, if_pos (List.length_take_of_le h).ge]
  · rw [if_neg h, if_neg (fun h' => h (h'.trans (List.length_take_le' _ _)))]

/-- What was read has the length. -/
theorem trim_length_of_read {l : List α} (h : readArray array n = .ok l) :
    ((trim n array).getD []).length = n := by
  unfold readArray at h
  split_ifs at h with hle
  rw [trim_getD, List.length_take_of_le hle]

theorem trim_eq_some_of_read (hsome : array ≠ none) {l : List α} (h : readArray array n = .ok l) :
    ∃ l', trim n array = some l' ∧ l'.length = n := by
  have hlength := trim_length_of_read h
  cases harray : array with
  | none => exact absurd harray hsome
  | some whole =>
      rw [harray] at hlength
      exact ⟨whole.take n, rfl, hlength⟩

end Trim

/-! ### Captures -/

/-- A capture with its arrays up to the announced lengths. -/
def CapturePayloadView.trimmed (view : CapturePayloadView) (flags : UInt16) :
    CapturePayloadView :=
  let sizes := view.sizes flags
  { view with
    levelFields := trim (5 * view.levels.toNat) view.levelFields
    levelExtra := trim (extraWords view.tableWidth * view.levels.toNat) view.levelExtra
    compactCoordinates := trim sizes.compact view.compactCoordinates
    coordinates := trim (sizes.coordinates / 4) view.coordinates
    scores := trim (sizes.scores / 4) view.scores
    angles := trim (sizes.angles / 4) view.angles
    descriptors := trim sizes.descriptors view.descriptors
    membership := trim sizes.membership view.membership }

/-- No level has more than 32767 features, and together they have as many as the capture. -/
structure CapturePayloadView.LevelsCover (view : CapturePayloadView) : Prop where
  le : ∀ l < view.levels.toNat, ((view.levelFields.getD []).getD (l * 5) 0).toNat ≤ 32767
  sum : ((List.range view.levels.toNat).map fun l =>
    ((view.levelFields.getD []).getD (l * 5) 0).toNat).sum = view.count

section Capture

variable {view : CapturePayloadView} {flags : UInt16}

@[simp]
theorem arrayPresent_trim {α : Type} (needed : Bool) (n : ℕ) (array : Option (List α)) :
    arrayPresent needed (trim n array) = arrayPresent needed array := by
  rw [arrayPresent, arrayPresent, trim_isSome]

/-- The size query does not look at the arrays. -/
theorem capturePayloadSize_trimmed (view : CapturePayloadView) (flags : UInt16) :
    capturePayloadSize (view.trimmed flags) flags = capturePayloadSize view flags := by
  have hpresent : capturePayloadPresent (view.trimmed flags) flags =
      capturePayloadPresent view flags := by
    simp only [capturePayloadPresent, CapturePayloadView.trimmed, arrayPresent_trim]
  have hsizes : (view.trimmed flags).sizes flags = view.sizes flags := rfl
  have hcount : (view.trimmed flags).count = view.count := rfl
  rw [capturePayloadSize, capturePayloadSize, hpresent, hsizes, hcount]

/-- The writer looks at the announced elements only. -/
theorem capturePayload_trimmed (view : CapturePayloadView) (flags : UInt16) (capacity : ℕ) :
    capturePayload (view.trimmed flags) flags capacity = capturePayload view flags capacity := by
  have hsizes : (view.trimmed flags).sizes flags = view.sizes flags := rfl
  have hlevels : levelWords (view.trimmed flags) = levelWords view := by
    unfold levelWords
    simp only [CapturePayloadView.trimmed, readArray_trim]
  have harrays : arrayBytes (view.trimmed flags) flags = arrayBytes view flags := by
    unfold arrayBytes
    rw [hsizes]
    simp only [CapturePayloadView.trimmed, readArray_trim]
  rw [capturePayload, capturePayload, capturePayloadSize_trimmed, hlevels, harrays]
  rfl

/-- The level counts are at the head of every level, up to the announced length. -/
theorem levelCounts_trimmed (view : CapturePayloadView) (flags : UInt16) :
    levelCounts view.levels.toNat ((view.trimmed flags).levelFields.getD []) =
      (List.range view.levels.toNat).map fun l =>
        ((view.levelFields.getD []).getD (l * 5) 0).toNat := by
  rw [levelCounts_eq]
  refine List.map_congr_left fun l hl => ?_
  rw [List.mem_range] at hl
  show (((trim (5 * view.levels.toNat) view.levelFields).getD []).getD (l * 5) 0).toNat = _
  rw [trim_getD, List.getD_eq_getElem?_getD, List.getElem?_take_of_lt (by omega),
    List.getD_eq_getElem?_getD]

/-- **A capture the writer accepts fits**, up to the announced lengths. -/
theorem fits_trimmed (hcover : view.LevelsCover) {capacity : ℕ} {bytes : List UInt8}
    (h : capturePayload view defaultFlags capacity = .ok bytes) :
    (view.trimmed defaultFlags).Fits defaultFlags := by
  have hsizes := default_sizes view
  rw [capturePayload, bind_eq_ok] at h
  obtain ⟨size, hsize, h⟩ := h
  have hcount : view.count ≤ 32767 := by
    unfold capturePayloadSize at hsize
    split_ifs at hsize
    all_goals omega
  rw [hasFlag_default] at h
  split_ifs at h with hcapacity hflag
  · cases hflag
  rw [bind_eq_ok] at h
  obtain ⟨levels, hlevels, h⟩ := h
  rw [bind_eq_ok] at h
  obtain ⟨arrays, harrays, -⟩ := h
  -- every array was read up to its announced length
  rw [levelWords, bind_eq_ok] at hlevels
  obtain ⟨fields, hfields, hlevels⟩ := hlevels
  rw [bind_eq_ok] at hlevels
  obtain ⟨extras, hextras, -⟩ := hlevels
  rw [arrayBytes, bind_eq_ok] at harrays
  obtain ⟨compact, hcompact, harrays⟩ := harrays
  rw [bind_eq_ok] at harrays
  obtain ⟨coordinates, -, harrays⟩ := harrays
  rw [bind_eq_ok] at harrays
  obtain ⟨scores, -, harrays⟩ := harrays
  rw [bind_eq_ok] at harrays
  obtain ⟨angles, -, harrays⟩ := harrays
  rw [bind_eq_ok] at harrays
  obtain ⟨descriptors, hdescriptors, harrays⟩ := harrays
  rw [bind_eq_ok] at harrays
  obtain ⟨membership, hmembership, -⟩ := harrays
  have hcounts := levelCounts_trimmed view defaultFlags
  exact {
    count := hcount
    levelFields := trim_length_of_read hfields
    levelExtra := trim_length_of_read hextras
    compact := fun _ => (trim_length_of_read hcompact).trans (by rw [hsizes]; rfl)
    coordinates := fun hf => absurd hf (by decide)
    scores := fun hf => absurd hf (by decide)
    angles := fun hf => absurd hf (by decide)
    descriptors := fun _ => (trim_length_of_read hdescriptors).trans (by rw [hsizes]; rfl)
    membership := fun _ => (trim_length_of_read hmembership).trans (by rw [hsizes]; rfl)
    levelCount_le := by
      show ∀ c ∈ levelCounts view.levels.toNat ((view.trimmed defaultFlags).levelFields.getD []), _
      rw [hcounts]
      intro c hc
      obtain ⟨l, hl, rfl⟩ := List.mem_map.1 hc
      exact hcover.le l (List.mem_range.1 hl)
    levelCount_sum := by
      show (levelCounts view.levels.toNat
        ((view.trimmed defaultFlags).levelFields.getD [])).sum = view.count
      rw [hcounts]
      exact hcover.sum }

end Capture

/-! ### Collections -/

/-- The captures of a collection up to their announced lengths. -/
def trimmedViews (views : List CapturePayloadView) : List CapturePayloadView :=
  views.map fun view => view.trimmed defaultFlags

section Collection

variable {views : List CapturePayloadView}

@[simp]
theorem trimmedViews_length (views : List CapturePayloadView) :
    (trimmedViews views).length = views.length :=
  List.length_map _

theorem captureSizes_trimmed (views : List CapturePayloadView) (total : ℕ) :
    captureSizes (trimmedViews views) total = captureSizes views total := by
  induction views generalizing total with
  | nil => rfl
  | cons view views ih =>
      rw [trimmedViews, List.map_cons, captureSizes, captureSizes, capturePayloadSize_trimmed]
      congr 1
      funext size
      rw [← trimmedViews, ih]

theorem collectionSize_trimmed (views : List CapturePayloadView) (captureCapacity : ℕ) :
    collectionSize (trimmedViews views) captureCapacity = collectionSize views captureCapacity := by
  rw [collectionSize, collectionSize, trimmedViews_length, captureSizes_trimmed]

theorem serializeCaptures_trimmed (views : List CapturePayloadView) (i : ℕ) :
    serializeCaptures (trimmedViews views) i = serializeCaptures views i := by
  induction views generalizing i with
  | nil => rfl
  | cons view views ih =>
      have htail := ih (i + 1)
      rw [trimmedViews] at htail
      rw [trimmedViews, List.map_cons, serializeCaptures, serializeCaptures,
        capturePayloadSize_trimmed]
      simp only [capturePayload_trimmed, htail]

theorem collectionSerializeDefault_trimmed (views : List CapturePayloadView)
    (captureCapacity capacity : ℕ) :
    collectionSerializeDefault (trimmedViews views) captureCapacity capacity =
      collectionSerializeDefault views captureCapacity capacity := by
  rw [collectionSerializeDefault, collectionSerializeDefault, collectionSize_trimmed,
    serializeCaptures_trimmed, trimmedViews_length]

/-- Captures that were written fit, up to their announced lengths. -/
theorem fits_of_serializeCaptures (hcover : ∀ view ∈ views, view.LevelsCover) {i : ℕ}
    {bytes : List UInt8} (h : serializeCaptures views i = .ok bytes) :
    ∀ view ∈ trimmedViews views, view.Fits defaultFlags := by
  induction views generalizing i bytes with
  | nil => nofun
  | cons view views ih =>
      rw [serializeCaptures, bind_eq_ok] at h
      obtain ⟨size, -, h⟩ := h
      rw [bind_eq_ok] at h
      obtain ⟨payload, hpayload, h⟩ := h
      rw [bind_eq_ok] at h
      obtain ⟨rest, hrest, -⟩ := h
      intro other hother
      rcases List.mem_cons.1 hother with rfl | hother
      · exact fits_trimmed (hcover view List.mem_cons_self) hpayload
      · exact ih (fun v hv => hcover v (List.mem_cons_of_mem _ hv)) hrest other hother

end Collection

/-! ### Templates -/

/-- A graph with order, scores and ages up to the announced lengths. -/
def RetainedGraph.trimmed (graph : RetainedGraph) (retentionCapacity : UInt8) : RetainedGraph :=
  { graph with
    order := trim graph.capacity.toNat graph.order
    scores := trim (edgeCount graph.capacity.toNat) graph.scores
    ages := trim retentionCapacity.toNat graph.ages }

section Template

variable {graph : RetainedGraph} {views : List CapturePayloadView} {captureCapacity : ℕ}
variable {metadata : UInt16} {retentionCapacity : UInt8}

theorem retainedGraphSize_trimmed (graph : RetainedGraph) (retentionCapacity : UInt8) :
    retainedGraphSize (graph.trimmed retentionCapacity) = retainedGraphSize graph := by
  simp only [retainedGraphSize, RetainedGraph.trimmed, trim_eq_none]

theorem retainedGraphPayload_trimmed (graph : RetainedGraph) (retentionCapacity : UInt8)
    (pending : UInt16) (capacity : ℕ) :
    retainedGraphPayload (graph.trimmed retentionCapacity) pending capacity =
      retainedGraphPayload graph pending capacity := by
  unfold retainedGraphPayload
  rw [retainedGraphSize_trimmed]
  simp only [RetainedGraph.trimmed, readArray_trim]
  rfl

theorem templateSize_trimmed (graph : RetainedGraph) (views : List CapturePayloadView)
    (captureCapacity : ℕ) (retentionCapacity : UInt8) :
    templateSize (graph.trimmed retentionCapacity) (trimmedViews views) captureCapacity
      retentionCapacity = templateSize graph views captureCapacity retentionCapacity := by
  have hages : (graph.trimmed retentionCapacity).ages = none ↔ graph.ages = none := trim_eq_none
  have hused : (graph.trimmed retentionCapacity).used = graph.used := rfl
  have hcount : (graph.trimmed retentionCapacity).ageCount = graph.ageCount := rfl
  rw [templateSize, templateSize, trimmedViews_length, retainedGraphSize_trimmed,
    collectionSize_trimmed]
  simp only [hages, hused, hcount]

/-- **The writer looks at the announced elements only.** -/
theorem templateSerializeDefault_trimmed (graph : RetainedGraph) (views : List CapturePayloadView)
    (captureCapacity : ℕ) (metadata : UInt16) (retentionCapacity : UInt8) (capacity : ℕ) :
    templateSerializeDefault (graph.trimmed retentionCapacity) (trimmedViews views)
        captureCapacity metadata retentionCapacity capacity =
      templateSerializeDefault graph views captureCapacity metadata retentionCapacity capacity := by
  have hages : readArray (graph.trimmed retentionCapacity).ages retentionCapacity.toNat =
      readArray graph.ages retentionCapacity.toNat := readArray_trim _ _
  unfold templateSerializeDefault
  rw [templateSize_trimmed, retainedGraphSize_trimmed, collectionSize_trimmed]
  simp only [retainedGraphPayload_trimmed, collectionSerializeDefault_trimmed, hages,
    trimmedViews_length]

/-- What the size query of a template checks. -/
theorem templateSize_eq_ok {total : ℕ}
    (h : templateSize graph views captureCapacity retentionCapacity = .ok total) :
    0 < views.length ∧ graph.used.toNat = views.length ∧ retentionCapacity ≠ 0 ∧
      graph.ages ≠ none ∧ (∃ size, retainedGraphSize graph = .ok size) ∧
        views.length ≤ 80 ∧ views.length ≤ captureCapacity := by
  unfold templateSize at h
  split_ifs at h with hguard
  push Not at hguard
  obtain ⟨hpos, hused, hretention, hages, -⟩ := hguard
  rw [bind_eq_ok] at h
  obtain ⟨graphSize, hgraph, h⟩ := h
  rw [bind_eq_ok] at h
  obtain ⟨collection, hcollection, -⟩ := h
  have hcounts := withStatus_eq_ok hcollection
  unfold collectionSize at hcounts
  split_ifs at hcounts with hmany
  exact ⟨Nat.pos_of_ne_zero hpos, hused, hretention, hages, ⟨_, withStatus_eq_ok hgraph⟩, by omega,
    by omega⟩

/-- What the size query of a graph checks. -/
theorem retainedGraphSize_eq_ok {size : ℕ} (h : retainedGraphSize graph = .ok size) :
    2 ≤ graph.capacity.toNat ∧ graph.used.toNat ≤ graph.capacity.toNat ∧ graph.order ≠ none ∧
      graph.scores ≠ none := by
  unfold retainedGraphSize at h
  split_ifs at h with hguard
  push Not at hguard
  exact ⟨hguard.1, hguard.2.1, hguard.2.2.1, hguard.2.2.2.1⟩

/-- **What the writer accepts fits the format**, up to the announced lengths. -/
theorem templateFits_trimmed (hcapacity : captureCapacity ≤ 65535)
    (hscores : graph.scoreCount = edgeCount graph.capacity.toNat)
    (hages : graph.ageCount = retentionCapacity.toNat) (hcover : ∀ view ∈ views, view.LevelsCover)
    {capacity : ℕ} {bytes : List UInt8}
    (h : templateSerializeDefault graph views captureCapacity metadata retentionCapacity capacity =
      .ok bytes) :
    TemplateFits (graph.trimmed retentionCapacity) (trimmedViews views) captureCapacity
      retentionCapacity := by
  rw [templateSerializeDefault, bind_eq_ok] at h
  obtain ⟨total, htotal, h⟩ := h
  split_ifs at h with hroom
  rw [bind_eq_ok] at h
  obtain ⟨graphSize, hgraphSize, h⟩ := h
  rw [bind_eq_ok] at h
  obtain ⟨graphBytes, hgraph, h⟩ := h
  rw [bind_eq_ok] at h
  obtain ⟨collectionTotal, hcollectionSize, h⟩ := h
  rw [bind_eq_ok] at h
  obtain ⟨collection, hcollection, h⟩ := h
  rw [bind_eq_ok] at h
  obtain ⟨ages, hagesRead, -⟩ := h
  -- order and scores were read
  have hpayload := withStatus_eq_ok hgraph
  rw [retainedGraphPayload, bind_eq_ok] at hpayload
  obtain ⟨_, -, hpayload⟩ := hpayload
  split_ifs at hpayload
  rw [bind_eq_ok] at hpayload
  obtain ⟨order, horderRead, hpayload⟩ := hpayload
  rw [bind_eq_ok] at hpayload
  obtain ⟨scores, hscoresRead, -⟩ := hpayload
  -- the captures were written
  have hblocks := withStatus_eq_ok hcollection
  rw [collectionSerializeDefault, bind_eq_ok] at hblocks
  obtain ⟨_, -, hblocks⟩ := hblocks
  split_ifs at hblocks
  rw [bind_eq_ok] at hblocks
  obtain ⟨blocks, hserialized, -⟩ := hblocks
  have hfits := fits_of_serializeCaptures hcover (withStatus_eq_ok hserialized)
  obtain ⟨hpos, hused, hretention, hagesSome, -, heighty, hle⟩ := templateSize_eq_ok htotal
  obtain ⟨htwo, husedLe, horderSome, hscoresSome⟩ :=
    retainedGraphSize_eq_ok (withStatus_eq_ok hgraphSize)
  have hgraphFits : (graph.trimmed retentionCapacity).Fits retentionCapacity := {
    used_pos := hused ▸ hpos
    used_le := hused ▸ heighty
    used_le_capacity := husedLe
    capacity := htwo
    order := trim_eq_some_of_read horderSome horderRead
    scores := trim_eq_some_of_read hscoresSome hscoresRead
    scoreCount := hscores
    ages := trim_eq_some_of_read hagesSome hagesRead
    ageCount := hages }
  refine ⟨hgraphFits, hfits, hretention, ?_, ?_, hcapacity, ?_⟩
  · rw [trimmedViews_length]
    exact hused
  · rw [trimmedViews_length]
    exact hle
  · -- the limit of the size query
    rw [← templateSize_trimmed, templateSize] at htotal
    split_ifs at htotal
    rw [retainedGraphSize_eq hgraphFits, withStatus_ok, ok_bind,
      collectionSize_eq hfits (by rw [trimmedViews_length]; exact heighty)
        (by rw [trimmedViews_length]; exact hle), withStatus_ok, ok_bind] at htotal
    dsimp only at htotal
    split_ifs at htotal with hlimit
    rw [templateTotal]
    omega

/-- **What the writer accepts loads back.**  If graph, captures, metadata and capacities are
written, the size query announces as many bytes as there are, and loading them gives back the graph
with its order, scores and ages, the metadata, the capacity and for each capture what the flags
carry. -/
theorem templateSerializeDefault_roundTrip (hcapacity : captureCapacity ≤ 65535)
    (hscores : graph.scoreCount = edgeCount graph.capacity.toNat)
    (hages : graph.ageCount = retentionCapacity.toNat) (hcover : ∀ view ∈ views, view.LevelsCover)
    {capacity : ℕ} {bytes : List UInt8}
    (h : templateSerializeDefault graph views captureCapacity metadata retentionCapacity capacity =
      .ok bytes) :
    templateSize graph views captureCapacity retentionCapacity = .ok bytes.length ∧
      bytes.length ≤ capacity ∧
        ∀ fresh, ∃ captures, templateLoadDefault bytes retentionCapacity fresh =
            .ok ⟨graph.trimmed retentionCapacity, ⟨captures, captureCapacity⟩, metadata⟩ ∧
          captures.map LoadedCapture.view = views.map fun view =>
            (view.trimmed defaultFlags).selected defaultFlags := by
  have hfits := templateFits_trimmed hcapacity hscores hages hcover h
  have hsize := templateSize_eq hfits
  have hroom : templateTotal (graph.trimmed retentionCapacity) (trimmedViews views)
      retentionCapacity ≤ capacity := by
    rw [← templateSerializeDefault_trimmed, templateSerializeDefault, hsize, ok_bind] at h
    split_ifs at h with hlimit
    omega
  rw [← templateSerializeDefault_trimmed, templateSerializeDefault_eq metadata hfits hroom] at h
  obtain rfl := Except.ok.inj h
  have hlength : (templateBytes (graph.trimmed retentionCapacity) (trimmedViews views)
      captureCapacity metadata retentionCapacity).length = _ := templateBytes_length hfits
  refine ⟨?_, hlength ▸ hroom, fun fresh => ⟨_, templateLoadDefault_templateBytes hfits fresh, ?_⟩⟩
  · rw [← templateSize_trimmed, hsize, hlength]
  · rw [loadedCaptures_views, trimmedViews, List.map_map]
    rfl

end Template

/-- A graph of two slots, one of them used. -/
def smallGraph : RetainedGraph where
  scores := some [7]
  order := some [1, 0]
  ages := some [3, 0]
  scoreCount := 1
  ageCount := 2
  used := 1
  capacity := 2
  protectedCount := 0
  protectedLimit := 1
  ageThreshold := 8

/-- A capture of one feature with a descriptor of one byte, in an array that is longer. -/
def smallView : CapturePayloadView where
  count := 1
  mode := 1
  descriptorBytes := 1
  levels := 1
  tableWidth := 0
  levelFields := some [1, 16384, 16384, 8, 8]
  levelExtra := none
  compactCoordinates := some [3, 4]
  descriptors := some [9, 9]
  membership := some [1]
  coordinates := none
  scores := none
  angles := none

theorem smallTemplate_fits :
    TemplateFits (smallGraph.trimmed 2) (trimmedViews [smallView]) 2 2 where
  graphFits := ⟨by decide, by decide, by decide, by decide, ⟨_, rfl, rfl⟩, ⟨_, rfl, rfl⟩, rfl,
    ⟨_, rfl, rfl⟩, rfl⟩
  viewsFit := by
    intro view hview
    obtain rfl := List.mem_singleton.1 hview
    exact ⟨by decide, rfl, rfl, fun _ => rfl, nofun, nofun, nofun, fun _ => rfl, fun _ => rfl,
      by decide, rfl⟩
  retention := by decide
  used := rfl
  count_le := by decide
  capacity := by decide
  total := by decide

/-- The small template is written and loads back. -/
theorem templateSerializeDefault_roundTrip_small :
    ∃ bytes, templateSerializeDefault smallGraph [smallView] 2 5 2 500 = .ok bytes ∧
      templateSize smallGraph [smallView] 2 2 = .ok bytes.length ∧
        ∀ fresh, ∃ captures, templateLoadDefault bytes 2 fresh =
            .ok ⟨smallGraph, ⟨captures, 2⟩, 5⟩ ∧
          captures.map LoadedCapture.view =
            [(smallView.trimmed defaultFlags).selected defaultFlags] := by
  have hwrite := templateSerializeDefault_eq 5 smallTemplate_fits (by decide : _ ≤ 500)
  rw [templateSerializeDefault_trimmed] at hwrite
  have hcover : ∀ view ∈ [smallView], view.LevelsCover := by
    intro view hview
    obtain rfl := List.mem_singleton.1 hview
    exact ⟨by decide, rfl⟩
  obtain ⟨hsize, -, hload⟩ :=
    templateSerializeDefault_roundTrip (by decide) rfl rfl hcover hwrite
  exact ⟨_, hwrite, hsize, hload⟩

end Fpc
