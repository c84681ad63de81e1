/-
**What adapting a template keeps.**

An update that succeeds leaves a consistent template behind: the same capacities and order, ages and
scores of the same lengths, and only captures that were there before or the one that came in.

Main definitions:

* `Fpc.LoadedTemplate.AdaptedFrom` — what an update may change;
* `Fpc.RetainRuns` — what a successful retaining has done.

Main results:

* `Fpc.loadedTemplateRetainCapture_runs`, `Fpc.loadedTemplateRetainCapture_sound` — retaining a
  capture;
* `Fpc.updateTemplateAfterMatch_sound` — **an update keeps a template consistent**;
* `Fpc.captureFromPrepared_sound` — the capture of a prepared image.
-/

import FpcReader.Native.TemplateSound
import FpcReader.Native.Update

set_option relaxedAutoImplicit false
set_option autoImplicit false

namespace Fpc

open Fallible

/-! ### Graphs -/

section Graph

variable {graph : RetainedGraph} {r : UInt8}

/-- Ages of the same length, as the loops over them leave behind. -/
theorem RetainedGraph.Fits.mapAges (h : graph.Fits r) {f : List UInt16 → List UInt16}
    (hf : ∀ ages, (f ages).length = ages.length) :
    ({ graph with ages := graph.ages.map f } : RetainedGraph).Fits r :=
  { h with
    ages := by
      obtain ⟨ages, hages, hlen⟩ := h.ages
      exact ⟨f ages, by rw [hages, Option.map_some], by rw [hf, hlen]⟩ }

theorem retainedGraphIncrementAges_fits (h : graph.Fits r) {aged : RetainedGraph}
    (haged : retainedGraphIncrementAges graph = some aged) :
    aged.Fits r ∧ ∃ ages, aged = { graph with ages := ages } := by
  unfold retainedGraphIncrementAges at haged
  dsimp only at haged
  split_ifs at haged
  obtain rfl := Option.some.inj haged
  refine ⟨h.mapAges fun ages => ?_, _, rfl⟩
  rw [List.length_append, List.length_map, ← List.length_append, List.take_append_drop]

theorem retainedGraphResetAge_fits (h : graph.Fits r) {index : ℤ} {reset : RetainedGraph}
    (hreset : retainedGraphResetAge graph index = some reset) :
    reset.Fits r ∧ ∃ ages, reset = { graph with ages := ages } := by
  unfold retainedGraphResetAge at hreset
  split_ifs at hreset
  obtain rfl := Option.some.inj hreset
  exact ⟨h.mapAges fun ages => List.length_set .., _, rfl⟩

end Graph

/-- Writing edges keeps the number of them. -/
theorem writeEdges_length {capacity capture : ℕ} {newScores : List UInt16} (slots : List ℕ)
    {graph written : List UInt16}
    (h : slots.foldlM (fun (graph : List UInt16) i =>
      (enrollmentPairIndex capacity i capture).map fun index =>
        graph.set index (newScores.getD i 0)) graph = some written) :
    written.length = graph.length := by
  induction slots generalizing graph with
  | nil =>
      obtain rfl := Option.some.inj h
      rfl
  | cons slot slots ih =>
      rw [List.foldlM_cons] at h
      obtain ⟨next, hnext, h⟩ := Option.bind_eq_some_iff.1 h
      obtain ⟨index, -, rfl⟩ := Option.map_eq_some_iff.1 hnext
      rw [ih h, List.length_set]

theorem enrollmentWriteCaptureScores_sound {graph newScores written : List UInt16}
    {graphSize count capacity capture slots : ℕ}
    (h : enrollmentWriteCaptureScores graph graphSize count capacity capture newScores =
      some (written, slots)) :
    written.length = graph.length ∧ capture < capacity ∧ capture ≤ count ∧
      slots = if capture = count then count + 1 else count := by
  unfold enrollmentWriteCaptureScores at h
  split_ifs at h with hbad
  · split at h
    · cases h
    · rename_i hcapture _ _ hwritten
      obtain ⟨rfl, rfl⟩ := Prod.mk.inj (Option.some.inj h)
      exact ⟨writeEdges_length _ hwritten, by omega, by omega, (if_pos hcapture).symm⟩
  · split at h
    · cases h
    · rename_i hcapture _ _ hwritten
      obtain ⟨rfl, rfl⟩ := Prod.mk.inj (Option.some.inj h)
      exact ⟨writeEdges_length _ hwritten, by omega, by omega, (if_neg hcapture).symm⟩

/-! ### Collections -/

theorem loadedCollectionTakeCapture_sound {collection taken : LoadedCollection}
    {incoming : LoadedCapture} {index : ℕ}
    (h : loadedCollectionTakeCapture collection incoming index = some taken) :
    taken.capacity = collection.capacity ∧
      taken.captures.length = (if index = collection.captures.length then
        collection.captures.length + 1 else collection.captures.length) ∧
      index < collection.capacity ∧
      ∀ c ∈ taken.captures, c ∈ collection.captures ∨ c = incoming := by
  unfold loadedCollectionTakeCapture at h
  dsimp only at h
  split_ifs at h with hbad hstorage hindex
  · obtain rfl := Option.some.inj h
    refine ⟨rfl, ?_, by omega, fun c hc => ?_⟩
    · rw [if_pos hindex, List.length_append, List.length_singleton]
    · rcases List.mem_append.1 hc with hc | hc
      · exact Or.inl hc
      · exact Or.inr (List.mem_singleton.1 hc)
  · obtain rfl := Option.some.inj h
    refine ⟨rfl, ?_, by omega, fun c hc => List.mem_or_eq_of_mem_set hc⟩
    rw [if_neg hindex, List.length_set]

/-! ### Templates -/

/-- What an update may change in a template: scores, ages, the number of slots, protection, and the
captures, the incoming one being the only new one. -/
structure LoadedTemplate.AdaptedFrom (t old : LoadedTemplate) (protection : UInt16)
    (incoming : LoadedCapture) : Prop where
  capacity : t.graph.capacity = old.graph.capacity
  order : t.graph.order = old.graph.order
  ageThreshold : t.graph.ageThreshold = old.graph.ageThreshold
  protectedCount : t.graph.protectedCount = old.graph.protectedCount ∨
    t.graph.protectedCount = protection
  protectedLimit : t.graph.protectedLimit = old.graph.protectedLimit ∨
    t.graph.protectedLimit = protection
  collection : t.collection.capacity = old.collection.capacity
  captures : ∀ c ∈ t.collection.captures, c ∈ old.collection.captures ∨ c = incoming
  metadata : t.metadata = old.metadata

section Template

variable {t old : LoadedTemplate} {r : UInt8} {protection : UInt16} {incoming : LoadedCapture}

theorem LoadedTemplate.AdaptedFrom.refl : t.AdaptedFrom t protection incoming :=
  ⟨rfl, rfl, rfl, Or.inl rfl, Or.inl rfl, rfl, fun _ => Or.inl, rfl⟩

/-- Ages may change on top of anything else. -/
theorem LoadedTemplate.AdaptedFrom.withAges (h : t.AdaptedFrom old protection incoming)
    {graph : RetainedGraph} (hgraph : ∃ ages, graph = { t.graph with ages := ages }) :
    ({ t with graph := graph } : LoadedTemplate).AdaptedFrom old protection incoming := by
  obtain ⟨ages, rfl⟩ := hgraph
  exact ⟨h.capacity, h.order, h.ageThreshold, h.protectedCount, h.protectedLimit, h.collection,
    h.captures, h.metadata⟩

/-- A graph with other ages belongs to the same captures. -/
theorem LoadedTemplate.Consistent.withAges (h : t.Consistent r) {graph : RetainedGraph}
    (hfits : graph.Fits r) (hgraph : ∃ ages, graph = { t.graph with ages := ages }) :
    ({ t with graph := graph } : LoadedTemplate).Consistent r :=
  { h with
    graph := hfits
    used := by
      obtain ⟨ages, rfl⟩ := hgraph
      exact h.used }

theorem resetAgeIgnoring_sound (h : t.Consistent r) (ha : t.AdaptedFrom old protection incoming)
    (index : ℤ) :
    (resetAgeIgnoring t index).Consistent r ∧
      (resetAgeIgnoring t index).AdaptedFrom old protection incoming := by
  unfold resetAgeIgnoring
  cases hreset : retainedGraphResetAge t.graph index with
  | none => exact ⟨h, ha⟩
  | some graph =>
      obtain ⟨hfits, hgraph⟩ := retainedGraphResetAge_fits h.graph hreset
      exact ⟨h.withAges hfits hgraph, ha.withAges hgraph⟩

/-- What a successful retaining has done: no slot was worth the capture, or it was taken into a slot
and its scores were written. -/
inductive RetainRuns (t : LoadedTemplate) (scores : List UInt16) (protection : UInt16)
    (incoming : LoadedCapture) : RetainOutcome → Prop
  | refused {selected : ℤ} : selected < 0 →
      enrollmentSelectCapture t.graph.scores t.graph.scoreCount t.graph.used.toNat
        t.graph.capacity.toNat (scores.take t.graph.used.toNat) t.graph.order t.graph.ages
        protection.toNat t.graph.ageThreshold = some selected →
      RetainRuns t scores protection incoming
        ⟨0, { t with graph := { t.graph with
          protectedCount := protection, protectedLimit := protection } }, incoming, selected⟩
  | taken {selected : ℤ} {taken : LoadedCollection} {written : List UInt16} {count : ℕ} :
      ¬selected < 0 →
      enrollmentSelectCapture t.graph.scores t.graph.scoreCount t.graph.used.toNat
        t.graph.capacity.toNat (scores.take t.graph.used.toNat) t.graph.order t.graph.ages
        protection.toNat t.graph.ageThreshold = some selected →
      loadedCollectionTakeCapture t.collection incoming selected.toNat = some taken →
      enrollmentWriteCaptureScores (t.graph.scores.getD []) t.graph.scoreCount
        t.graph.used.toNat t.graph.capacity.toNat selected.toNat
        (scores.take t.graph.used.toNat) = some (written, count) →
      RetainRuns t scores protection incoming
        ⟨0, { t with
          graph := { t.graph with
            protectedCount := protection, protectedLimit := protection
            scores := some written, used := UInt16.ofNat count }
          collection := taken }, LoadedCapture.empty, selected⟩

theorem loadedTemplateRetainCapture_runs {scores : List UInt16}
    (hstatus : (loadedTemplateRetainCapture t scores protection incoming).status = 0) :
    RetainRuns t scores protection incoming
      (loadedTemplateRetainCapture t scores protection incoming) := by
  generalize houtcome : loadedTemplateRetainCapture t scores protection incoming = outcome
  rw [houtcome] at hstatus
  unfold loadedTemplateRetainCapture at houtcome
  by_cases hretainable : (!retainable t scores) = true
  · rw [if_pos hretainable] at houtcome
    rw [← houtcome] at hstatus
    exact absurd hstatus one_ne_zero
  rw [if_neg hretainable] at houtcome
  dsimp only at houtcome
  split at houtcome
  · rw [← houtcome] at hstatus
    exact absurd hstatus one_ne_zero
  rename_i selected hselect
  by_cases hnegative : selected < 0
  · rw [if_pos hnegative] at houtcome
    exact houtcome ▸ .refused hnegative hselect
  rw [if_neg hnegative] at houtcome
  split at houtcome
  · rw [← houtcome] at hstatus
    exact absurd hstatus one_ne_zero
  rename_i taken htaken
  split at houtcome
  · rw [← houtcome] at hstatus
    exact absurd hstatus one_ne_zero
  rename_i written count hwritten
  exact houtcome ▸ .taken hnegative hselect htaken hwritten

/-- A graph whose scores have been written for one capture still fits, with the slots it has now. -/
theorem RetainedGraph.Fits.written {graph : RetainedGraph} (h : graph.Fits r)
    (hcap : graph.capacity.toNat ≤ 80) {capture count : ℕ} {newScores written : List UInt16}
    (hwritten : enrollmentWriteCaptureScores (graph.scores.getD []) graph.scoreCount
      graph.used.toNat graph.capacity.toNat capture newScores = some (written, count)) :
    (UInt16.ofNat count).toNat = count ∧
      ({ graph with
        protectedCount := protection, protectedLimit := protection
        scores := some written, used := UInt16.ofNat count } : RetainedGraph).Fits r := by
  obtain ⟨hlength, hlt, hle, hcount⟩ := enrollmentWriteCaptureScores_sound hwritten
  have hpos := h.used_pos
  have hused := h.used_le_capacity
  have hbound : 0 < count ∧ count ≤ graph.capacity.toNat := by
    split_ifs at hcount <;> omega
  have hword : (UInt16.ofNat count).toNat = count := by
    rw [UInt16.toNat_ofNat', Nat.mod_eq_of_lt (by omega)]
  refine ⟨hword, ?_⟩
  exact {
    used_pos := by
      show 0 < (UInt16.ofNat count).toNat
      omega
    used_le := by
      show (UInt16.ofNat count).toNat ≤ 80
      omega
    used_le_capacity := by
      show (UInt16.ofNat count).toNat ≤ graph.capacity.toNat
      omega
    capacity := h.capacity
    order := h.order
    scores := ⟨written, rfl, by rw [hlength, h.scores_length]⟩
    scoreCount := h.scoreCount
    ages := h.ages
    ageCount := h.ageCount }

/-- **Retaining a capture keeps a template consistent.** -/
theorem loadedTemplateRetainCapture_sound (h : t.Consistent r) (hcap : t.graph.capacity.toNat ≤ 80)
    (hin : incoming.view.Fits defaultFlags) {scores : List UInt16}
    (hstatus : (loadedTemplateRetainCapture t scores protection incoming).status = 0) :
    (loadedTemplateRetainCapture t scores protection incoming).template.Consistent r ∧
      (loadedTemplateRetainCapture t scores protection incoming).template.AdaptedFrom t protection
        incoming := by
  have hruns := loadedTemplateRetainCapture_runs hstatus
  generalize loadedTemplateRetainCapture t scores protection incoming = outcome at hruns ⊢
  cases hruns with
  | refused _ _ =>
      exact ⟨{ h with graph := { h.graph with } },
        ⟨rfl, rfl, rfl, Or.inr rfl, Or.inr rfl, rfl, fun _ => Or.inl, rfl⟩⟩
  | @taken _ taken _ count _ _ htaken hwritten =>
      obtain ⟨hcapacity, hlength, hindex, hcaptures⟩ := loadedCollectionTakeCapture_sound htaken
      obtain ⟨-, -, -, hcount⟩ := enrollmentWriteCaptureScores_sound hwritten
      obtain ⟨hword, hfits⟩ := h.graph.written hcap hwritten
      refine ⟨⟨hfits, h.retention, fun c hc => ?_, ?_, ?_, ?_⟩,
        ⟨rfl, rfl, rfl, Or.inr rfl, Or.inr rfl, hcapacity, hcaptures, rfl⟩⟩
      · rcases hcaptures c hc with hc | rfl
        · exact h.captures c hc
        · exact hin
      · show (UInt16.ofNat count).toNat = taken.captures.length
        rw [hword, hlength, hcount, h.used]
      · show taken.captures.length ≤ taken.capacity
        have := h.count_le
        rw [hlength, hcapacity]
        split_ifs <;> omega
      · show taken.capacity ≤ 65535
        rw [hcapacity]
        exact h.capacity

theorem LoadedTemplate.AdaptedFrom.trans {middle : LoadedTemplate}
    (h : t.AdaptedFrom middle protection incoming)
    (h' : middle.AdaptedFrom old protection incoming) :
    t.AdaptedFrom old protection incoming where
  capacity := h.capacity.trans h'.capacity
  order := h.order.trans h'.order
  ageThreshold := h.ageThreshold.trans h'.ageThreshold
  protectedCount := h.protectedCount.elim (fun heq => heq ▸ h'.protectedCount) Or.inr
  protectedLimit := h.protectedLimit.elim (fun heq => heq ▸ h'.protectedLimit) Or.inr
  collection := h.collection.trans h'.collection
  captures := fun c hc => (h.captures c hc).elim (h'.captures c) Or.inr
  metadata := h.metadata.trans h'.metadata

/-- The part of the update that may retain the capture. -/
theorem retainGoodCapture_sound (h : t.Consistent r) (hcap : t.graph.capacity.toNat ≤ 80)
    (hin : incoming.view.Fits defaultFlags) {q28 q32 q16 : ℤ} {scores : List UInt16}
    {policy : TemplateUpdatePolicy} {state : TemplateUpdateState}
    (hstatus : (retainGoodCapture t incoming q28 q32 q16 scores policy state).status = 0) :
    (retainGoodCapture t incoming q28 q32 q16 scores policy state).template.Consistent r ∧
      (retainGoodCapture t incoming q28 q32 q16 scores policy state).template.AdaptedFrom t
        policy.protection incoming := by
  unfold retainGoodCapture at hstatus ⊢
  split_ifs at hstatus ⊢ with hgood
  · dsimp only at hstatus ⊢
    obtain ⟨hconsistent, hadapted⟩ := loadedTemplateRetainCapture_sound h hcap hin hstatus
    split_ifs
    · exact resetAgeIgnoring_sound hconsistent hadapted _
    · exact ⟨hconsistent, hadapted⟩
  · exact ⟨h, .refl⟩

/-- **An update that succeeds keeps a template consistent.** -/
theorem updateTemplateAfterMatch_sound (h : t.Consistent r) (hcap : t.graph.capacity.toNat ≤ 80)
    (hin : incoming.view.Fits defaultFlags) {q28 q32 q16 : ℤ} {scores : List UInt16}
    {policy : TemplateUpdatePolicy} {state : TemplateUpdateState}
    (hstatus : (updateTemplateAfterMatch t incoming q28 q32 q16 scores policy state).status = 0) :
    (updateTemplateAfterMatch t incoming q28 q32 q16 scores policy state).template.Consistent r ∧
      (updateTemplateAfterMatch t incoming q28 q32 q16 scores policy state).template.AdaptedFrom t
        policy.protection incoming := by
  unfold updateTemplateAfterMatch at hstatus ⊢
  dsimp only at hstatus ⊢
  split_ifs at hstatus ⊢ with hcode hallowed
  · exact absurd hstatus (by norm_num)
  · cases hages : retainedGraphIncrementAges t.graph with
    | none =>
        rw [hages] at hstatus
        exact absurd hstatus one_ne_zero
    | some graph =>
        rw [hages] at hstatus
        dsimp only at hstatus ⊢
        obtain ⟨hfits, hgraph⟩ := retainedGraphIncrementAges_fits h.graph hages
        have haged : ({ t with graph := graph } : LoadedTemplate).AdaptedFrom t policy.protection
            incoming := LoadedTemplate.AdaptedFrom.refl.withAges hgraph
        obtain ⟨hconsistent, hadapted⟩ :=
          resetAgeIgnoring_sound (h.withAges hfits hgraph) haged state.selectedCapture
        have hcap' := hadapted.capacity ▸ hcap
        obtain ⟨hdone, hkept⟩ := retainGoodCapture_sound hconsistent hcap' hin hstatus
        exact ⟨hdone, hkept.trans hadapted⟩
  · exact ⟨h, .refl⟩

end Template

/-! ### Prepared captures -/

theorem flatMap_length_const {α β : Type} {f : α → List β} {k : ℕ} (hf : ∀ a, (f a).length = k)
    (l : List α) : (l.flatMap f).length = l.length * k := by
  induction l with
  | nil => simp
  | cons a l ih => rw [List.flatMap_cons, List.length_append, ih, hf, List.length_cons]; ring

/-- The view of a prepared capture has arrays of the announced lengths. -/
theorem preparedView_fits {prepared : PreparedCapture} (h : prepared.features.length ≤ 300)
    (enrolled : Bool) : (preparedView prepared enrolled).Fits defaultFlags := by
  have hword : (UInt16.ofNat prepared.features.length).toNat = prepared.features.length := by
    rw [UInt16.toNat_ofNat', Nat.mod_eq_of_lt (by omega)]
  have hcounts : levelCounts (preparedView prepared enrolled).levels.toNat
      ((preparedView prepared enrolled).levelFields.getD []) = [prepared.features.length] := by
    rw [← hword]
    rfl
  exact {
    count := h.trans (by norm_num)
    levelFields := rfl
    levelExtra := rfl
    compact := fun _ => by
      rw [show (preparedView prepared enrolled).compactCoordinates =
        some (prepared.features.flatMap fun f => [f.x, f.y]) from rfl, Option.getD_some,
        flatMap_length_const (k := 2) fun _ => rfl]
      exact Nat.mul_comm _ _
    coordinates := fun hf => absurd hf (by decide)
    scores := fun hf => absurd hf (by decide)
    angles := fun hf => absurd hf (by decide)
    descriptors := fun _ => by
      rw [show (preparedView prepared enrolled).descriptors =
        some (prepared.features.flatMap fun f => f.descriptor.toList) from rfl, Option.getD_some,
        flatMap_length_const (k := 16) fun f => f.descriptor.length_toList]
      rfl
    membership := fun _ => by
      show (initialMembership prepared.features.length enrolled).length = _
      unfold initialMembership
      split_ifs <;> simp [preparedView]
    levelCount_le := by
      rw [hcounts]
      intro c hc
      rw [List.mem_singleton.1 hc]
      omega
    levelCount_sum := by
      rw [hcounts, List.sum_singleton]
      rfl }

/-- **The capture of a prepared image** is one level of 16-byte descriptors without a table. -/
theorem captureFromPrepared_sound {prepared : PreparedCapture} {enrolled : Bool} {fresh : ℕ}
    {capture : LoadedCapture} (h : captureFromPrepared prepared enrolled fresh = .ok capture) :
    prepared.features.length ≤ 300 ∧
      capture = ⟨(preparedView prepared enrolled).selected defaultFlags, some fresh⟩ ∧
        capture.view.Fits defaultFlags := by
  unfold captureFromPrepared at h
  by_cases hmany : 300 < prepared.features.length
  · rw [if_pos hmany] at h
    cases h
  rw [if_neg hmany, bind_eq_ok] at h
  obtain ⟨payload, hpayload, hload⟩ := h
  have hfits := preparedView_fits (not_lt.1 hmany) enrolled
  have hbytes : (preparedView prepared enrolled).sizes defaultFlags =
      ⟨10, 2 * prepared.features.length, 0, 0, 0, prepared.features.length * 16,
        (prepared.features.length + 7) / 8⟩ := default_sizes _
  rw [capturePayload_eq hfits hasFlag_default
    (by rw [hbytes]; simp only [SectionSizes.total]; omega)] at hpayload
  obtain rfl := Except.ok.inj hpayload
  have hfitsLoaded := (captureLoadPayload_fits hasFlag_default hload).1
  rw [captureLoadPayload_payloadBytes hfits hasFlag_default] at hload
  exact ⟨not_lt.1 hmany, (Except.ok.inj hload).symm, hfitsLoaded⟩

/-- **A prepared image with at most 300 features becomes a capture.** -/
theorem captureFromPrepared_total {prepared : PreparedCapture}
    (hfew : prepared.features.length ≤ 300) (enrolled : Bool) (fresh : ℕ) :
    captureFromPrepared prepared enrolled fresh =
      .ok ⟨(preparedView prepared enrolled).selected defaultFlags, some fresh⟩ := by
  have hfits := preparedView_fits hfew enrolled
  have hbytes : (preparedView prepared enrolled).sizes defaultFlags =
      ⟨10, 2 * prepared.features.length, 0, 0, 0, prepared.features.length * 16,
        (prepared.features.length + 7) / 8⟩ := default_sizes _
  have hsize : 8 + ((preparedView prepared enrolled).sizes defaultFlags).total ≤ 5500 := by
    rw [hbytes]
    simp only [SectionSizes.total]
    omega
  rw [captureFromPrepared, if_neg (not_lt.2 hfew), capturePayload_eq hfits hasFlag_default hsize]
  exact captureLoadPayload_payloadBytes hfits hasFlag_default fresh

end Fpc
