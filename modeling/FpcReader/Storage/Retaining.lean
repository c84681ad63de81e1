/-
**Retaining a capture is all or nothing.**

A capture is retained in four steps: a slot is chosen, the capture moves into it, its edges are
written, and the slot count grows.  Memory can run out in the first two, and the capture that comes
in may be one of the stored ones.  Either nothing that matters has changed and the caller still owns
the capture, or it sits in its slot with its edges, and nothing else has changed.

Main definitions:

* `Fpc.Allocations` — which allocations succeed;
* `Fpc.Incoming` — the capture of the caller, or a stored one;
* `Fpc.takeCapture`, `Fpc.retainCapture` — the steps, with every way to fail;
* `Fpc.Unretained`, `Fpc.Retained` — the two outcomes.

Main results:

* `Fpc.retainCapture_eq` — with enough memory this is `Fpc.loadedTemplateRetainCapture`;
* `Fpc.writeCaptureScores_edges` — writing scores changes the edges of one slot;
* `Fpc.retain_atomic` — **retaining has one of the two outcomes**.
-/

import FpcReader.Native.EdgePlaces
import FpcReader.Native.Replacement
import FpcReader.Storage.VerifyTotal

set_option relaxedAutoImplicit false
set_option autoImplicit false

namespace Fpc

/-! ### The steps -/

/-- Whether the costs and the array of captures can be allocated. -/
structure Allocations where
  calloc : Bool
  realloc : Bool
  deriving DecidableEq, Repr

/-- The capture that comes in: the caller's own, or one of `count` stored captures. -/
inductive Incoming (count : ℕ) where
  | held (capture : LoadedCapture)
  | slot (index : Fin count)
  deriving DecidableEq, Repr

def Incoming.capture (collection : LoadedCollection) :
    Incoming collection.captures.length → LoadedCapture
  | .held capture => capture
  | .slot index => collection.captures[index]

/-- Move a capture into a slot: a status, the collection, and what is left of the incoming one. -/
def takeCapture (reallocs : Bool) (collection : LoadedCollection)
    (incoming : Incoming collection.captures.length) (index : ℕ) :
    ℤ × LoadedCollection × LoadedCapture :=
  let count := collection.captures.length
  if collection.capacity < count ∨ collection.capacity ≤ index ∨ count < index then
    (1, collection, incoming.capture)
  else
    match incoming with
    | .slot index => (1, collection, collection.captures[index])
    | .held capture =>
        if capture.storage ≠ none ∧
            collection.captures.any (fun c => c.storage = capture.storage) then
          (1, collection, capture)
        else if index = count then
          if reallocs then
            (0, { collection with captures := collection.captures ++ [capture] },
              LoadedCapture.empty)
          else (2, collection, capture)
        else
          (0, { collection with captures := collection.captures.set index capture },
            LoadedCapture.empty)

/-- The slot for a new capture; the costs are allocated when all slots are taken. -/
def selectCapture (callocs : Bool) (graph : RetainedGraph) (scores : List UInt16)
    (protection : UInt16) : Option ℤ :=
  if graph.used.toNat < graph.capacity.toNat ∨ callocs then
    enrollmentSelectCapture graph.scores graph.scoreCount graph.used.toNat graph.capacity.toNat
      scores graph.order graph.ages protection.toNat graph.ageThreshold
  else none

/-- `fpc_loaded_template_retain_capture`, with allocations that may fail. -/
def retainCapture (allocations : Allocations) (t : LoadedTemplate) (spatialScores : List UInt16)
    (protection : UInt16) (incoming : Incoming t.collection.captures.length) : RetainOutcome :=
  if !retainable t spatialScores then ⟨1, t, incoming.capture, -1⟩
  else
    let used := t.graph.used.toNat
    let scores := spatialScores.take used
    let graph := { t.graph with protectedCount := protection, protectedLimit := protection }
    match selectCapture allocations.calloc graph scores protection with
    | none => ⟨1, { t with graph := graph }, incoming.capture, -1⟩
    | some selected =>
        if selected < 0 then ⟨0, { t with graph := graph }, incoming.capture, selected⟩
        else
          let taken := takeCapture allocations.realloc t.collection incoming selected.toNat
          if taken.1 ≠ 0 then
            ⟨taken.1, { t with graph := graph, collection := taken.2.1 }, taken.2.2, selected⟩
          else
            match enrollmentWriteCaptureScores (graph.scores.getD []) graph.scoreCount used
                graph.capacity.toNat selected.toNat scores with
            | none =>
                ⟨1, { t with graph := graph, collection := taken.2.1 }, taken.2.2, selected⟩
            | some (written, count) =>
                ⟨0, { t with
                    graph := { graph with scores := some written, used := UInt16.ofNat count }
                    collection := taken.2.1 }, taken.2.2, selected⟩

theorem takeCapture_held (collection : LoadedCollection) (capture : LoadedCapture) (index : ℕ) :
    takeCapture true collection (.held capture) index =
      match loadedCollectionTakeCapture collection capture index with
      | none => (1, collection, capture)
      | some taken => (0, taken, LoadedCapture.empty) := by
  unfold takeCapture loadedCollectionTakeCapture
  dsimp only
  split_ifs <;> first | rfl | simp_all

/-- With enough memory this is what retaining the caller's capture is elsewhere. -/
theorem retainCapture_eq (t : LoadedTemplate) (spatialScores : List UInt16) (protection : UInt16)
    (capture : LoadedCapture) :
    retainCapture ⟨true, true⟩ t spatialScores protection (.held capture) =
      loadedTemplateRetainCapture t spatialScores protection capture := by
  unfold retainCapture loadedTemplateRetainCapture selectCapture
  by_cases hretainable : (!retainable t spatialScores) = true
  · rw [if_pos hretainable, if_pos hretainable]
    rfl
  rw [if_neg hretainable, if_neg hretainable]
  dsimp only
  rw [if_pos (Or.inr rfl)]
  cases enrollmentSelectCapture t.graph.scores t.graph.scoreCount t.graph.used.toNat
      t.graph.capacity.toNat (spatialScores.take t.graph.used.toNat) t.graph.order t.graph.ages
      protection.toNat t.graph.ageThreshold with
  | none => rfl
  | some selected =>
      dsimp only
      by_cases hnegative : selected < 0
      · rw [if_pos hnegative, if_pos hnegative]
        rfl
      rw [if_neg hnegative, if_neg hnegative, takeCapture_held]
      cases loadedCollectionTakeCapture t.collection capture selected.toNat with
      | none => rfl
      | some taken => rfl

/-! ### Edges -/

/-- The score of the edge between two slots, if there is such an edge. -/
def RetainedGraph.edge (graph : RetainedGraph) (i j : ℕ) : Option UInt16 :=
  (enrollmentPairIndex graph.capacity.toNat i j).bind fun index => (graph.scores.getD [])[index]?

section Writing

variable {capacity capture : ℕ} {newScores : List UInt16}

/-- Write the scores of some edges of a slot. -/
def writeEdges (capacity capture : ℕ) (newScores : List UInt16) (slots : List ℕ)
    (graph : List UInt16) : Option (List UInt16) :=
  slots.foldlM (fun (graph : List UInt16) i =>
    (enrollmentPairIndex capacity i capture).map fun index =>
      graph.set index (newScores.getD i 0)) graph

/-- What is written at a place: nothing, when it is the place of none of the edges. -/
theorem writeEdges_other {slots : List ℕ} {graph written : List UInt16}
    (h : writeEdges capacity capture newScores slots graph = some written) {index : ℕ}
    (hother : ∀ i ∈ slots, enrollmentPairIndex capacity i capture ≠ some index) :
    written[index]? = graph[index]? := by
  induction slots generalizing graph with
  | nil =>
      obtain rfl := Option.some.inj h
      rfl
  | cons slot slots ih =>
      rw [writeEdges, List.foldlM_cons] at h
      obtain ⟨next, hnext, h⟩ := Option.bind_eq_some_iff.1 h
      obtain ⟨place, hplace, rfl⟩ := Option.map_eq_some_iff.1 hnext
      have hne : place ≠ index := fun heq =>
        hother slot List.mem_cons_self (heq ▸ hplace)
      rw [ih h fun i hi => hother i (List.mem_cons_of_mem _ hi), List.getElem?_set_ne hne]

/-- At the place of an edge the score of its other end is written. -/
theorem writeEdges_mem {slots : List ℕ} {graph written : List UInt16}
    (h : writeEdges capacity capture newScores slots graph = some written) (hnodup : slots.Nodup)
    {i : ℕ} (hi : i ∈ slots) {index : ℕ}
    (hindex : enrollmentPairIndex capacity i capture = some index) (hlt : index < graph.length) :
    written[index]? = some (newScores.getD i 0) := by
  induction slots generalizing graph with
  | nil => cases hi
  | cons slot slots ih =>
      rw [writeEdges, List.foldlM_cons] at h
      obtain ⟨next, hnext, h⟩ := Option.bind_eq_some_iff.1 h
      obtain ⟨place, hplace, rfl⟩ := Option.map_eq_some_iff.1 hnext
      obtain ⟨hfirst, hnodup⟩ := List.nodup_cons.1 hnodup
      rcases List.mem_cons.1 hi with rfl | hi
      · -- the later edges have other ends and thus other places
        have hlater : ∀ j ∈ slots, enrollmentPairIndex capacity j capture ≠ some index := by
          intro j hj hsame
          rcases enrollmentPairIndex_inj hindex hsame with ⟨rfl, -⟩ | ⟨rfl, rfl⟩
          · exact hfirst hj
          · exact hfirst hj
        obtain rfl := Option.some.inj (hplace.symm.trans hindex)
        rw [writeEdges_other h hlater, List.getElem?_set_self hlt]
      · exact ih h hnodup hi (by rwa [List.length_set])

/-- **Writing scores changes the edges of one slot**: all its edges to used slots, and no other
edge. -/
theorem writeCaptureScores_edges {graph written : List UInt16} {graphSize count slots : ℕ}
    (h : enrollmentWriteCaptureScores graph graphSize count capacity capture newScores =
      some (written, slots)) (hlength : edgeCount capacity ≤ graph.length) :
    (∀ i < count, i ≠ capture → ∀ index, enrollmentPairIndex capacity i capture = some index →
      written[index]? = some (newScores.getD i 0)) ∧
    ∀ i j, i ≠ capture → j ≠ capture → ∀ index, enrollmentPairIndex capacity i j = some index →
      written[index]? = graph[index]? := by
  have hwritten : writeEdges capacity capture newScores
      ((List.range count).filter (· ≠ capture)) graph = some written := by
    unfold enrollmentWriteCaptureScores at h
    split_ifs at h
    all_goals
      split at h
      · cases h
      · rename_i hwritten
        obtain ⟨rfl, -⟩ := Prod.mk.inj (Option.some.inj h)
        exact hwritten
  constructor
  · intro i hi hne index hindex
    refine writeEdges_mem hwritten (List.nodup_range.filter _) ?_ hindex
      ((enrollmentPairIndex_lt hindex).trans_le hlength)
    rw [List.mem_filter, List.mem_range]
    exact ⟨hi, by simpa using hne⟩
  · intro i j hi hj index hindex
    refine writeEdges_other hwritten fun k _ hsame => ?_
    rcases enrollmentPairIndex_inj hindex hsame with ⟨-, rfl⟩ | ⟨rfl, -⟩
    · exact hj rfl
    · exact hi rfl

end Writing

/-! ### Moving the capture -/

/-- A capture in its slot: behind the others, or in place of what was there. -/
def putCapture (captures : List LoadedCapture) (index : ℕ) (capture : LoadedCapture) :
    List LoadedCapture :=
  if index = captures.length then captures ++ [capture] else captures.set index capture

/-- The allocations of stored captures. -/
def storages (captures : List LoadedCapture) : List ℕ := captures.filterMap LoadedCapture.storage

section Moving

variable {captures : List LoadedCapture} {capture : LoadedCapture} {index : ℕ}

theorem putCapture_self (h : index ≤ captures.length) :
    (putCapture captures index capture)[index]? = some capture := by
  unfold putCapture
  by_cases hlast : index = captures.length
  · rw [if_pos hlast, hlast]
    simp
  · rw [if_neg hlast, List.getElem?_set_self (by omega)]

theorem putCapture_other {i : ℕ} (h : i ≠ index) :
    (putCapture captures index capture)[i]? = captures[i]? := by
  unfold putCapture
  by_cases hlast : index = captures.length
  · rw [if_pos hlast]
    rcases Nat.lt_or_ge i captures.length with hlt | hge
    · rw [List.getElem?_append_left hlt]
    · rw [List.getElem?_eq_none hge, List.getElem?_eq_none]
      rw [List.length_append, List.length_singleton]
      omega
  · rw [if_neg hlast, List.getElem?_set_ne (Ne.symm h)]

theorem putCapture_length : (putCapture captures index capture).length =
    captures.length + if index = captures.length then 1 else 0 := by
  unfold putCapture
  split_ifs <;> simp

/-- A capture whose allocation no stored one has is put without sharing. -/
theorem putCapture_storages (hnodup : (storages captures).Nodup)
    (hnew : capture.storage ≠ none → ∀ c ∈ captures, c.storage ≠ capture.storage) :
    (storages (putCapture captures index capture)).Nodup := by
  have hfresh : ∀ others : List LoadedCapture, (∀ c ∈ others, c ∈ captures) →
      (storages others).Nodup → (storages (capture :: others)).Nodup := by
    intro others hothers hothersNodup
    cases hstorage : capture.storage with
    | none => simpa [storages, hstorage] using hothersNodup
    | some place =>
        rw [storages, List.filterMap_cons_some hstorage, List.nodup_cons]
        refine ⟨fun hmem => ?_, hothersNodup⟩
        obtain ⟨c, hc, hsame⟩ := List.mem_filterMap.1 hmem
        exact hnew (by simp [hstorage]) c (hothers c hc) (hsame.trans hstorage.symm)
  have hperm : ∀ before after : List LoadedCapture,
      (storages (capture :: (before ++ after))).Nodup →
        (storages (before ++ capture :: after)).Nodup := by
    intro before after h
    have hmoved : (before ++ capture :: after).Perm (capture :: (before ++ after)) :=
      List.perm_middle
    exact (hmoved.filterMap _).nodup_iff.2 h
  unfold putCapture
  by_cases hlast : index = captures.length
  · rw [if_pos hlast]
    refine hperm captures [] ?_
    rw [List.append_nil]
    exact hfresh captures (fun _ => id) hnodup
  · rw [if_neg hlast, List.set_eq_take_append_cons_drop]
    split_ifs with hlt
    · have hsub : (captures.take index ++ captures.drop (index + 1)).Sublist captures := by
        conv_rhs => rw [← List.take_append_drop index captures]
        rw [← List.drop_drop]
        exact (List.Sublist.refl _).append (List.drop_sublist _ _)
      exact hperm _ _ (hfresh _ (fun c hc => hsub.subset hc) (hnodup.sublist (hsub.filterMap _)))
    · exact hnodup

end Moving

/-- A stored capture is refused. -/
theorem takeCapture_slot (reallocs : Bool) (collection : LoadedCollection)
    (slot : Fin collection.captures.length) (index : ℕ) :
    takeCapture reallocs collection (.slot slot) index =
      (1, collection, (Incoming.slot slot).capture) := by
  unfold takeCapture
  dsimp only
  split_ifs <;> rfl

/-- A move fails and leaves the collection and the incoming capture alone, or puts the caller's
capture, whose allocation no stored one has. -/
theorem takeCapture_cases (reallocs : Bool) (collection : LoadedCollection)
    (incoming : Incoming collection.captures.length) (index : ℕ) :
    ((takeCapture reallocs collection incoming index).1 ≠ 0 ∧
      (takeCapture reallocs collection incoming index).2 = (collection, incoming.capture)) ∨
    ((takeCapture reallocs collection incoming index).1 = 0 ∧ ∃ capture, incoming = .held capture ∧
      (capture.storage ≠ none → ∀ c ∈ collection.captures, c.storage ≠ capture.storage) ∧
      (takeCapture reallocs collection incoming index).2 =
        ({ collection with captures := putCapture collection.captures index capture },
          LoadedCapture.empty)) := by
  cases incoming with
  | slot slot =>
      rw [takeCapture_slot]
      exact Or.inl ⟨one_ne_zero, rfl⟩
  | held capture =>
      have hown : ¬(capture.storage ≠ none ∧ (collection.captures.any fun c =>
          decide (c.storage = capture.storage)) = true) →
          capture.storage ≠ none → ∀ c ∈ collection.captures, c.storage ≠ capture.storage :=
        fun hnot hsome c hc hsame =>
          hnot ⟨hsome, List.any_eq_true.2 ⟨c, hc, decide_eq_true hsame⟩⟩
      unfold takeCapture
      dsimp only
      split_ifs with hbad hshared hlast hmemory
      · exact Or.inl ⟨one_ne_zero, rfl⟩
      · exact Or.inl ⟨one_ne_zero, rfl⟩
      · exact Or.inr ⟨rfl, capture, rfl, hown hshared, by rw [putCapture, if_pos hlast]⟩
      · exact Or.inl ⟨two_ne_zero, rfl⟩
      · exact Or.inr ⟨rfl, capture, rfl, hown hshared, by rw [putCapture, if_neg hlast]⟩

/-! ### The two outcomes -/

/-- Nothing but the protection has changed, and the caller still owns the capture. -/
structure Unretained (t : LoadedTemplate) (incoming : Incoming t.collection.captures.length)
    (outcome : RetainOutcome) : Prop where
  collection : outcome.template.collection = t.collection
  used : outcome.template.graph.used = t.graph.used
  scores : outcome.template.graph.scores = t.graph.scores
  order : outcome.template.graph.order = t.graph.order
  ages : outcome.template.graph.ages = t.graph.ages
  incoming : outcome.incoming = incoming.capture

/-- The capture sits in slot `s` with its edges, and nothing else has changed. -/
structure Retained (t : LoadedTemplate) (spatialScores : List UInt16)
    (incoming : Incoming t.collection.captures.length) (s : ℕ) (outcome : RetainOutcome) :
    Prop where
  slot : outcome.template.collection.captures[s]? = some incoming.capture
  incoming : outcome.incoming = LoadedCapture.empty
  others : ∀ i, i ≠ s →
    outcome.template.collection.captures[i]? = t.collection.captures[i]?
  edges : ∀ i < t.graph.used.toNat, i ≠ s → ∃ score, spatialScores[i]? = some score ∧
    outcome.template.graph.edge i s = some score
  otherEdges : ∀ i j, i ≠ s → j ≠ s →
    outcome.template.graph.edge i j = t.graph.edge i j
  used : outcome.template.graph.used.toNat =
    t.graph.used.toNat + if s = t.graph.used.toNat then 1 else 0
  order : outcome.template.graph.order = t.graph.order
  ages : outcome.template.graph.ages = t.graph.ages

/-- The allocations of all holders of captures: the slots, and the caller if the incoming capture is
not one of the stored ones. -/
def owned (captures : List LoadedCapture) {count : ℕ} (incoming : Incoming count)
    (left : LoadedCapture) : List ℕ :=
  storages captures ++
    match incoming with
    | .held _ => left.storage.toList
    | .slot _ => []

section Outcomes

variable {t : LoadedTemplate} {spatialScores : List UInt16}

theorem selectCapture_free {callocs : Bool} {graph : RetainedGraph} {scores : List UInt16}
    {protection : UInt16} {selected : ℤ}
    (h : selectCapture callocs graph scores protection = some selected) :
    selected = -1 ∨ ∃ s : ℕ, selected = s ∧ s ≤ graph.used.toNat ∧ s < graph.capacity.toNat := by
  unfold selectCapture at h
  split_ifs at h
  rcases enrollmentSelectCapture_free h with hnone | ⟨s, hs, hfree⟩
  · exact Or.inl hnone
  · rcases hfree with ⟨hless, rfl⟩ | ⟨hfull, hlt, -⟩
    · exact Or.inr ⟨_, hs, le_rfl, hless⟩
    · exact Or.inr ⟨s, hs, by omega, hlt⟩

/-- What is checked before a capture is retained. -/
theorem retainable_iff : retainable t spatialScores = true ↔
    t.graph.used.toNat ≤ 80 ∧ 2 ≤ t.graph.capacity.toNat ∧
      t.graph.used.toNat ≤ t.graph.capacity.toNat ∧
      t.collection.captures.length = t.graph.used.toNat ∧
      t.graph.capacity.toNat ≤ t.collection.capacity ∧ t.graph.scores ≠ none ∧
      edgeCount t.graph.capacity.toNat ≤ t.graph.scoreCount ∧
      t.graph.used.toNat ≤ spatialScores.length ∧
      (t.graph.used.toNat = t.graph.capacity.toNat →
        t.graph.ages ≠ none ∧ t.graph.used.toNat ≤ t.graph.ageCount ∧ t.graph.order ≠ none) :=
  decide_eq_true_iff

/-- The edges that are written: those of the slot hold the scores, and all others stay. -/
theorem retainable_written (hretainable : retainable t spatialScores = true)
    (hscores : ∀ scores, t.graph.scores = some scores → t.graph.scoreCount ≤ scores.length) {s : ℕ}
    (hle : s ≤ t.graph.used.toNat) (hlt : s < t.graph.capacity.toNat) :
    ∃ written count, enrollmentWriteCaptureScores (t.graph.scores.getD []) t.graph.scoreCount
        t.graph.used.toNat t.graph.capacity.toNat s (spatialScores.take t.graph.used.toNat) =
          some (written, count) ∧
      (UInt16.ofNat count).toNat =
        t.graph.used.toNat + (if s = t.graph.used.toNat then 1 else 0) ∧
      (∀ i < t.graph.used.toNat, i ≠ s → ∃ score, spatialScores[i]? = some score ∧
        (enrollmentPairIndex t.graph.capacity.toNat i s).bind (fun k => written[k]?) =
          some score) ∧
      ∀ i j, i ≠ s → j ≠ s →
        (enrollmentPairIndex t.graph.capacity.toNat i j).bind (fun k => written[k]?) =
          (enrollmentPairIndex t.graph.capacity.toNat i j).bind
            fun k => (t.graph.scores.getD [])[k]? := by
  obtain ⟨hsmall, htwo, hused, -, -, hsome, hedges, hlength, -⟩ := retainable_iff.1 hretainable
  obtain ⟨scores, hscoresEq⟩ := Option.ne_none_iff_exists'.1 hsome
  have hscoresLength := hedges.trans (hscores scores hscoresEq)
  have hused16 := t.graph.capacity.toNat_lt
  -- the checks are those made at the start, and the slot passed them
  have hwrites : (enrollmentWriteCaptureScores (t.graph.scores.getD []) t.graph.scoreCount
      t.graph.used.toNat t.graph.capacity.toNat s
      (spatialScores.take t.graph.used.toNat)).isSome = true :=
    enrollmentWriteCaptureScores_isSome htwo (by omega) hused hedges hle hlt
      (by rw [List.length_take]; omega)
  obtain ⟨⟨written, count⟩, hwritten⟩ := Option.isSome_iff_exists.1 hwrites
  obtain ⟨-, -, -, hgrown⟩ := enrollmentWriteCaptureScores_sound hwritten
  obtain ⟨hown, hother⟩ := writeCaptureScores_edges hwritten (by
    rw [hscoresEq]
    exact hscoresLength)
  refine ⟨written, count, hwritten, ?_, fun i hi hne => ?_, fun i j hi hj => ?_⟩
  · rw [UInt16.toNat_ofNat', Nat.mod_eq_of_lt]
    · rw [hgrown]
      split_ifs <;> omega
    · split_ifs at hgrown <;> omega
  · obtain ⟨index, hplace⟩ := Option.isSome_iff_exists.1
      (enrollmentPairIndex_isSome (by omega : i < t.graph.capacity.toNat) hlt hne (by omega))
    refine ⟨spatialScores[i], List.getElem?_eq_getElem (by omega), ?_⟩
    rw [hplace, Option.bind_some, hown i hi hne index hplace,
      List.getD_eq_getElem _ _ (by rw [List.length_take]; omega), List.getElem_take]
  · cases hplace : enrollmentPairIndex t.graph.capacity.toNat i j with
    | none => rfl
    | some index => exact hother i j hi hj index hplace

/-- **Retaining has one of the two outcomes.** -/
theorem retainCapture_cases (allocations : Allocations) (protection : UInt16)
    (hscores : ∀ scores, t.graph.scores = some scores → t.graph.scoreCount ≤ scores.length)
    {incoming : Incoming t.collection.captures.length} {outcome : RetainOutcome}
    (hresult : retainCapture allocations t spatialScores protection incoming = outcome) :
    (-1 ≤ outcome.selected ∧ (outcome.status ≠ 0 ∨ outcome.selected = -1) ∧
      Unretained t incoming outcome) ∨
    ∃ (s : ℕ) (capture : LoadedCapture), outcome.status = 0 ∧ outcome.selected = s ∧
      incoming = .held capture ∧
      (capture.storage ≠ none → ∀ c ∈ t.collection.captures, c.storage ≠ capture.storage) ∧
      t.collection.captures.length = t.graph.used.toNat ∧
      outcome.template.collection.captures = putCapture t.collection.captures s capture ∧
      Retained t spatialScores incoming s outcome := by
  unfold retainCapture at hresult
  by_cases hretainable : (!retainable t spatialScores) = true
  · rw [if_pos hretainable] at hresult
    subst hresult
    exact Or.inl ⟨le_rfl, Or.inl one_ne_zero, ⟨rfl, rfl, rfl, rfl, rfl, rfl⟩⟩
  rw [if_neg hretainable] at hresult
  have hchecked : retainable t spatialScores = true := by simpa using hretainable
  have hcount := (retainable_iff.1 hchecked).2.2.2.1
  dsimp only at hresult
  split at hresult
  · subst hresult
    exact Or.inl ⟨le_rfl, Or.inl one_ne_zero, ⟨rfl, rfl, rfl, rfl, rfl, rfl⟩⟩
  rename_i selected hselect
  rcases selectCapture_free hselect with rfl | ⟨s, rfl, hle, hlt⟩
  · rw [if_pos (by norm_num)] at hresult
    subst hresult
    exact Or.inl ⟨le_rfl, Or.inr rfl, ⟨rfl, rfl, rfl, rfl, rfl, rfl⟩⟩
  have hle : s ≤ t.graph.used.toNat := hle
  have hlt : s < t.graph.capacity.toNat := hlt
  rw [if_neg (by omega), Int.toNat_natCast] at hresult
  rcases takeCapture_cases allocations.realloc t.collection incoming s with
    ⟨htaken, hleft⟩ | ⟨htaken, capture, rfl, hown, hput⟩
  · rw [if_pos htaken] at hresult
    rw [hleft] at hresult
    subst hresult
    exact Or.inl ⟨by dsimp only; omega, Or.inl htaken, ⟨rfl, rfl, rfl, rfl, rfl, rfl⟩⟩
  rw [if_neg (not_not.2 htaken)] at hresult
  obtain ⟨written, count, hwritten, hgrown, hedges, hothers⟩ :=
    retainable_written hchecked hscores hle hlt
  rw [hwritten, hput] at hresult
  dsimp only at hresult
  subst hresult
  exact Or.inr ⟨s, capture, rfl, rfl, rfl, hown, hcount, rfl, putCapture_self (by omega), rfl,
    fun i hi => putCapture_other hi, hedges, hothers, hgrown, rfl, rfl⟩

end Outcomes

/-- **Retaining a capture is all or nothing**: a template whose slot count is that of its captures
keeps this whatever fails, no allocation gets a second owner, and either nothing has changed or the
capture sits in its slot. -/
theorem retain_atomic (allocations : Allocations) {t : LoadedTemplate}
    (hcount : t.collection.captures.length = t.graph.used.toNat)
    (hscores : ∀ scores, t.graph.scores = some scores → t.graph.scoreCount ≤ scores.length)
    (spatialScores : List UInt16) (protection : UInt16)
    (incoming : Incoming t.collection.captures.length) :
    let outcome := retainCapture allocations t spatialScores protection incoming
    (outcome.status ≠ 0 ∨ outcome.selected = -1 → Unretained t incoming outcome) ∧
      -1 ≤ outcome.selected ∧
      (∀ s : ℕ, outcome.status = 0 → outcome.selected = s →
        Retained t spatialScores incoming s outcome) ∧
      outcome.template.collection.captures.length = outcome.template.graph.used.toNat ∧
      ((storages t.collection.captures).Nodup →
        (storages outcome.template.collection.captures).Nodup) ∧
      ((owned t.collection.captures incoming incoming.capture).Nodup →
        (owned outcome.template.collection.captures incoming outcome.incoming).Nodup) := by
  intro outcome
  have hresult : retainCapture allocations t spatialScores protection incoming = outcome := rfl
  rcases retainCapture_cases allocations protection hscores hresult with
    ⟨hselected, hnothing, hsame⟩ | ⟨s, capture, hstatus, hselected, rfl, hown, -, hput, hdone⟩
  · refine ⟨fun _ => hsame, hselected, fun s hstatus hs => ?_, ?_, ?_, ?_⟩
    · rcases hnothing with hbad | hnone
      · exact absurd hstatus hbad
      · exact absurd (hs.symm.trans hnone) (by omega)
    · rw [hsame.collection, hsame.used]
      exact hcount
    · rw [hsame.collection]
      exact id
    · rw [hsame.collection, hsame.incoming]
      exact id
  · refine ⟨fun hnothing => ?_, by omega, fun s' _ hs' => ?_, ?_, fun hnodup => ?_,
      fun hnodup => ?_⟩
    · rcases hnothing with hbad | hnone
      · exact absurd hstatus hbad
      · exact absurd (hselected.symm.trans hnone) (by omega)
    · obtain rfl : s = s' := by exact_mod_cast hselected.symm.trans hs'
      exact hdone
    · rw [hput, putCapture_length, hdone.used, hcount]
    · rw [hput]
      exact putCapture_storages hnodup hown
    · have hslots : (storages t.collection.captures).Nodup := (List.nodup_append.1 hnodup).1
      rw [hput, hdone.incoming]
      simpa [owned, LoadedCapture.empty] using putCapture_storages hslots hown

/-- A template with one of two slots taken. -/
def oneOfTwo : LoadedTemplate where
  graph := ⟨some [0], some [0, 1], some [0, 0], 1, 2, 1, 2, 0, 0, 6⟩
  collection := ⟨[⟨CapturePayloadView.bare 0, some 1⟩], 2⟩
  metadata := 0

/-- A capture goes into the free slot. -/
theorem retain_atomic_append :
    Retained oneOfTwo [7] (.held ⟨CapturePayloadView.bare 0, some 2⟩) 1
      (retainCapture ⟨true, true⟩ oneOfTwo [7] 0 (.held ⟨CapturePayloadView.bare 0, some 2⟩)) := by
  have hscores : ∀ scores, oneOfTwo.graph.scores = some scores →
      oneOfTwo.graph.scoreCount ≤ scores.length := by
    intro scores h
    cases h
    decide
  exact (retain_atomic ⟨true, true⟩ rfl hscores [7] 0 _).2.2.1 1 rfl rfl

end Fpc
