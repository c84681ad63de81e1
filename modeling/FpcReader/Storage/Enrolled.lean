/-
**The template of a finished enrollment.**

A finished session writes its captures and scores as a template and loads it back.  Scores move from
the order in which pairs were appended to the packed rows of a graph of thirty-two slots, the slots
are sorted by their costs, and what comes back holds every accepted capture and passes the checks of
the storage.

Main definitions:

* `Fpc.EnrolledTemplate` — the captures, edges and order of a finished session.

Main results:

* `Fpc.packScores_packed` — **every recorded score is where its edge belongs**;
* `Fpc.enrollmentInitialOrder_perm` — the order names every slot once;
* `Fpc.enrollment_finish` — **a completed enrollment yields a template the storage accepts**.
-/

import FpcReader.Native.Canonical
import FpcReader.Native.EnrollmentRuns
import FpcReader.Storage.Adapting
import FpcReader.Storage.Retaining

set_option relaxedAutoImplicit false
set_option autoImplicit false

namespace Fpc

open Fallible

/-! ### Packing the scores -/

section Pack

variable {pairScores : List UInt16} {capacity : ℕ}

theorem writePairScore_eq {earlier later : ℕ} (h : earlier < later) (hlater : later < capacity)
    (hmax : capacity ≤ 65535) (scores : List UInt16) :
    writePairScore pairScores capacity later scores earlier =
      scores.set (Triangle.row capacity earlier later)
        (pairScores.getD (Triangle.append later earlier) 0) := by
  rw [writePairScore, enrollmentPairIndex_eq h hlater hmax]
  rfl

/-- The scores of the pairs with a later slot below `laters`, and of those of slot `laters` with an
earlier one below `earliers`, are in place. -/
structure Packed (pairScores : List UInt16) (capacity laters earliers : ℕ)
    (scores : List UInt16) : Prop where
  length : scores.length = edgeCount capacity
  edges : ∀ earlier later, earlier < later →
    later < laters ∨ later = laters ∧ earlier < earliers →
      scores[Triangle.row capacity earlier later]? =
        some (pairScores.getD (Triangle.append later earlier) 0)

theorem Packed.write {laters n : ℕ} {scores : List UInt16}
    (h : Packed pairScores capacity laters n scores) (hn : n < laters) (hlaters : laters < capacity)
    (hmax : capacity ≤ 65535) :
    Packed pairScores capacity laters (n + 1)
      (writePairScore pairScores capacity laters scores n) := by
  rw [writePairScore_eq hn hlaters hmax]
  have hroom : Triangle.row capacity n laters < scores.length := by
    rw [h.length]
    exact Triangle.row_lt hn hlaters
  refine ⟨by rw [List.length_set, h.length], fun earlier later hlt hwritten => ?_⟩
  by_cases hsame : later = laters ∧ earlier = n
  · rw [hsame.1, hsame.2]
    exact List.getElem?_set_self hroom
  · have hother : Triangle.row capacity n laters ≠ Triangle.row capacity earlier later := by
      intro heq
      have := Triangle.row_inj hn hlaters hlt (by omega) heq
      omega
    rw [List.getElem?_set_ne hother]
    exact h.edges earlier later hlt (by omega)

theorem Packed.row {laters : ℕ} {scores : List UInt16}
    (h : Packed pairScores capacity laters 0 scores) (hlaters : laters < capacity)
    (hmax : capacity ≤ 65535) {n : ℕ} (hn : n ≤ laters) :
    Packed pairScores capacity laters n
      ((List.range n).foldl (writePairScore pairScores capacity laters) scores) := by
  induction n with
  | zero => exact h
  | succ n ih =>
      rw [Scans.foldl_range_succ]
      exact (ih (by omega)).write (by omega) hlaters hmax

/-- **Every recorded score is where its edge belongs.** -/
theorem packScores_packed {used : ℕ} (hused : used ≤ capacity) (hmax : capacity ≤ 65535) :
    Packed pairScores capacity used 0 (packScores pairScores used capacity) := by
  unfold packScores
  induction used with
  | zero => exact ⟨List.length_replicate, fun earlier later hlt h => by omega⟩
  | succ used ih =>
      rw [Scans.foldl_range_succ]
      have hrow := (ih (by omega)).row (by omega) hmax le_rfl
      exact ⟨hrow.length, fun earlier later hlt h => hrow.edges earlier later hlt (by omega)⟩

end Pack

/-! ### The initial order -/

/-- Two neighbours exchange places. -/
theorem swapBefore_perm {α : Type} (default : α) {l : List α} {i : ℕ} (hi : i < l.length) :
    (swapBefore default l i).Perm l := by
  have hbefore : i - 1 < l.length := by omega
  rw [swapBefore, List.getD_eq_getElem _ _ hi, List.getD_eq_getElem _ _ hbefore]
  exact List.set_set_perm hi hbefore

/-- The slots are those at the start, in some order, and the last exchange was in range. -/
structure Sorting (slots : List UInt16) (st : SortState) : Prop where
  perm : st.order.Perm slots
  last : st.last = 0 ∨ st.last < slots.length

theorem sortStep_sorting {slots : List UInt16} {st : SortState} (h : Sorting slots st) {i : ℕ}
    (hi : i < slots.length) : Sorting slots (sortStep st i) := by
  unfold sortStep
  split_ifs
  · exact ⟨(swapBefore_perm 0 (h.perm.length_eq ▸ hi)).trans h.perm, Or.inr hi⟩
  · exact h

theorem sortPass_sorting {slots : List UInt16} {st : SortState} (h : Sorting slots st)
    {finish : ℕ} (hfinish : finish ≤ slots.length) : Sorting slots (sortPass st finish) := by
  have hsteps : ∀ (steps : List ℕ) (st : SortState), (∀ i ∈ steps, i < slots.length) →
      Sorting slots st → Sorting slots (steps.foldl sortStep st) := by
    intro steps
    induction steps with
    | nil => exact fun _ _ hst => hst
    | cons i steps ih =>
        intro st hin hst
        exact ih _ (fun j hj => hin j (List.mem_cons_of_mem _ hj))
          (sortStep_sorting hst (hin i List.mem_cons_self))
  refine hsteps _ _ (fun i hi => ?_) ⟨h.perm, Or.inl rfl⟩
  have := List.mem_range'_1.1 hi
  omega

theorem sortPasses_sorting {slots : List UInt16} (fuel : ℕ) {finish : ℕ} {st : SortState}
    (h : Sorting slots st) (hfinish : finish ≤ slots.length) :
    Sorting slots (sortPasses fuel finish st) := by
  induction fuel generalizing finish st with
  | zero => exact h
  | succ fuel ih =>
      rw [sortPasses]
      split_ifs
      · exact h
      · have hpass := sortPass_sorting h hfinish
        refine ih hpass ?_
        have := hpass.last
        omega

/-- Passes end by themselves: `finish` of them are enough, and more change nothing. -/
theorem sortPasses_fuel {fuel finish : ℕ} (hfuel : finish ≤ fuel) (extra : ℕ) (st : SortState) :
    sortPasses (fuel + extra) finish st = sortPasses fuel finish st := by
  have hlast : ∀ (steps : List ℕ) (st : SortState) (bound : ℕ), st.last ≤ bound →
      (∀ i ∈ steps, i ≤ bound) → (steps.foldl sortStep st).last ≤ bound := by
    intro steps
    induction steps with
    | nil => exact fun _ _ hst _ => hst
    | cons i steps ih =>
        intro st bound hst hin
        refine ih _ bound ?_ fun j hj => hin j (List.mem_cons_of_mem _ hj)
        unfold sortStep
        split_ifs
        · exact hin i List.mem_cons_self
        · exact hst
  induction fuel generalizing finish st with
  | zero =>
      have hdone : finish ≤ 1 := by omega
      cases extra with
      | zero => rfl
      | succ extra => simp [sortPasses, hdone]
  | succ fuel ih =>
      rw [show fuel + 1 + extra = fuel + extra + 1 by omega, sortPasses, sortPasses]
      split_ifs
      · rfl
      · refine ih ?_ _
        have hpass : (sortPass st finish).last ≤ finish - 1 :=
          hlast _ _ _ (Nat.zero_le _) fun i hi => by
            have := (List.mem_range'_1.1 hi).2
            omega
        omega

/-- **The order names every slot once.** -/
theorem enrollmentInitialOrder_perm {scores : List UInt16} {scoreCount used capacity : ℕ}
    (hcapacity : 2 ≤ capacity) (hmax : capacity ≤ 65535) (hused : used ≤ capacity)
    (hscores : edgeCount capacity ≤ scoreCount) :
    ∃ order, enrollmentInitialOrder scores scoreCount used capacity capacity = some order ∧
      order.Perm ((List.range capacity).map UInt16.ofNat) := by
  unfold enrollmentInitialOrder
  rw [if_neg (by omega)]
  refine ⟨_, rfl, (sortPasses_sorting used ⟨List.Perm.refl _, Or.inl rfl⟩ ?_).perm⟩
  rw [List.length_map, List.length_range]
  exact hused

/-! ### The captures that come back -/

/-- The arrays of a stored view are those of the view, where its flags select them. -/
theorem selected_arrays {view : CapturePayloadView} (h : view.Fits defaultFlags) :
    (view.selected defaultFlags).compactCoordinates.getD [] = view.compactCoordinates.getD [] ∧
      (view.selected defaultFlags).descriptors.getD [] = view.descriptors.getD [] ∧
      (view.selected defaultFlags).membership.getD [] = view.membership.getD [] := by
  have hsizes := default_sizes view
  refine ⟨loadedArray_getD fun hzero => ?_, loadedArray_getD fun hzero => ?_,
    loadedArray_getD fun hzero => ?_⟩
  · rw [hsizes] at hzero
    exact List.length_eq_zero_iff.1 ((h.compact rfl).trans hzero)
  · rw [hsizes] at hzero
    exact List.length_eq_zero_iff.1 ((h.descriptors rfl).trans hzero)
  · rw [hsizes] at hzero
    exact List.length_eq_zero_iff.1 ((h.membership rfl).trans hzero)

/-- A stored capture has the features of a prepared image, all of them members. -/
structure HoldsImage (view : CapturePayloadView) (prepared : PreparedCapture) : Prop where
  count : view.count = prepared.features.length
  coordinates : view.compactCoordinates.getD [] = prepared.features.flatMap fun f => [f.x, f.y]
  descriptors :
    view.descriptors.getD [] = prepared.features.flatMap fun f => f.descriptor.toList
  members : ∀ i < view.count, memberBit (view.membership.getD []) i = true

theorem holdsImage_selected {view : CapturePayloadView} {prepared : PreparedCapture}
    (hfits : view.Fits defaultFlags) (h : HoldsImage view prepared) :
    HoldsImage (view.selected defaultFlags) prepared := by
  obtain ⟨hcoordinates, hdescriptors, hmembership⟩ := selected_arrays hfits
  exact ⟨h.count, hcoordinates.trans h.coordinates, hdescriptors.trans h.descriptors,
    fun i hi => by rw [hmembership]; exact h.members i hi⟩

variable {F : Type} {floats : EnrollmentFloats F}

theorem preparedView_holds (prepared : PreparedCapture) :
    HoldsImage (preparedView prepared true) prepared :=
  ⟨rfl, rfl, rfl, fun i hi => by
    show memberBit (initialMembership prepared.features.length true) i = true
    rw [memberBit_initialMembership]
    exact decide_eq_true hi⟩

theorem enrolledCapture_view {call : EnrollmentCall F}
    (hfew : call.prepared.features.length ≤ 300) :
    (enrolledCapture call).view.Fits defaultFlags ∧
      HoldsImage (enrolledCapture call).view call.prepared.toPreparedCapture ∧
      captureCompatible (enrolledCapture call).view = true := by
  have hcapture := captureFromPrepared_total hfew true call.fresh
  have hfits := (captureFromPrepared_sound hcapture).2.2
  refine ⟨hfits, holdsImage_selected (preparedView_fits hfew true) (preparedView_holds _), ?_⟩
  exact captureCompatible_iff.2 ⟨rfl, rfl, rfl, hfew⟩

/-! ### The order of a valid template -/

/-- An order that names no slot twice is valid. -/
theorem orderValid_of_nodup {slots : List UInt16} {seen : List ℕ}
    (hnodup : (slots.map UInt16.toNat).Nodup) (hin : ∀ slot ∈ slots, slot.toNat < 32)
    (hfresh : ∀ slot ∈ slots, slot.toNat ∉ seen) : orderValid slots seen = true := by
  induction slots generalizing seen with
  | nil => rfl
  | cons slot slots ih =>
      rw [List.map_cons, List.nodup_cons] at hnodup
      have hslot := hin slot List.mem_cons_self
      have hnew := hfresh slot List.mem_cons_self
      rw [orderValid, if_neg (by simp only [hnew, or_false]; omega)]
      refine ih hnodup.2 (fun other hother => hin other (List.mem_cons_of_mem _ hother)) ?_
      intro other hother hseen
      rcases List.mem_cons.1 hseen with heq | hseen
      · exact hnodup.1 (heq ▸ List.mem_map_of_mem hother)
      · exact hfresh other (List.mem_cons_of_mem _ hother) hseen

/-- The slots of a full order, in words, are the first thirty-two numbers. -/
theorem order_toNat {order : List UInt16}
    (h : order.Perm ((List.range 32).map UInt16.ofNat)) :
    (order.map UInt16.toNat).Perm (List.range 32) := by
  have hmap := h.map UInt16.toNat
  have hback : ((List.range 32).map UInt16.ofNat).map UInt16.toNat = List.range 32 := rfl
  rwa [hback] at hmap

theorem order_valid {order : List UInt16}
    (h : (order.map UInt16.toNat).Perm (List.range 32)) : orderValid (order.take 32) [] = true := by
  have hlength : order.length = 32 := by
    have hmap := h.length_eq
    rwa [List.length_map, List.length_range] at hmap
  rw [List.take_of_length_le hlength.le]
  refine orderValid_of_nodup (h.nodup_iff.2 List.nodup_range) (fun slot hslot => ?_) nofun
  exact List.mem_range.1 (h.mem_iff.1 (List.mem_map_of_mem hslot))

/-! ### Writing and loading -/

/-- A template that passes the checks is written and loaded back, and passes them again. -/
theorem LoadedTemplate.Accepted.reload {t : LoadedTemplate} (h : t.Accepted) (fresh : ℕ) :
    (templateSize t.graph t.collection.views 32 32 >>= fun bytes =>
      templateSerializeDefault t.graph t.collection.views 32 t.metadata 32 bytes >>= fun payload =>
        templateLoadDefault payload 32 fresh) =
      .ok ⟨t.graph, ⟨loadedCaptures fresh t.collection.views 0, 32⟩, t.metadata⟩ ∧
    LoadedTemplate.Accepted
      ⟨t.graph, ⟨loadedCaptures fresh t.collection.views 0, 32⟩, t.metadata⟩ := by
  have hchecked := checkTemplate_eq_ok.1 h.check
  have hfits := h.consistent.fits (lt_of_le_of_lt h.total_le (by norm_num))
  rw [hchecked.collection] at hfits
  have hload : templateLoadDefault
      (templateBytes t.graph t.collection.views 32 t.metadata 32) 32 fresh = _ :=
    templateLoadDefault_templateBytes hfits fresh
  refine ⟨?_, (templateLoadDefault_sound hload).1, checkTemplate_eq_ok.2 ?_⟩
  · rw [templateSize_eq hfits, ok_bind, templateSerializeDefault_eq t.metadata hfits le_rfl,
      ok_bind, hload]
  · have hviews := loadedCaptures_views fresh t.collection.views 0
    have hlength := congrArg List.length hviews
    rw [List.length_map, List.length_map, LoadedCollection.views, List.length_map] at hlength
    refine ⟨hchecked.graph, rfl, hlength ▸ hchecked.count, hchecked.order,
      hchecked.protectedCount, hchecked.protectedLimit, fun c hc => ?_⟩
    -- the numbers that are checked are written and read as they are
    have hview := List.mem_map_of_mem (f := LoadedCapture.view) hc
    rw [hviews] at hview
    obtain ⟨view, hview, hselected⟩ := List.mem_map.1 hview
    obtain ⟨stored, hstored, rfl⟩ := List.mem_map.1 hview
    rw [← hselected]
    exact hchecked.compatible stored hstored

/-! ### The template of a session -/

/-- Progress is complete from the seventh capture on only. -/
theorem nativeEnrollmentAdd_seven {s : NativeEnrollment F} {accepted : List (EnrollmentCall F)}
    (hcount : s.count ≤ 13) (hsound : s.failed = false → s.Sound accepted)
    (hseven : s.quality.progress.complete = true → 7 ≤ s.count) (call : EnrollmentCall F)
    (halive : (nativeEnrollmentAdd floats s call).session.failed = false)
    (hcomplete : (nativeEnrollmentAdd floats s call).session.quality.progress.complete = true) :
    7 ≤ (nativeEnrollmentAdd floats s call).session.count := by
  rcases nativeEnrollmentAdd_cases floats s call with ⟨-, ho⟩ | ⟨-, -, ho⟩ | ⟨-, -, hstop, ho⟩ |
    ⟨hlive, hroom, -, ⟨status, a, hrun, ho⟩ | ⟨a, hrun, ho⟩⟩
  · rw [ho] at hcomplete ⊢
    exact hseven hcomplete
  · rw [ho] at hcomplete ⊢
    exact hseven hcomplete
  · rw [ho] at hcomplete ⊢
    rcases enrollmentQuality_cases floats call.prepared.confidence call.prepared.coverage
      call.prepared.quality s.count (s.latestArea floats) s.metrics.normalizedMotion
      s.metrics.relativeAreaChange s.quality with ⟨-, hstate⟩ | ⟨hzero, hflags, -⟩ |
      ⟨-, -, hprogress⟩
    · have hgate : (enrollmentGate floats s call).state.progress.complete = true := hcomplete
      rw [enrollmentGate, hstate] at hgate
      exact hseven hgate
    · exact absurd ⟨hzero, hflags⟩ hstop
    · -- a rejection computes the progress from the count there is
      rcases (enrollmentProgress_complete hcount hprogress).1 hcomplete with hfull | ⟨hle, -⟩
      · exact hfull ▸ (by decide : 7 ≤ 13)
      · exact hle
  · rw [ho] at halive
    cases halive
  · have hgated : (gatedSession floats s call).session.Sound accepted :=
      (hsound hlive).withRest s.groups s.roots s.transforms s.grouping s.metrics _
        s.insufficientMovement
    obtain ⟨hnext, _, _, _, _, hprogress⟩ := enrollImage_sound hgated hroom hrun
    rw [ho] at hcomplete ⊢
    rcases (enrollmentProgress_complete hnext.count_le hprogress).1 hcomplete with hfull | ⟨hle, -⟩
    · exact hfull ▸ (by decide : 7 ≤ 13)
    · exact hle

theorem enrollAll_seven (calls : List (EnrollmentCall F))
    (halive : (enrollAll floats calls).failed = false)
    (hcomplete : (enrollAll floats calls).quality.progress.complete = true) :
    7 ≤ (enrollAll floats calls).count := by
  induction calls using List.reverseRecOn with
  | nil => cases hcomplete
  | append_singleton calls call ih =>
      have hlast : enrollAll floats (calls ++ [call]) =
          (nativeEnrollmentAdd floats (enrollAll floats calls) call).session :=
        enrollFrom_append _ calls [call]
      rw [hlast] at halive hcomplete ⊢
      obtain ⟨hcount, hsound⟩ := enrollAll_sound floats calls
      by_cases hbefore : (enrollAll floats calls).failed = true
      · have hsame := (nativeEnrollmentAdd_grows floats _ call).failed hbefore
        rw [hsame, hbefore] at halive
        cases halive
      · exact nativeEnrollmentAdd_seven hcount hsound
          (ih (Bool.not_eq_true _ ▸ hbefore)) call halive hcomplete

/-- The slots in use hold the accepted captures. -/
theorem NativeEnrollment.Sound.captures_take {s : NativeEnrollment F}
    {accepted : List (EnrollmentCall F)} (h : s.Sound accepted) :
    s.captures.take s.count = accepted.map enrolledCapture := by
  refine List.ext_getElem? fun i => ?_
  rw [List.getElem?_map, h.count]
  by_cases hi : i < accepted.length
  · rw [List.getElem?_take_of_lt hi, List.getElem?_eq_getElem hi, Option.map_some]
    exact (h.stored i _ (List.getElem?_eq_getElem hi)).1
  · rw [List.getElem?_take_eq_none (not_lt.1 hi), List.getElem?_eq_none (not_lt.1 hi),
      Option.map_none]

/-- The graph of a session, before it is written. -/
structure SessionGraph (s : NativeEnrollment F) (graph : RetainedGraph) : Prop where
  fits : graph.Fits 32
  capacity : graph.capacity = 32
  used : graph.used.toNat = s.count
  protectedCount : graph.protectedCount = 8
  protectedLimit : graph.protectedLimit = 8
  edges : ∀ earlier later, earlier < later → later < s.count →
    graph.edge earlier later = some (s.spatialScores.getD (Triangle.append later earlier) 0)
  order : ∃ order, graph.order = some order ∧ (order.map UInt16.toNat).Perm (List.range 32)

/-- **The graph of a session**: every step of finishing it succeeds. -/
theorem sessionGraph {s : NativeEnrollment F} {accepted : List (EnrollmentCall F)}
    (h : s.Sound accepted) (hseven : 7 ≤ s.count) :
    ∃ created order, retainedGraphCreate s.spatialScores s.pairCount s.count 32 8 = some created ∧
      enrollmentInitialOrder (created.scores.getD []) created.scoreCount created.used.toNat
        created.capacity.toNat created.capacity.toNat = some order ∧
      SessionGraph s { created with order := some order } := by
  have hcount := h.count_le
  have hpairs : s.pairCount = s.count * (s.count - 1) / 2 := h.pairCount
  have hcapacity : max s.count (32 : UInt8).toNat = 32 := max_eq_right (hcount.trans (by decide))
  have hroom : s.count ≤ 32 := hcount.trans (by decide)
  have hused : (UInt16.ofNat s.count).toNat = s.count :=
    UInt16.toNat_ofNat_of_lt (by rw [UInt16.size]; omega)
  have hpacked : Packed s.spatialScores 32 s.count 0 (packScores s.spatialScores s.count 32) :=
    packScores_packed hroom (by decide)
  obtain ⟨order, horder, hperm⟩ : ∃ order,
      enrollmentInitialOrder (packScores s.spatialScores s.count 32) (edgeCount 32) s.count 32 32 =
        some order ∧ order.Perm ((List.range 32).map UInt16.ofNat) :=
    enrollmentInitialOrder_perm (by decide) (by decide) hroom le_rfl
  have hlength : order.length = 32 := by
    rw [hperm.length_eq, List.length_map, List.length_range]
  have hcreate : ¬(80 < s.count ∨ 1 < s.count ∧ s.pairCount < s.count * (s.count - 1) / 2) := by
    omega
  refine ⟨{
    scores := some (packScores s.spatialScores s.count 32)
    order := some ((List.range 32).map UInt16.ofNat)
    ages := some (List.replicate 32 64)
    scoreCount := edgeCount 32
    ageCount := 32
    used := UInt16.ofNat s.count
    capacity := 32
    protectedCount := 8
    protectedLimit := 8
    ageThreshold := 96 }, order, ?_, ?_, ?_⟩
  · rw [retainedGraphCreate, if_neg hcreate, hcapacity, if_neg (by decide)]
    rfl
  · rw [hused]
    exact horder
  · refine ⟨⟨?_, ?_, ?_, (by decide : 2 ≤ 32), ⟨order, rfl, hlength⟩,
      ⟨_, rfl, hpacked.length⟩, rfl, ⟨_, rfl, List.length_replicate⟩, rfl⟩, rfl, hused, rfl, rfl,
      fun earlier later hlt hlater => ?_, ⟨order, rfl, order_toNat hperm⟩⟩
    · rw [hused]
      omega
    · rw [hused]
      omega
    · rw [hused]
      exact hroom
    · have hindex : enrollmentPairIndex 32 earlier later = some (Triangle.row 32 earlier later) :=
        enrollmentPairIndex_eq hlt (by omega) (by decide)
      have hedge := hpacked.edges earlier later hlt (Or.inl hlater)
      rw [RetainedGraph.edge]
      exact (congrArg (Option.bind · _) hindex).trans hedge

/-- What the template of a finished session holds: the accepted captures in order, the scores that
were recorded for them, and an order of all slots. -/
structure EnrolledTemplate (s : NativeEnrollment F) (accepted : List (EnrollmentCall F))
    (t : LoadedTemplate) : Prop where
  count : t.collection.captures.length = accepted.length
  captures : ∀ (i : ℕ) (call : EnrollmentCall F), accepted[i]? = some call →
    ∃ capture, t.collection.captures[i]? = some capture ∧
      HoldsImage capture.view call.prepared.toPreparedCapture
  capacity : t.graph.capacity = 32
  used : t.graph.used.toNat = accepted.length
  edges : ∀ (earlier later : ℕ) (earlierCall laterCall : EnrollmentCall F), earlier < later →
    accepted[earlier]? = some earlierCall → accepted[later]? = some laterCall →
      ∃ v, pairMatch (enrolledCapture earlierCall) (enrolledCapture laterCall) = some v ∧
        s.spatialScores[later * (later - 1) / 2 + earlier]? =
          some (UInt16.ofNat v.result.spatialInliers) ∧
        t.graph.edge earlier later = some (UInt16.ofNat v.result.spatialInliers)
  order : ∃ order, t.graph.order = some order ∧ (order.map UInt16.toNat).Perm (List.range 32)

/-- The template that a session writes passes the checks. -/
theorem SessionGraph.accepted {s : NativeEnrollment F} {accepted : List (EnrollmentCall F)}
    {graph : RetainedGraph} (hgraph : SessionGraph s graph) (h : s.Sound accepted) :
    LoadedTemplate.Accepted ⟨graph, ⟨accepted.map enrolledCapture, 32⟩, 0⟩ := by
  have hcount : (accepted.map enrolledCapture).length = s.count := by
    rw [List.length_map, h.count]
  have hle : (accepted.map enrolledCapture).length ≤ 32 :=
    hcount ▸ h.count_le.trans (by decide)
  have hviews : ∀ c ∈ accepted.map enrolledCapture,
      c.view.Fits defaultFlags ∧ captureCompatible c.view = true := by
    intro c hc
    obtain ⟨call, hcall, rfl⟩ := List.mem_map.1 hc
    obtain ⟨hfits, -, hcompatible⟩ := enrolledCapture_view (h.few call hcall)
    exact ⟨hfits, hcompatible⟩
  obtain ⟨order, horder, hperm⟩ := hgraph.order
  refine ⟨⟨hgraph.fits, by decide, fun c hc => (hviews c hc).1, hgraph.used.trans hcount.symm, hle,
    (by decide : 32 ≤ 65535)⟩, checkTemplate_eq_ok.2 ⟨hgraph.capacity, rfl, hle, ?_, ?_, ?_,
      fun c hc => (hviews c hc).2⟩⟩
  · show orderValid ((graph.order.getD []).take 32) [] = true
    rw [horder]
    exact order_valid hperm
  · rw [hgraph.protectedCount]
    decide
  · rw [hgraph.protectedLimit]
    decide

/-- The captures that come back are those that were stored. -/
theorem loadedCaptures_holds {accepted : List (EnrollmentCall F)}
    (hfew : ∀ call ∈ accepted, call.prepared.features.length ≤ 300) (fresh : ℕ) {i : ℕ}
    {call : EnrollmentCall F} (hcall : accepted[i]? = some call) :
    ∃ capture, (loadedCaptures fresh
        ((accepted.map enrolledCapture).map LoadedCapture.view) 0)[i]? = some capture ∧
      HoldsImage capture.view call.prepared.toPreparedCapture := by
  obtain ⟨hfits, hholds, -⟩ := enrolledCapture_view (hfew call (List.mem_of_getElem? hcall))
  have hviews := congrArg (·[i]?) (loadedCaptures_views fresh
    ((accepted.map enrolledCapture).map LoadedCapture.view) 0)
  simp only [List.getElem?_map, hcall, Option.map_some] at hviews
  obtain ⟨capture, hcapture, hview⟩ := Option.map_eq_some_iff.1 hviews
  exact ⟨capture, hcapture, hview ▸ holdsImage_selected hfits hholds⟩

/-- **A completed enrollment yields a template the storage accepts, with nothing lost.** -/
theorem enrollment_finish (floats : EnrollmentFloats F) (calls : List (EnrollmentCall F))
    (halive : (enrollAll floats calls).failed = false)
    (hcomplete : (enrollAll floats calls).quality.progress.complete = true) (fresh : ℕ) :
    ∃ t, nativeEnrollmentFinish (enrollAll floats calls) false fresh = .ok t ∧
      EnrolledTemplate (enrollAll floats calls) (acceptedCalls floats calls) t ∧
      ∃ bytes, serializeNativeTemplate t = .ok bytes ∧ validateNative bytes = .ok () := by
  have hsound := (enrollAll_sound floats calls).2 halive
  obtain ⟨created, order, hcreate, horder, hgraph⟩ :=
    sessionGraph hsound (enrollAll_seven calls halive hcomplete)
  have haccepted := hgraph.accepted hsound
  obtain ⟨hreload, hagain⟩ := haccepted.reload fresh
  refine ⟨_, ?_, ?_, serializeNativeTemplate_accepted hagain⟩
  · rw [nativeEnrollmentFinish, halive, hcomplete, if_neg (by decide), hcreate]
    dsimp only
    rw [horder]
    dsimp only
    rw [hsound.captures_take]
    exact hreload
  · have hlength := congrArg List.length (loadedCaptures_views fresh
      ((acceptedCalls floats calls).map enrolledCapture |>.map LoadedCapture.view) 0)
    rw [List.length_map, List.length_map, List.length_map, List.length_map] at hlength
    refine ⟨hlength, fun i call hcall => loadedCaptures_holds hsound.few fresh hcall,
      hgraph.capacity, hgraph.used.trans hsound.count, ?_, hgraph.order⟩
    intro earlier later earlierCall laterCall hlt hearlier hlater
    obtain ⟨v, hv, -, hscore⟩ := hsound.pairs later earlier _ _ hlt hlater hearlier
    have hin : later < (enrollAll floats calls).count := by
      rw [hsound.count]
      exact (List.getElem?_eq_some_iff.1 hlater).1
    have hedge := hgraph.edges earlier later hlt hin
    rw [List.getD_eq_getElem?_getD, hscore] at hedge
    exact ⟨v, hv, hscore, hedge⟩

/-- Comparisons that find every image to have moved far enough. -/
def settledFloats : EnrollmentFloats Unit where
  zero := ()
  nonneg _ := true
  moves _ := true
  settled _ := true
  wide _ := true
  still _ _ := false

/-- A call with an image of three features that passes the quality gate. -/
def plainCall : EnrollmentCall Unit where
  prepared := ⟨⟨100, 100, 100, (gridFeatures 0).take 3⟩, Vector.replicate 352 0⟩
  fresh := 0
  storageAllocated := true
  buffersAllocated _ := true
  rebuildCaptureGroups s flags := ⟨0, s.groups, s.roots, s.transforms, s.grouping, flags⟩
  computeEnrollmentMetrics s := (0, s.metrics)

/-- Seven such images complete an enrollment. -/
theorem enrollment_finish_seven :
    ∃ t, nativeEnrollmentFinish (enrollAll settledFloats (List.replicate 7 plainCall)) false 0 =
        .ok t ∧
      EnrolledTemplate (enrollAll settledFloats (List.replicate 7 plainCall))
        (acceptedCalls settledFloats (List.replicate 7 plainCall)) t ∧
      ∃ bytes, serializeNativeTemplate t = .ok bytes ∧ validateNative bytes = .ok () :=
  enrollment_finish settledFloats (List.replicate 7 plainCall) (by decide +kernel)
    (by decide +kernel) 0

end Fpc
