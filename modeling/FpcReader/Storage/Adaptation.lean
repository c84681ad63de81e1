/-
**Adapted templates are accepted again.**

A template that passed the checks when it was loaded passes them again after a verification has
adapted it: it is consistent, it keeps its capacities and its order, its protection stays in range,
and the capture it may have taken in is one the profile-300 matcher can use.  Its serialized form is
therefore there, is small enough, and validates.

Main definitions:

* `Fpc.LoadedTemplate.Accepted` — a template that passed the checks.

Main results:

* `Fpc.serializeNativeTemplate_accepted` — **an accepted template is written and validates**;
* `Fpc.adaptTemplate_accepted` — **adapting keeps a template accepted**.
-/

import FpcReader.Native.MembershipFrame
import FpcReader.Native.UpdateSound
import FpcReader.Storage.Operations

set_option relaxedAutoImplicit false
set_option autoImplicit false

namespace Fpc

open Bytes

/-! ### Accepted templates -/

/-- A consistent template that passes the checks of the storage. -/
structure LoadedTemplate.Accepted (t : LoadedTemplate) : Prop where
  consistent : t.Consistent 32
  check : checkTemplate t = .ok ()

/-- What the checks establish. -/
structure LoadedTemplate.Checked (t : LoadedTemplate) : Prop where
  graph : t.graph.capacity = 32
  collection : t.collection.capacity = 32
  count : t.collection.captures.length ≤ 32
  order : orderValid ((t.graph.order.getD []).take 32) [] = true
  protectedCount : t.graph.protectedCount.toNat ≤ 32
  protectedLimit : t.graph.protectedLimit.toNat ≤ 32
  compatible : ∀ c ∈ t.collection.captures, captureCompatible c.view = true

theorem checkTemplate_eq_ok {t : LoadedTemplate} : checkTemplate t = .ok () ↔ t.Checked := by
  constructor
  · intro h
    unfold checkTemplate at h
    split_ifs at h with hcapacity horder hprotected hcompatible
    push Not at hcapacity hprotected
    exact {
      graph := hcapacity.1
      collection := hcapacity.2.1
      count := hcapacity.2.2
      order := by simpa using horder
      protectedCount := hprotected.1
      protectedLimit := hprotected.2
      compatible := by simpa using hcompatible }
  · intro h
    have hcapacity : ¬(t.graph.capacity ≠ 32 ∨ t.collection.capacity ≠ 32 ∨
        32 < t.collection.captures.length) := by
      have := h.count
      simp only [h.graph, h.collection, ne_eq, not_true_eq_false, false_or, not_lt]
      exact this
    have hprotected : ¬(32 < t.graph.protectedCount.toNat ∨ 32 < t.graph.protectedLimit.toNat) := by
      have := h.protectedCount
      have := h.protectedLimit
      omega
    have hcompatible : (t.collection.captures.all fun c => captureCompatible c.view) = true :=
      List.all_eq_true.2 h.compatible
    rw [checkTemplate, if_neg hcapacity, h.order, if_neg (by simp), if_neg hprotected, hcompatible,
      if_neg (by simp)]

/-- The checks look at the graph, the capacity and the views. -/
theorem LoadedTemplate.Checked.congr {t t' : LoadedTemplate} (h : t.Checked)
    (hgraph : t'.graph = t.graph) (hviews : t'.collection.views = t.collection.views)
    (hcapacity : t'.collection.capacity = t.collection.capacity) : t'.Checked := by
  have hlength : t'.collection.captures.length = t.collection.captures.length := by
    have := congrArg List.length hviews
    rwa [LoadedCollection.views, LoadedCollection.views, List.length_map, List.length_map] at this
  exact {
    graph := by rw [hgraph, h.graph]
    collection := by rw [hcapacity, h.collection]
    count := by rw [hlength]; exact h.count
    order := by rw [hgraph]; exact h.order
    protectedCount := by rw [hgraph]; exact h.protectedCount
    protectedLimit := by rw [hgraph]; exact h.protectedLimit
    compatible := fun c hc => by
      have hmem : c.view ∈ t.collection.views := hviews ▸ List.mem_map_of_mem hc
      obtain ⟨c', hc', heq⟩ := List.mem_map.1 hmem
      rw [← heq]
      exact h.compatible c' hc' }

theorem captureCompatible_iff {view : CapturePayloadView} :
    captureCompatible view = true ↔
      view.mode = 1 ∧ view.descriptorBytes = 16 ∧ view.levels = 1 ∧ view.count ≤ 300 := by
  rw [captureCompatible, decide_eq_true_eq]

/-- Bytes that validate load into an accepted template, wherever it is put. -/
theorem validateNative_load {bytes : List UInt8} (h : validateNative bytes = .ok ())
    (fresh : ℕ) : ∃ t, templateLoadDefault bytes 32 fresh = .ok t ∧ t.Accepted := by
  unfold validateNative at h
  split_ifs at h
  split at h
  · cases h
  · rename_i t hload
    obtain ⟨moved, hmoved, hgraph, hviews, hcapacity⟩ := templateLoadDefault_fresh hload fresh
    refine ⟨moved, hmoved, (templateLoadDefault_sound hmoved).1, ?_⟩
    exact checkTemplate_eq_ok.2 ((checkTemplate_eq_ok.1 h).congr hgraph hviews hcapacity)

/-! ### Size -/

/-- The block of a compatible capture. -/
theorem compatible_size_le {view : CapturePayloadView} (h : captureCompatible view = true) :
    8 + (view.sizes defaultFlags).total + 12 ≤ 5978 := by
  obtain ⟨-, hbytes, hlevels, hcount⟩ := captureCompatible_iff.1 h
  have hextra : extraWords view.tableWidth ≤ 255 := by
    have := view.tableWidth.toNat_lt
    unfold extraWords
    split_ifs <;> omega
  rw [default_sizes, hbytes, hlevels]
  simp only [SectionSizes.total, UInt8.reduceToNat]
  omega

theorem captureBytes_le {views : List CapturePayloadView}
    (h : ∀ view ∈ views, captureCompatible view = true) :
    captureBytes views ≤ views.length * 5978 := by
  have := List.sum_le_card_nsmul (views.map fun view => 8 + (view.sizes defaultFlags).total + 12)
    5978 (by
      intro n hn
      obtain ⟨view, hview, rfl⟩ := List.mem_map.1 hn
      exact compatible_size_le (h view hview))
  rwa [List.length_map, smul_eq_mul] at this

/-- An accepted template is smaller than the limit of a stored one. -/
theorem LoadedTemplate.Accepted.total_le {t : LoadedTemplate} (h : t.Accepted) :
    templateTotal t.graph t.collection.views 32 ≤ 192500 := by
  have hchecked := checkTemplate_eq_ok.1 h.check
  have hcaptures : captureBytes t.collection.views ≤ t.collection.views.length * 5978 :=
    captureBytes_le fun view hview => by
      obtain ⟨c, hc, rfl⟩ := List.mem_map.1 hview
      exact hchecked.compatible c hc
  have hcount : t.collection.views.length ≤ 32 := by
    rw [LoadedCollection.views, List.length_map]
    exact hchecked.count
  have hedges : edgeCount (32 : UInt16).toNat = 496 := rfl
  have hcapacity : (32 : UInt16).toNat = 32 := rfl
  have hretention : (32 : UInt8).toNat = 32 := rfl
  rw [templateTotal, hchecked.graph, hedges, hcapacity, hretention]
  omega

/-! ### Writing an accepted template -/

/-- The bytes of a template. -/
def LoadedTemplate.bytes (t : LoadedTemplate) : List UInt8 :=
  templateBytes t.graph t.collection.views t.collection.capacity t.metadata 32

/-- The bytes of an accepted template are few, and they load. -/
theorem LoadedTemplate.Accepted.load {t : LoadedTemplate} (h : t.Accepted) (fresh : ℕ) :
    t.bytes.length ≤ 200000 ∧ templateLoadDefault t.bytes 32 fresh =
      .ok ⟨t.graph, ⟨loadedCaptures fresh t.collection.views 0, t.collection.capacity⟩,
        t.metadata⟩ := by
  have htotal := h.total_le
  have hfits := h.consistent.fits (lt_of_le_of_lt htotal (by norm_num))
  refine ⟨?_, templateLoadDefault_templateBytes hfits fresh⟩
  rw [LoadedTemplate.bytes, templateBytes_length hfits]
  omega

/-- The bytes of an accepted template validate. -/
theorem LoadedTemplate.Accepted.valid {t : LoadedTemplate} (h : t.Accepted) :
    validateNative t.bytes = .ok () := by
  have hchecked := checkTemplate_eq_ok.1 h.check
  obtain ⟨hlength, hload⟩ := h.load 0
  rw [validateNative, if_neg (not_lt.2 hlength), hload]
  refine checkTemplate_eq_ok.2 ?_
  exact {
    graph := hchecked.graph
    collection := hchecked.collection
    count := by
      show (loadedCaptures 0 t.collection.views 0).length ≤ 32
      rw [loadedCaptures_length, LoadedCollection.views, List.length_map]
      exact hchecked.count
    order := hchecked.order
    protectedCount := hchecked.protectedCount
    protectedLimit := hchecked.protectedLimit
    compatible := fun c hc => by
      have hmem : c.view ∈ t.collection.views.map fun view => view.selected defaultFlags := by
        rw [← loadedCaptures_views 0 t.collection.views 0]
        exact List.mem_map_of_mem hc
      obtain ⟨view, hview, heq⟩ := List.mem_map.1 hmem
      obtain ⟨c', hc', rfl⟩ := List.mem_map.1 hview
      rw [← heq]
      exact hchecked.compatible c' hc' }

/-- **An accepted template is written, and what is written validates.** -/
theorem serializeNativeTemplate_accepted {t : LoadedTemplate} (h : t.Accepted) :
    ∃ bytes, serializeNativeTemplate t = .ok bytes ∧ validateNative bytes = .ok () := by
  have htotal := h.total_le
  have hfits := h.consistent.fits (lt_of_le_of_lt htotal (by norm_num))
  refine ⟨t.bytes, ?_, h.valid⟩
  have hsize := templateSize_eq hfits
  have hwrite := templateSerializeDefault_eq t.metadata hfits le_rfl
  rw [LoadedCollection.views] at hsize hwrite
  rw [serializeNativeTemplate]
  rw [hsize]
  simp only [hwrite]
  rfl

/-! ### Adapting -/

/-- The capture of a query, with the bits that matching has set in its bitmap. -/
structure LoadedCapture.IsProbe (probe : LoadedCapture) : Prop where
  fits : probe.view.Fits defaultFlags
  compatible : captureCompatible probe.view = true

theorem captureFromPrepared_isProbe {query : PreparedCapture} {fresh : ℕ} {probe : LoadedCapture}
    (h : captureFromPrepared query false fresh = .ok probe) : probe.IsProbe := by
  obtain ⟨hcount, rfl, hfits⟩ := captureFromPrepared_sound h
  exact ⟨hfits, captureCompatible_iff.2 ⟨rfl, rfl, rfl, hcount⟩⟩

theorem LoadedCapture.IsProbe.withMembership {probe : LoadedCapture} (h : probe.IsProbe)
    {membership : List UInt8}
    (hlength : membership.length = (probe.view.membership.getD []).length) :
    (probe.withMembership membership).IsProbe := by
  refine ⟨{ h.fits with membership := fun hf => ?_ }, h.compatible⟩
  have hold := h.fits.membership hf
  show ((probe.view.membership.map fun _ => membership).getD []).length = _
  cases hmembership : probe.view.membership with
  | none =>
      rw [hmembership] at hold
      exact hold
  | some old =>
      rw [Option.map_some, Option.getD_some, hlength, hold]
      rfl

/-- **Adapting a template that passed the checks gives one that passes them.** -/
theorem adaptTemplate_accepted {t adapted : LoadedTemplate} {probe : LoadedCapture}
    {query : PreparedCapture} {result : IdentificationResult} {membership : List UInt8}
    {changed : Bool} (h : t.Accepted) (hprobe : probe.IsProbe)
    (hlength : membership.length = (probe.view.membership.getD []).length)
    (hadapt : adaptTemplate t probe query result membership = .ok (adapted, changed)) :
    adapted.Accepted := by
  unfold adaptTemplate at hadapt
  split at hadapt
  · cases hadapt
  · rename_i found matched hmatch
    have hchecked := checkTemplate_eq_ok.1 h.check
    have hmatched := hprobe.withMembership
      ((matchProfile300Collection_membership hmatch).trans hlength)
    have hcapacity : t.graph.capacity.toNat ≤ 80 := by
      rw [hchecked.graph]
      decide
    dsimp only at hadapt
    split_ifs at hadapt with hstatus
    obtain ⟨rfl, -⟩ := Prod.mk.inj (Except.ok.inj hadapt)
    obtain ⟨hconsistent, hkept⟩ :=
      updateTemplateAfterMatch_sound h.consistent hcapacity hmatched.fits (not_not.1 hstatus)
    refine ⟨hconsistent, checkTemplate_eq_ok.2 ?_⟩
    have hprotection : adaptationPolicy.protection.toNat ≤ 32 := by decide
    exact {
      graph := hkept.capacity.trans hchecked.graph
      collection := hkept.collection.trans hchecked.collection
      count := by
        have := hconsistent.count_le
        rwa [hkept.collection, hchecked.collection] at this
      order := by rw [hkept.order]; exact hchecked.order
      protectedCount := hkept.protectedCount.elim (fun heq => heq ▸ hchecked.protectedCount)
        fun heq => heq ▸ hprotection
      protectedLimit := hkept.protectedLimit.elim (fun heq => heq ▸ hchecked.protectedLimit)
        fun heq => heq ▸ hprotection
      compatible := fun c hc => (hkept.captures c hc).elim (hchecked.compatible c)
        fun heq => heq ▸ hmatched.compatible }

/-! ### Templates of captures on a grid -/

/-- Eighteen features on a grid that is not quite regular, each with one bit of its own, all
moved by `shift` pixels. -/
def gridFeatures (shift : ℕ) : List PreparedFeature :=
  (List.range 18).map fun i =>
    ⟨UInt8.ofNat (6 + 16 * (i % 6) + i * i % 7 + shift),
      UInt8.ofNat (6 + 26 * (i / 6) + i * i % 5 + shift),
      Vector.ofFn fun j => if (j : ℕ) = i / 8 then UInt8.ofNat (2 ^ (i % 8)) else 0⟩

/-- A capture of them, good enough to be taken into a template. -/
def gridCapture (shift : ℕ) : PreparedCapture := ⟨100, 60, 80, gridFeatures shift⟩

theorem gridCapture_few (shift : ℕ) : (gridCapture shift).features.length ≤ 300 := by
  rw [gridCapture, gridFeatures, List.length_map, List.length_range]
  norm_num

/-- A template of `n` captures, the third and the twenty-first of them long unused. -/
def gridTemplate (n : ℕ) : LoadedTemplate where
  graph :=
    { scores := some (List.replicate 496 0)
      order := some ((List.range 32).map UInt16.ofNat)
      ages := some ((List.range 32).map fun i => if i = 2 ∨ i = 20 then 200 else 0)
      scoreCount := 496
      ageCount := 32
      used := UInt16.ofNat n
      capacity := 32
      protectedCount := 0
      protectedLimit := 0
      ageThreshold := 100 }
  collection := ⟨(List.range n).map fun i => ⟨preparedView (gridCapture (2 * i)) true, none⟩, 32⟩
  metadata := 0

theorem gridTemplate_accepted {n : ℕ} (hpos : 0 < n) (hn : n ≤ 32) : (gridTemplate n).Accepted := by
  have hused : (UInt16.ofNat n).toNat = n := by
    rw [UInt16.toNat_ofNat']
    omega
  have hcapacity : (32 : UInt16).toNat = 32 := rfl
  have hedges : 496 = edgeCount (32 : UInt16).toNat := by decide
  have hlength : (gridTemplate n).collection.captures.length = n := by
    rw [gridTemplate, List.length_map, List.length_range]
  have hviews : ∀ c ∈ (gridTemplate n).collection.captures,
      ∃ i, c = ⟨preparedView (gridCapture (2 * i)) true, none⟩ := by
    intro c hc
    obtain ⟨i, -, rfl⟩ := List.mem_map.1 hc
    exact ⟨i, rfl⟩
  have hgraph : (gridTemplate n).graph.Fits 32 := {
    used_pos := hused.symm ▸ hpos
    used_le := hused.symm ▸ hn.trans (by norm_num)
    used_le_capacity := hused.symm ▸ hn
    capacity := hcapacity.ge.trans' (by norm_num)
    order := ⟨_, rfl, rfl⟩
    scores := ⟨_, rfl, List.length_replicate.trans hedges⟩
    scoreCount := hedges
    ages := ⟨_, rfl, rfl⟩
    ageCount := rfl }
  refine ⟨⟨hgraph, by decide, ?_, hused.trans hlength.symm, hlength.le.trans hn, ?_⟩,
    checkTemplate_eq_ok.2 ⟨rfl, rfl, hlength.le.trans hn, ?_, ?_, ?_, ?_⟩⟩
  · intro c hc
    obtain ⟨i, rfl⟩ := hviews c hc
    exact preparedView_fits (gridCapture_few _) true
  · show (32 : ℕ) ≤ 65535
    norm_num
  · show orderValid (((List.range 32).map UInt16.ofNat).take 32) [] = true
    decide +kernel
  · exact Nat.zero_le _
  · exact Nat.zero_le _
  · intro c hc
    obtain ⟨i, rfl⟩ := hviews c hc
    exact captureCompatible_iff.2 ⟨rfl, rfl, rfl, gridCapture_few _⟩

/-- What loading its bytes gives. -/
def gridLoaded (n fresh : ℕ) : LoadedTemplate :=
  ⟨(gridTemplate n).graph, ⟨loadedCaptures fresh (gridTemplate n).collection.views 0, 32⟩, 0⟩

theorem gridTemplate_load {n : ℕ} (hpos : 0 < n) (hn : n ≤ 32) (fresh : ℕ) :
    templateLoadDefault (gridTemplate n).bytes 32 fresh = .ok (gridLoaded n fresh) :=
  ((gridTemplate_accepted hpos hn).load fresh).2

end Fpc
