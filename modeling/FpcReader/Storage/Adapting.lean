/-
**Adapting a template over and over.**

Every login may age a template and put the new capture into one slot: the next free one, or, once
all are used, one behind the protected part of the order.  So enrolled captures that are protected
stay for any number of logins, and the ages count the matches since a slot was matched or filled.

Main definitions:

* `Fpc.LoadedTemplate.Adaptable` — what an update needs of a template and keeps;
* `Fpc.LoadedTemplate.age`, `Fpc.LoadedTemplate.capturesWith` — the age of a slot, and the captures
  once one has come in;
* `Fpc.FreeSlot` — the slots an update may fill;
* `Fpc.AdaptCall`, `Fpc.adaptStep` — the updates of a run.

Main results:

* `Fpc.scanSlots_mem`, `Fpc.enrollmentSelectCapture_free` — the selected slot may be filled;
* `Fpc.updateTemplateAfterMatch_slot` — **an update fills at most one free slot and sets the ages**;
* `Fpc.adaptations_keep` — **what any run of updates keeps**.
-/

import FpcReader.Lib.Transition
import FpcReader.Storage.Adaptation

set_option relaxedAutoImplicit false
set_option autoImplicit false

namespace Fpc

/-! ### Selecting a slot -/

section Selecting

variable (cost : List UInt32) (ages : List UInt16) (ageThreshold : UInt16)

/-- The first scan takes one of the slots or none, and leaves some of them. -/
theorem scanSlots_mem (slots : List UInt16) (start : UInt32 × ℤ) :
    ((scanSlots cost ages ageThreshold slots start).1.2 = start.2 ∨
      ∃ slot ∈ slots, (scanSlots cost ages ageThreshold slots start).1.2 = (slot.toNat : ℤ)) ∧
        ∀ slot ∈ (scanSlots cost ages ageThreshold slots start).2, slot ∈ slots := by
  induction slots generalizing start with
  | nil => exact ⟨Or.inl rfl, nofun⟩
  | cons slot slots ih =>
      rw [scanSlots]
      dsimp only
      split_ifs with htake haged
      · refine ⟨Or.inr ⟨slot, List.mem_cons_self, rfl⟩, ?_⟩
        intro other hother
        exact List.mem_cons_of_mem _ hother
      · obtain ⟨hselected, hrest⟩ := ih (cost.getD slot.toNat 0, (slot.toNat : ℤ))
        refine ⟨?_, fun other hother => List.mem_cons_of_mem _ (hrest other hother)⟩
        rcases hselected with heq | ⟨other, hother, heq⟩
        · exact Or.inr ⟨slot, List.mem_cons_self, heq⟩
        · exact Or.inr ⟨other, List.mem_cons_of_mem _ hother, heq⟩
      · obtain ⟨hselected, hrest⟩ := ih start
        refine ⟨?_, fun other hother => List.mem_cons_of_mem _ (hrest other hother)⟩
        rcases hselected with heq | ⟨other, hother, heq⟩
        · exact Or.inl heq
        · exact Or.inr ⟨other, List.mem_cons_of_mem _ hother, heq⟩

/-- The second scan takes one of the slots or keeps what it has. -/
theorem scanAgedSlots_mem (slots : List UInt16) (start : UInt32 × ℤ) :
    (scanAgedSlots cost ages ageThreshold slots start).2 = start.2 ∨
      ∃ slot ∈ slots, (scanAgedSlots cost ages ageThreshold slots start).2 = (slot.toNat : ℤ) := by
  induction slots generalizing start with
  | nil => exact Or.inl rfl
  | cons slot slots ih =>
      rw [scanAgedSlots]
      rcases ih (if start.1 < cost.getD slot.toNat 0 ∧ ageThreshold ≤ ages.getD slot.toNat 0
        then (cost.getD slot.toNat 0, (slot.toNat : ℤ)) else start) with heq | ⟨other, hother, heq⟩
      · split_ifs at heq with htake
        · exact Or.inr ⟨slot, List.mem_cons_self, by rw [if_pos htake]; exact heq⟩
        · exact Or.inl (by rw [if_neg htake]; exact heq)
      · exact Or.inr ⟨other, List.mem_cons_of_mem _ hother, heq⟩

/-- A slot that an update may fill: the next one while there is one, and later one behind the first
`protection` slots of the order. -/
def FreeSlot (count capacity : ℕ) (order : List UInt16) (protection k : ℕ) : Prop :=
  (count < capacity ∧ k = count) ∨
    (count = capacity ∧ k < capacity ∧
      ∃ slot ∈ (order.take capacity).drop protection, slot.toNat = k)

/-- **The selected slot may be filled.** -/
theorem enrollmentSelectCapture_free {ageThreshold : UInt16}
    {graph order ages' : Option (List UInt16)} {graphSize count capacity protection : ℕ}
    {newScores : List UInt16} {selected : ℤ}
    (h : enrollmentSelectCapture graph graphSize count capacity newScores order ages' protection
      ageThreshold = some selected) :
    selected = -1 ∨ ∃ k : ℕ, selected = k ∧
      FreeSlot count capacity (order.getD []) protection k := by
  unfold enrollmentSelectCapture at h
  split_ifs at h with hbad hfree
  · obtain rfl := Option.some.inj h
    exact Or.inr ⟨count, rfl, Or.inl ⟨hfree, rfl⟩⟩
  · split at h
    · rename_i graph order ages'
      dsimp only at h
      split_ifs at h with hslots
      split at h
      · cases h
      · rename_i cost _
        have hcount : count = capacity := by omega
        have hin : ∀ slot ∈ (order.take capacity).drop protection, slot.toNat < count := by
          intro slot hslot
          by_contra hlarge
          refine hslots (Or.inr (List.any_eq_true.2 ⟨slot, List.mem_of_mem_drop hslot, ?_⟩))
          simpa using hlarge
        obtain ⟨hfirst, hrest⟩ := scanSlots_mem cost ages' ageThreshold
          ((order.take capacity).drop protection) (cost.getD count 0, -1)
        set scanned := scanSlots cost ages' ageThreshold ((order.take capacity).drop protection)
          (cost.getD count 0, -1) with hscanned
        have hslot : ∀ slot ∈ (order.take capacity).drop protection, selected = (slot.toNat : ℤ) →
            selected = -1 ∨ ∃ k : ℕ, selected = k ∧
              FreeSlot count capacity order protection k := fun slot hmem heq =>
          Or.inr ⟨slot.toNat, heq, Or.inr ⟨hcount, hcount ▸ hin slot hmem, slot, hmem, rfl⟩⟩
        have hselected := Option.some.inj h
        rcases scanAgedSlots_mem cost ages' ageThreshold
          scanned.2 scanned.1 with heq | ⟨slot, hmem, heq⟩
        · rcases hfirst with hstart | ⟨slot, hmem, hstart⟩
          · exact Or.inl (hselected.symm.trans (heq.trans hstart))
          · exact hslot slot hmem (hselected.symm.trans (heq.trans hstart))
        · exact hslot slot (hrest slot hmem) (hselected.symm.trans heq)
    · cases h

end Selecting

/-! ### Templates -/

/-- What an update needs of a template: arrays of the right lengths, 32 slots and as many captures
as slots are used. -/
structure LoadedTemplate.Adaptable (t : LoadedTemplate) : Prop where
  graph : t.graph.Fits 32
  capacity : t.graph.capacity = 32
  room : t.collection.capacity = 32
  used : t.graph.used.toNat = t.collection.captures.length
  order : orderValid ((t.graph.order.getD []).take 32) [] = true

/-- The age of a slot. -/
def LoadedTemplate.age (t : LoadedTemplate) (i : ℕ) : UInt16 := (t.graph.ages.getD []).getD i 0

/-- The captures once a capture has come in at a slot, or nowhere. -/
def LoadedTemplate.capturesWith (t : LoadedTemplate) (incoming : LoadedCapture) :
    Option ℕ → List LoadedCapture
  | none => t.collection.captures
  | some k =>
      if k = t.collection.captures.length then t.collection.captures ++ [incoming]
      else t.collection.captures.set k incoming

/-- The slots an update may fill. -/
def LoadedTemplate.Free (t : LoadedTemplate) (protection k : ℕ) : Prop :=
  FreeSlot t.collection.captures.length 32 (t.graph.order.getD []) protection k

section Template

variable {t : LoadedTemplate} {incoming : LoadedCapture}

theorem LoadedTemplate.Adaptable.count_le (h : t.Adaptable) :
    t.collection.captures.length ≤ 32 := by
  have hle := h.graph.used_le_capacity
  rw [h.used, h.capacity] at hle
  exact hle

theorem LoadedTemplate.Adaptable.ages_length (h : t.Adaptable) :
    (t.graph.ages.getD []).length = 32 := by
  obtain ⟨ages, hages, hlength⟩ := h.graph.ages
  rw [hages]
  exact hlength

/-- Other ages of the same number. -/
theorem LoadedTemplate.Adaptable.withAges (h : t.Adaptable) {graph : RetainedGraph}
    (hfits : graph.Fits 32) (hgraph : ∃ ages, graph = { t.graph with ages := ages }) :
    ({ t with graph := graph } : LoadedTemplate).Adaptable := by
  obtain ⟨ages, rfl⟩ := hgraph
  exact ⟨hfits, h.capacity, h.room, h.used, h.order⟩

theorem LoadedTemplate.capturesWith_length (k : ℕ) :
    (t.capturesWith incoming (some k)).length =
      if k = t.collection.captures.length then t.collection.captures.length + 1
      else t.collection.captures.length := by
  unfold capturesWith
  dsimp only
  split_ifs
  · rw [List.length_append, List.length_singleton]
  · rw [List.length_set]

theorem LoadedTemplate.Free.le {protection k : ℕ} (h : t.Free protection k) :
    k ≤ t.collection.captures.length ∧ k < 32 := by
  rcases h with ⟨hlt, rfl⟩ | ⟨hcount, hlt, -⟩
  · exact ⟨le_rfl, hlt⟩
  · exact ⟨by omega, hlt⟩

/-- **Retaining fills at most one free slot** and leaves the ages alone. -/
theorem loadedTemplateRetainCapture_slot (h : t.Adaptable) {scores : List UInt16}
    {protection : UInt16}
    (hstatus : (loadedTemplateRetainCapture t scores protection incoming).status = 0) :
    ∃ slot : Option ℕ,
      (loadedTemplateRetainCapture t scores protection incoming).selected =
          slot.elim (-1) (fun k => (k : ℤ)) ∧
        (loadedTemplateRetainCapture t scores protection incoming).template.Adaptable ∧
          (loadedTemplateRetainCapture t scores protection incoming).template.graph.order =
              t.graph.order ∧
            (loadedTemplateRetainCapture t scores protection incoming).template.graph.ages =
                t.graph.ages ∧
              (loadedTemplateRetainCapture t scores protection
                  incoming).template.collection.captures = t.capturesWith incoming slot ∧
                ∀ k, slot = some k → t.Free protection.toNat k := by
  have hcapacity : t.graph.capacity.toNat = 32 := by
    rw [h.capacity]
    rfl
  have hruns := loadedTemplateRetainCapture_runs hstatus
  generalize loadedTemplateRetainCapture t scores protection incoming = outcome at hruns ⊢
  cases hruns with
  | @refused selected hnegative hselect =>
      -- no slot is worth it: only the protection is noted
      have hnone : selected = -1 := by
        rcases enrollmentSelectCapture_free hselect with hnone | ⟨k, rfl, -⟩
        · exact hnone
        · omega
      refine ⟨none, hnone, ?_, rfl, rfl, rfl, nofun⟩
      exact ⟨{ h.graph with }, h.capacity, h.room, h.used, h.order⟩
  | @taken selected taken _ count hnegative hselect htaken hwritten =>
      have hfree := enrollmentSelectCapture_free hselect
      rw [h.used, hcapacity] at hfree
      obtain ⟨k, rfl, hk⟩ := hfree.resolve_left fun hnone => hnegative (hnone ▸ by norm_num)
      have hk : t.Free protection.toNat k := hk
      obtain ⟨hroom, -, -, -⟩ := loadedCollectionTakeCapture_sound htaken
      have hcaptures : taken.captures = t.capturesWith incoming (some k) := by
        unfold loadedCollectionTakeCapture at htaken
        dsimp only at htaken
        split_ifs at htaken with hbad hstorage hindex
        · rw [← Option.some.inj htaken]
          exact (if_pos hindex).symm
        · rw [← Option.some.inj htaken]
          exact (if_neg hindex).symm
      obtain ⟨-, -, -, hcount⟩ := enrollmentWriteCaptureScores_sound hwritten
      obtain ⟨hword, hfits⟩ := h.graph.written (hcapacity.trans_le (by norm_num)) hwritten
      have hlength : (UInt16.ofNat count).toNat = taken.captures.length := by
        rw [hword, hcount, hcaptures, LoadedTemplate.capturesWith_length, h.used]
        rfl
      refine ⟨some k, rfl, ⟨hfits, h.capacity, hroom.trans h.room, hlength, h.order⟩, rfl, rfl,
        hcaptures, fun k' hk' => ?_⟩
      rw [← Option.some.inj hk']
      exact hk

/-! ### Ages -/

/-- All used slots get older. -/
theorem retainedGraphIncrementAges_age (h : t.Adaptable) :
    ∃ graph, retainedGraphIncrementAges t.graph = some graph ∧
      ({ t with graph := graph } : LoadedTemplate).Adaptable ∧ graph.order = t.graph.order ∧
        ∀ i < t.collection.captures.length,
          ({ t with graph := graph } : LoadedTemplate).age i = olderAge (t.age i) := by
  obtain ⟨ages, hages, hlength⟩ := h.graph.ages
  have hcount := h.count_le
  have hguard : ¬(t.graph.ageCount < t.graph.used.toNat ∨
      (t.graph.used.toNat ≠ 0 ∧ t.graph.ages = none)) := by
    rw [h.graph.ageCount, h.used, hages]
    have : (32 : UInt8).toNat = 32 := rfl
    simp
    omega
  obtain ⟨graph, hgraph⟩ : ∃ graph, retainedGraphIncrementAges t.graph = some graph := by
    unfold retainedGraphIncrementAges
    dsimp only
    rw [if_neg hguard]
    exact ⟨_, rfl⟩
  obtain ⟨hfits, hsame⟩ := retainedGraphIncrementAges_fits h.graph hgraph
  refine ⟨graph, hgraph, h.withAges hfits hsame, ?_, fun i hi => ?_⟩
  · obtain ⟨_, rfl⟩ := hsame
    rfl
  · unfold retainedGraphIncrementAges at hgraph
    dsimp only at hgraph
    rw [if_neg hguard] at hgraph
    obtain rfl := Option.some.inj hgraph
    have hi' : i < ages.length := by
      rw [hlength]
      exact lt_of_lt_of_le hi hcount
    simp only [LoadedTemplate.age, hages, Option.map_some, Option.getD_some, h.used]
    rw [List.getD_append _ _ _ _ (by simp; omega), List.getD_eq_getElem _ _ (by simp; omega),
      List.getD_eq_getElem _ _ hi', List.getElem_map, List.getElem_take]

/-- Resetting an age, in range or not. -/
theorem resetAgeIgnoring_age (h : t.Adaptable) (index : ℤ) :
    (resetAgeIgnoring t index).Adaptable ∧
      (resetAgeIgnoring t index).graph.order = t.graph.order ∧
        (resetAgeIgnoring t index).collection = t.collection ∧
          ∀ i < t.collection.captures.length,
            (resetAgeIgnoring t index).age i = if (i : ℤ) = index then 0 else t.age i := by
  obtain ⟨ages, hages, hlength⟩ := h.graph.ages
  have hcount := h.count_le
  have hthirtytwo : (32 : UInt8).toNat = 32 := rfl
  cases hreset : retainedGraphResetAge t.graph index with
  | none =>
      have hsame : resetAgeIgnoring t index = t := by
        unfold resetAgeIgnoring
        rw [hreset]
        rfl
      rw [hsame]
      refine ⟨h, rfl, rfl, fun i hi => (if_neg fun heq => ?_).symm⟩
      -- a used slot is in range
      unfold retainedGraphResetAge at hreset
      split_ifs at hreset with hbad
      rw [h.graph.ageCount, h.used, hages] at hbad
      simp at hbad
      omega
  | some graph =>
      obtain ⟨hfits, hkept⟩ := retainedGraphResetAge_fits h.graph hreset
      have hsame : resetAgeIgnoring t index = { t with graph := graph } := by
        unfold resetAgeIgnoring
        rw [hreset]
        rfl
      rw [hsame]
      refine ⟨h.withAges hfits hkept, ?_, rfl, fun i hi => ?_⟩
      · obtain ⟨_, rfl⟩ := hkept
        rfl
      · unfold retainedGraphResetAge at hreset
        split_ifs at hreset with hbad
        obtain rfl := Option.some.inj hreset
        have hi' : i < ages.length := by
          rw [hlength]
          exact lt_of_lt_of_le hi hcount
        simp only [LoadedTemplate.age, hages, Option.map_some, Option.getD_some]
        rw [List.getD_eq_getElem _ _ (by rwa [List.length_set]), List.getD_eq_getElem _ _ hi',
          List.getElem_set]
        refine if_congr ?_ rfl rfl
        omega

end Template

/-! ### Updates -/

/-- The arguments of an update, the template apart. -/
structure AdaptCall where
  incoming : LoadedCapture
  quality28 : ℤ
  quality32 : ℤ
  quality16 : ℤ
  spatialScores : List UInt16
  policy : TemplateUpdatePolicy
  state : TemplateUpdateState
  deriving DecidableEq

def AdaptCall.outcome (call : AdaptCall) (t : LoadedTemplate) : UpdateOutcome :=
  updateTemplateAfterMatch t call.incoming call.quality28 call.quality32 call.quality16
    call.spatialScores call.policy call.state

/-- A template matched and may be updated, under the given protection. -/
def AdaptCall.Allowed (call : AdaptCall) (protection : UInt16) : Prop :=
  call.state.code = 102 ∧ call.state.matched = 1 ∧ call.state.updateAllowed = 1 ∧
    call.state.ageUpdateAllowed = 1 ∧ call.policy.protection = protection

instance (call : AdaptCall) (protection : UInt16) : Decidable (call.Allowed protection) := by
  unfold AdaptCall.Allowed
  infer_instance

/-- One update that succeeds. -/
def adaptStep (protection : UInt16) (t : LoadedTemplate) (call : AdaptCall) :
    Option LoadedTemplate :=
  if call.Allowed protection ∧ (call.outcome t).status = 0 then some (call.outcome t).template
  else none

/-- A template that was loaded from bytes that validate. -/
def ValidTemplate (t : LoadedTemplate) : Prop :=
  ∃ bytes fresh, validateNative bytes = .ok () ∧ templateLoadDefault bytes 32 fresh = .ok t

section Updates

variable {t t' : LoadedTemplate} {protection : UInt16} {call : AdaptCall}

/-- What one update does: it fills the slot `slot`, or none. -/
structure AdaptStep (t t' : LoadedTemplate) (call : AdaptCall) (slot : Option ℕ) : Prop where
  adaptable : t'.Adaptable
  order : t'.graph.order = t.graph.order
  captures : t'.collection.captures = t.capturesWith call.incoming slot
  free : ∀ k, slot = some k → t.Free call.policy.protection.toNat k
  retained : ∀ k, slot = some k → (call.outcome t).state.retainedSlot = k
  ages : ∀ i < t'.collection.captures.length,
    t'.age i = if (i : ℤ) = call.state.selectedCapture ∨ slot = some i then 0
      else olderAge (t.age i)

/-- Before anything is retained, all used slots have aged but the selected one, which is new. -/
theorem AdaptCall.outcome_reset (h : t.Adaptable) (hallowed : call.Allowed protection) :
    ∃ reset : LoadedTemplate, reset.Adaptable ∧ reset.graph.order = t.graph.order ∧
      reset.collection.captures = t.collection.captures ∧
      (∀ i < t.collection.captures.length, reset.age i =
        if (i : ℤ) = call.state.selectedCapture then 0 else olderAge (t.age i)) ∧
      call.outcome t = retainGoodCapture reset call.incoming call.quality28 call.quality32
        call.quality16 call.spatialScores call.policy { call.state with code := 103 } := by
  obtain ⟨hcode, hmatched, hupdate, hage, -⟩ := hallowed
  obtain ⟨graph, hgraph, haged, horder, hages⟩ := retainedGraphIncrementAges_age h
  obtain ⟨hreset, hresetOrder, hresetCollection, hresetAges⟩ :=
    resetAgeIgnoring_age haged call.state.selectedCapture
  refine ⟨_, hreset, hresetOrder.trans horder, by rw [hresetCollection], fun i hi => ?_, ?_⟩
  · rw [hresetAges i hi, hages i hi]
  · unfold AdaptCall.outcome updateTemplateAfterMatch
    rw [if_neg (not_not.2 hcode)]
    dsimp only
    rw [if_pos ⟨hmatched, hupdate, hage⟩, hgraph]

/-- Retaining a good capture fills a free slot, or none, and the filled one is new. -/
theorem retainGoodCapture_slot (h : t.Adaptable) {incoming : LoadedCapture}
    {quality28 quality32 quality16 : ℤ} {spatialScores : List UInt16}
    {policy : TemplateUpdatePolicy} {state : TemplateUpdateState} {out : UpdateOutcome}
    (hout : retainGoodCapture t incoming quality28 quality32 quality16 spatialScores policy state =
      out) (hstatus : out.status = 0) :
    ∃ slot, out.template.Adaptable ∧ out.template.graph.order = t.graph.order ∧
      out.template.collection.captures = t.capturesWith incoming slot ∧
      (∀ k, slot = some k → t.Free policy.protection.toNat k) ∧
      (∀ k, slot = some k → out.state.retainedSlot = k) ∧
      ∀ i < out.template.collection.captures.length,
        out.template.age i = if slot = some i then 0 else t.age i := by
  unfold retainGoodCapture at hout
  split_ifs at hout with hgood
  · dsimp only at hout
    subst hout
    obtain ⟨slot, hselected, hadaptable, horder, hages, hcaptures, hfree⟩ :=
      loadedTemplateRetainCapture_slot h hstatus
    set retained := loadedTemplateRetainCapture t spatialScores policy.protection incoming
    have hkeptAges : ∀ i, retained.template.age i = t.age i := fun i => by
      unfold LoadedTemplate.age
      rw [hages]
    dsimp only at hstatus ⊢
    cases slot with
    | none =>
        have hnegative : retained.selected = -1 := hselected
        rw [if_neg (by rw [hnegative]; simp)]
        refine ⟨none, hadaptable, horder, hcaptures, nofun, nofun, fun i _ => ?_⟩
        rw [hkeptAges, if_neg nofun]
    | some k =>
        have hnonnegative : retained.selected = k := hselected
        have hstatus' : retained.status = 0 ∧ 0 ≤ retained.selected := by
          rw [hnonnegative]
          exact ⟨hstatus, Int.natCast_nonneg k⟩
        rw [if_pos hstatus']
        obtain ⟨hfinal, hfinalOrder, hfinalCollection, hfinalAges⟩ :=
          resetAgeIgnoring_age hadaptable retained.selected
        refine ⟨some k, hfinal, hfinalOrder.trans horder, ?_, hfree, ?_, fun i hi => ?_⟩
        · rw [hfinalCollection]
          exact hcaptures
        · rintro k' hk'
          obtain rfl := Option.some.inj hk'
          exact hnonnegative
        · rw [hfinalCollection] at hi
          rw [hfinalAges i hi, hnonnegative, hkeptAges]
          refine if_congr ?_ rfl rfl
          rw [Nat.cast_inj, Option.some_inj, eq_comm]
  · subst hout
    exact ⟨none, h, rfl, rfl, nofun, nofun, fun i _ => (if_neg nofun).symm⟩

/-- **An update fills at most one free slot and sets the ages.** -/
theorem updateTemplateAfterMatch_slot (h : t.Adaptable)
    (hstep : adaptStep protection t call = some t') : ∃ slot, AdaptStep t t' call slot := by
  unfold adaptStep at hstep
  split_ifs at hstep with hallowed
  obtain ⟨hallowed, hstatus⟩ := hallowed
  obtain rfl := Option.some.inj hstep
  obtain ⟨reset, hreset, horder, hcaptures, hbefore, houtcome⟩ := call.outcome_reset h hallowed
  obtain ⟨slot, hadaptable, hslotOrder, hwith, hfree, hretained, hages⟩ :=
    retainGoodCapture_slot hreset houtcome.symm hstatus
  have hwith' : (call.outcome t).template.collection.captures =
      t.capturesWith call.incoming slot := by
    rw [hwith]
    unfold LoadedTemplate.capturesWith
    rw [hcaptures]
  have hfree' : ∀ k, slot = some k → t.Free call.policy.protection.toNat k := by
    intro k hk
    have := hfree k hk
    unfold LoadedTemplate.Free at this ⊢
    rwa [hcaptures, horder] at this
  refine ⟨slot, hadaptable, hslotOrder.trans horder, hwith', hfree', hretained, fun i hi => ?_⟩
  rw [hages i hi]
  by_cases hslot : slot = some i
  · rw [if_pos hslot, if_pos (Or.inr hslot)]
  · -- any other slot was used before
    have hi' : i < t.collection.captures.length := by
      rw [hwith'] at hi
      cases slot with
      | none => exact hi
      | some k =>
          have hle := (hfree' k rfl).le.1
          have hk : i ≠ k := fun heq => hslot (by rw [heq])
          rw [LoadedTemplate.capturesWith_length] at hi
          split_ifs at hi with hlast
          · omega
          · exact hi
    rw [if_neg hslot, hbefore i hi']
    refine if_congr ⟨Or.inl, ?_⟩ rfl rfl
    rintro (heq | heq)
    · exact heq
    · exact absurd heq hslot

/-! ### Runs -/

/-- A valid order names every slot once. -/
theorem orderValid_nodup {slots : List UInt16} {seen : List ℕ} (h : orderValid slots seen = true) :
    (slots.map UInt16.toNat).Nodup ∧ ∀ slot ∈ slots, slot.toNat ∉ seen := by
  induction slots generalizing seen with
  | nil => exact ⟨List.nodup_nil, nofun⟩
  | cons slot slots ih =>
      rw [orderValid] at h
      split_ifs at h with hbad
      obtain ⟨hnodup, hfresh⟩ := ih h
      refine ⟨List.nodup_cons.2 ⟨fun hmem => ?_, hnodup⟩, fun other hother => ?_⟩
      · obtain ⟨other, hother, heq⟩ := List.mem_map.1 hmem
        exact hfresh other hother (heq ▸ List.mem_cons_self)
      · rcases List.mem_cons.1 hother with rfl | hother
        · exact fun hseen => hbad (Or.inr hseen)
        · exact fun hseen => hfresh other hother (List.mem_cons_of_mem _ hseen)

/-- Captures in other slots stay. -/
theorem capturesWith_of_ne {incoming : LoadedCapture} {slot : Option ℕ} {i : ℕ}
    (hslot : slot ≠ some i) : (t.capturesWith incoming slot)[i]? = t.collection.captures[i]? := by
  cases slot with
  | none => rfl
  | some k =>
      have hne : k ≠ i := fun heq => hslot (congrArg some heq)
      unfold LoadedTemplate.capturesWith
      dsimp only
      split_ifs with hlast
      · rcases lt_or_gt_of_ne hne with hlt | hgt
        · rw [List.getElem?_eq_none (by rw [List.length_append, List.length_singleton]; omega),
            List.getElem?_eq_none (by omega)]
        · exact List.getElem?_append_left (by omega)
      · exact List.getElem?_set_ne hne

/-- A slot in the protected part of the order is not free once all slots are used. -/
theorem not_free_of_protected (h : t.Adaptable) (hfull : t.collection.captures.length = 32)
    {j k : ℕ} {slot : UInt16} (hj : (t.graph.order.getD [])[j]? = some slot)
    (hprotected : j < protection.toNat) (hk : t.Free protection.toNat k) : slot.toNat ≠ k := by
  rcases hk with ⟨hlt, -⟩ | ⟨-, -, other, hother, rfl⟩
  · omega
  · intro heq
    have hlength : (t.graph.order.getD []).length = 32 := by
      rw [h.graph.order_length, h.capacity]
      rfl
    have htake : (t.graph.order.getD []).take 32 = t.graph.order.getD [] :=
      List.take_of_length_le hlength.le
    have hnodup := (orderValid_nodup h.order).1
    rw [htake] at hnodup hother
    obtain ⟨m, hm, hget⟩ := List.mem_drop_iff_getElem.1 hother
    -- the same slot would be named at `j` and behind the protected part
    obtain ⟨hjlt, hjget⟩ := List.getElem?_eq_some_iff.1 hj
    have hpair := List.pairwise_iff_getElem.1 hnodup j (protection.toNat + m)
      (by rwa [List.length_map]) (by rw [List.length_map]; omega) (by omega)
    refine hpair ?_
    rw [List.getElem_map, List.getElem_map, hjget, hget, heq]

theorem AdaptStep.used_le {slot : Option ℕ} (h : t.Adaptable) (hstep : AdaptStep t t' call slot) :
    t.graph.used.toNat ≤ t'.graph.used.toNat := by
  rw [h.used, hstep.adaptable.used, hstep.captures]
  cases slot with
  | none => exact le_rfl
  | some k =>
      rw [LoadedTemplate.capturesWith_length]
      split_ifs <;> omega

/-- A valid template can be adapted. -/
theorem ValidTemplate.adaptable (h : ValidTemplate t) : t.Adaptable := by
  obtain ⟨bytes, fresh, hvalid, hload⟩ := h
  obtain ⟨loaded, hload', haccepted⟩ := validateNative_load hvalid fresh
  obtain rfl := Except.ok.inj (hload.symm.trans hload')
  have hchecked := checkTemplate_eq_ok.1 haccepted.check
  exact ⟨haccepted.consistent.graph, hchecked.graph, hchecked.collection,
    haccepted.consistent.used, hchecked.order⟩

theorem adaptable_of_reachable
    (h : Transition.Reachable (adaptStep protection) ValidTemplate t) : t.Adaptable := by
  induction h with
  | start hvalid => exact hvalid.adaptable
  | step _ _ hstep ih =>
      obtain ⟨slot, hslot⟩ := updateTemplateAfterMatch_slot ih hstep
      exact hslot.adaptable

theorem adaptStep_protection (hstep : adaptStep protection t call = some t') :
    call.policy.protection = protection := by
  unfold adaptStep at hstep
  split_ifs at hstep with hallowed
  exact hallowed.1.2.2.2.2

/-- The captures in protected slots stay for any number of updates. -/
theorem protected_of_reachable (h : t.Adaptable) (hfull : t.collection.captures.length = 32)
    {last : LoadedTemplate}
    (hlast : Transition.Reachable (adaptStep protection) (fun u => u = t) last) :
    last.Adaptable ∧ last.collection.captures.length = 32 ∧ last.graph.order = t.graph.order ∧
      ∀ j < protection.toNat, ∀ slot, (t.graph.order.getD [])[j]? = some slot →
        last.collection.captures[slot.toNat]? = t.collection.captures[slot.toNat]? := by
  induction hlast with
  | start heq =>
      subst heq
      exact ⟨h, hfull, rfl, fun _ _ _ _ => rfl⟩
  | step _ _ hstep ih =>
      obtain ⟨hu, hufull, horder, hkept⟩ := ih
      obtain ⟨slot, hslot⟩ := updateTemplateAfterMatch_slot hu hstep
      have hprotection := adaptStep_protection hstep
      refine ⟨hslot.adaptable, ?_, hslot.order.trans horder, fun j hj s hs => ?_⟩
      · have hle := hslot.used_le hu
        have hmax := hslot.adaptable.count_le
        rw [hu.used, hslot.adaptable.used] at hle
        omega
      · rw [← hkept j hj s hs, hslot.captures]
        refine capturesWith_of_ne fun hsome => ?_
        rw [← horder] at hs
        have hfree := hslot.free _ hsome
        rw [hprotection] at hfree
        exact not_free_of_protected hu hufull hs hj hfree rfl

/-- **What any run of updates keeps.**  The slots in use are those with captures; their number never
decreases and stays within the capacity; an update changes at most one slot, a new one while there
is one; the captures in protected slots stay once all slots are used; and every used slot gets one
match older, unless it was matched or filled. -/
theorem adaptations_keep (h : Transition.Reachable (adaptStep protection) ValidTemplate t) :
    (t.graph.used.toNat = t.collection.captures.length ∧
        t.graph.used.toNat ≤ t.graph.capacity.toNat) ∧
      (∀ call t', adaptStep protection t call = some t' →
        t.graph.used.toNat ≤ t'.graph.used.toNat ∧
          ∃ slot : Option ℕ,
            (∀ i, slot ≠ some i → t'.collection.captures[i]? = t.collection.captures[i]?) ∧
              (t.graph.used.toNat < t.graph.capacity.toNat →
                ∀ i < t.collection.captures.length, slot ≠ some i) ∧
                (∀ k, slot = some k → (call.outcome t).state.retainedSlot = k) ∧
                  ∀ i < t'.graph.used.toNat,
                    t'.age i = if (i : ℤ) = call.state.selectedCapture ∨ slot = some i then 0
                      else olderAge (t.age i)) ∧
        (t.graph.used.toNat = t.graph.capacity.toNat →
          ∀ last, Transition.Reachable (adaptStep protection) (fun u => u = t) last →
            last.graph.order = t.graph.order ∧
              ∀ j < protection.toNat, ∀ slot, (t.graph.order.getD [])[j]? = some slot →
                last.collection.captures[slot.toNat]? = t.collection.captures[slot.toNat]?) := by
  have hadaptable := adaptable_of_reachable h
  refine ⟨⟨hadaptable.used, hadaptable.graph.used_le_capacity⟩, fun call t' hstep => ?_,
    fun hfull last hlast => ?_⟩
  · obtain ⟨slot, hslot⟩ := updateTemplateAfterMatch_slot hadaptable hstep
    refine ⟨hslot.used_le hadaptable, slot, fun i hi => ?_, fun hroom i hi hsome => ?_,
      hslot.retained, fun i hi => ?_⟩
    · rw [hslot.captures]
      exact capturesWith_of_ne hi
    · rw [hadaptable.used, hadaptable.capacity] at hroom
      have hthirtytwo : (32 : UInt16).toNat = 32 := rfl
      rcases hslot.free i hsome with ⟨-, heq⟩ | ⟨heq, -⟩
      · omega
      · omega
    · rw [hslot.adaptable.used] at hi
      exact hslot.ages i hi
  · rw [hadaptable.used, hadaptable.capacity] at hfull
    obtain ⟨-, -, horder, hkept⟩ := protected_of_reachable hadaptable hfull hlast
    exact ⟨horder, hkept⟩

end Updates

/-- An update by the capture of a match with slot 0, which retains the capture. -/
def gridUpdate : AdaptCall where
  incoming := ⟨preparedView (gridCapture 3) true, some 99⟩
  quality28 := 60
  quality32 := 80
  quality16 := 100
  spatialScores := List.replicate 32 30
  policy := adaptationPolicy
  state := ⟨102, 1, 1, 1, 30, 0, 0, -1⟩

theorem gridLoaded_valid {n : ℕ} (hpos : 0 < n) (hn : n ≤ 32) : ValidTemplate (gridLoaded n 0) :=
  ⟨_, 0, (gridTemplate_accepted hpos hn).valid, gridTemplate_load hpos hn 0⟩

/-- A template of three captures takes in a fourth one and gets older. -/
theorem adaptStep_grid : ∃ t, adaptStep 8 (gridLoaded 3 0) gridUpdate = some t ∧
    t.graph.used.toNat = 4 ∧ t.collection.captures[3]? = some gridUpdate.incoming := by
  have hcomputed : (adaptStep 8 (gridLoaded 3 0) gridUpdate).map (fun t =>
      (t.graph.used.toNat, t.collection.captures[3]?)) = some (4, some gridUpdate.incoming) := by
    decide +kernel
  obtain ⟨t, hstep, ht⟩ := Option.map_eq_some_iff.1 hcomputed
  exact ⟨t, hstep, Prod.mk.inj ht⟩

/-- A full one replaces the unprotected capture that was not matched for the longest time. -/
theorem adaptStep_gridFull : ∃ t, adaptStep 8 (gridLoaded 32 0) gridUpdate = some t ∧
    t.collection.captures[20]? = some gridUpdate.incoming ∧ t.age 20 = 0 ∧ t.age 21 = 1 := by
  have hcomputed : (adaptStep 8 (gridLoaded 32 0) gridUpdate).map (fun t =>
      (t.collection.captures[20]?, t.age 20, t.age 21)) =
        some (some gridUpdate.incoming, 0, 1) := by
    decide +kernel
  obtain ⟨t, hstep, ht⟩ := Option.map_eq_some_iff.1 hcomputed
  obtain ⟨hincoming, hages⟩ := Prod.mk.inj ht
  exact ⟨t, hstep, hincoming, Prod.mk.inj hages⟩

theorem adaptations_keep_grid :
    (∃ t, adaptStep 8 (gridLoaded 3 0) gridUpdate = some t ∧
      t.graph.used.toNat = t.collection.captures.length ∧ t.graph.used.toNat = 4 ∧
      t.collection.captures[3]? = some gridUpdate.incoming ∧
      (∀ i < 3, t.collection.captures[i]? = (gridLoaded 3 0).collection.captures[i]?) ∧
      t.age 0 = 0 ∧ t.age 1 = 1 ∧ t.age 2 = 201 ∧ t.age 3 = 0) ∧
    ∃ t, adaptStep 8 (gridLoaded 32 0) gridUpdate = some t ∧
      t.collection.captures[20]? = some gridUpdate.incoming ∧ t.age 20 = 0 ∧ t.age 21 = 1 ∧
      ∀ j < 8, ∀ slot, ((gridLoaded 32 0).graph.order.getD [])[j]? = some slot →
        t.collection.captures[slot.toNat]? =
          (gridLoaded 32 0).collection.captures[slot.toNat]? := by
  constructor
  · obtain ⟨t, hstep, hused, hincoming⟩ := adaptStep_grid
    have hstart : Transition.Reachable (adaptStep 8) ValidTemplate (gridLoaded 3 0) :=
      .start (gridLoaded_valid (by norm_num) (by norm_num))
    obtain ⟨⟨hlength, -⟩, -⟩ := adaptations_keep (hstart.step trivial hstep)
    obtain ⟨-, hkeep, -⟩ := adaptations_keep hstart
    obtain ⟨-, slot, hothers, hroom, -, hages⟩ := hkeep gridUpdate t hstep
    have hthree : (gridLoaded 3 0).collection.captures.length = 3 := by decide +kernel
    have hslot : slot = some 3 := by
      by_contra hne
      have hnone : (gridLoaded 3 0).collection.captures[3]? = none :=
        List.getElem?_eq_none hthree.le
      rw [hothers 3 hne, hnone] at hincoming
      cases hincoming
    subst hslot
    refine ⟨t, hstep, hlength, hused, hincoming, fun i hi => hothers i ?_, ?_, ?_, ?_, ?_⟩
    · exact hroom (by decide +kernel) i (hi.trans_eq hthree.symm)
    all_goals rw [hages _ (by rw [hused]; norm_num)]; decide +kernel
  · obtain ⟨t, hstep, hincoming, hnew, hold⟩ := adaptStep_gridFull
    have hstart : Transition.Reachable (adaptStep 8) ValidTemplate (gridLoaded 32 0) :=
      .start (gridLoaded_valid (by norm_num) le_rfl)
    obtain ⟨-, -, hprotected⟩ := adaptations_keep hstart
    obtain ⟨-, hkept⟩ := hprotected (by decide +kernel) t (.step (.start rfl) trivial hstep)
    exact ⟨t, hstep, hincoming, hnew, hold, hkept⟩

end Fpc
