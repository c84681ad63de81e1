/-
**Verification never errors on a sound store.**

Stored templates have passed the checks of the storage, and a prepared capture has at most 300
features.  So every template loads, matching cannot fail, the capture may be retained in some slot
or none, and the adapted template can be written: a verification returns true or false.

Main results:

* `Fpc.loadedTemplateRetainCapture_total`, `Fpc.updateTemplateAfterMatch_total` — an update of an
  adaptable template succeeds;
* `Fpc.FingerprintStorage.identify_total` — **comparing a query with sound records succeeds**;
* `Fpc.Store.verify_total` — **verification never errors**.
-/

import FpcReader.Native.MatchTotal
import FpcReader.Storage.Adapting
import FpcReader.Storage.Confined

set_option relaxedAutoImplicit false
set_option autoImplicit false

namespace Fpc

/-! ### Updates -/

/-- A fold in which no step fails. -/
theorem foldlM_isSome {α β : Type} {f : β → α → Option β} {l : List α}
    (h : ∀ a ∈ l, ∀ b, (f b a).isSome = true) (b : β) : (l.foldlM f b).isSome = true := by
  induction l generalizing b with
  | nil => rfl
  | cons a l ih =>
      obtain ⟨next, hnext⟩ := Option.isSome_iff_exists.1 (h a List.mem_cons_self b)
      rw [List.foldlM_cons, hnext]
      exact ih (fun a' ha' => h a' (List.mem_cons_of_mem _ ha')) next

theorem enrollmentPairIndex_isSome {capacity first second : ℕ} (hfirst : first < capacity)
    (hsecond : second < capacity) (hne : first ≠ second) (hmax : capacity ≤ 65535) :
    (enrollmentPairIndex capacity first second).isSome = true := by
  unfold enrollmentPairIndex
  rw [if_neg (by omega)]
  rfl

theorem captureCosts_isSome {capacity count : ℕ} (hcount : count ≤ capacity)
    (hmax : capacity ≤ 65535) (graph newScores : List UInt16) :
    (captureCosts graph capacity count newScores).isSome = true := by
  unfold captureCosts
  refine foldlM_isSome (fun i hi cost => ?_) _
  unfold addRowCosts
  refine foldlM_isSome (fun j hj cost => ?_) _
  rw [List.mem_range] at hi
  rw [List.mem_range'_1] at hj
  unfold addEdgeCost
  obtain ⟨index, hindex⟩ := Option.isSome_iff_exists.1
    (enrollmentPairIndex_isSome (by omega) (by omega) (by omega) hmax :
      (enrollmentPairIndex capacity i j).isSome = true)
  rw [hindex]
  rfl

theorem enrollmentWriteCaptureScores_isSome {graph newScores : List UInt16}
    {graphSize count capacity capture : ℕ} (hcapacity : 2 ≤ capacity) (hmax : capacity ≤ 65535)
    (hcount : count ≤ capacity) (hsize : edgeCount capacity ≤ graphSize)
    (hcapture : capture ≤ count) (hlt : capture < capacity) (hscores : count ≤ newScores.length) :
    (enrollmentWriteCaptureScores graph graphSize count capacity capture newScores).isSome =
      true := by
  unfold enrollmentWriteCaptureScores
  rw [if_neg (by omega)]
  obtain ⟨written, hwritten⟩ := Option.isSome_iff_exists.1 (foldlM_isSome
    (f := fun (graph : List UInt16) i => (enrollmentPairIndex capacity i capture).map fun index =>
      graph.set index (newScores.getD i 0)) (l := (List.range count).filter (· ≠ capture))
    (fun i hi edges => by
      obtain ⟨hi, hne⟩ := List.mem_filter.1 hi
      rw [List.mem_range] at hi
      rw [Option.isSome_map]
      exact enrollmentPairIndex_isSome (by omega) hlt (by simpa using hne) hmax) graph)
  rw [hwritten]
  rfl

theorem orderValid_lt {slots : List UInt16} {seen : List ℕ} (h : orderValid slots seen = true) :
    ∀ slot ∈ slots, slot.toNat < 32 := by
  induction slots generalizing seen with
  | nil => nofun
  | cons slot slots ih =>
      rw [orderValid] at h
      split_ifs at h with hbad
      intro other hother
      rcases List.mem_cons.1 hother with rfl | hother
      · omega
      · exact ih h other hother

section Update

variable {t : LoadedTemplate} {incoming : LoadedCapture} {scores : List UInt16}

theorem LoadedTemplate.Adaptable.retainable (h : t.Adaptable)
    (hscores : t.collection.captures.length ≤ scores.length) : retainable t scores = true := by
  obtain ⟨order, horder, -⟩ := h.graph.order
  obtain ⟨edges, hedges, -⟩ := h.graph.scores
  obtain ⟨ages, hages, -⟩ := h.graph.ages
  have hcount := h.count_le
  have hthirtytwo : (32 : UInt16).toNat = 32 := rfl
  have hthirtytwo' : (32 : UInt8).toNat = 32 := rfl
  unfold Fpc.retainable
  rw [decide_eq_true_eq, h.used, h.capacity, h.room, h.graph.scoreCount, h.graph.ageCount, hedges,
    hages, horder, h.capacity]
  refine ⟨by omega, by omega, by omega, rfl, by omega, nofun, le_rfl, hscores, fun _ => ?_⟩
  exact ⟨nofun, by omega, nofun⟩

theorem LoadedTemplate.Adaptable.select (h : t.Adaptable) (protection : ℕ) :
    (enrollmentSelectCapture t.graph.scores t.graph.scoreCount t.collection.captures.length 32
      scores t.graph.order t.graph.ages protection t.graph.ageThreshold).isSome = true := by
  obtain ⟨order, horder, -⟩ := h.graph.order
  obtain ⟨edges, hedges, -⟩ := h.graph.scores
  obtain ⟨ages, hages, -⟩ := h.graph.ages
  have hcount := h.count_le
  have hslots := orderValid_lt h.order
  rw [horder, Option.getD_some] at hslots
  unfold enrollmentSelectCapture
  rw [if_neg (by omega)]
  by_cases hfree : t.collection.captures.length < 32
  · rw [if_pos hfree]
    rfl
  · have hgood : ¬(t.graph.scoreCount < edgeCount 32 ∨ ((order.take 32).any fun slot =>
        decide (t.collection.captures.length ≤ slot.toNat)) = true) := by
      rintro (hsize | hlarge)
      · rw [h.graph.scoreCount, h.capacity] at hsize
        exact absurd hsize (lt_irrefl _)
      · obtain ⟨slot, hslot, hle⟩ := List.any_eq_true.1 hlarge
        have := hslots slot hslot
        rw [decide_eq_true_eq] at hle
        omega
    obtain ⟨cost, hcost⟩ := Option.isSome_iff_exists.1
      (captureCosts_isSome hcount (by norm_num) edges scores)
    rw [if_neg hfree, horder, hedges, hages]
    dsimp only
    rw [if_neg hgood, hcost]
    rfl

theorem loadedCollectionTakeCapture_isSome {collection : LoadedCollection} {k : ℕ}
    (hcount : collection.captures.length ≤ collection.capacity) (hk : k < collection.capacity)
    (hle : k ≤ collection.captures.length)
    (hstorage : ∀ c ∈ collection.captures, c.storage ≠ incoming.storage) :
    (loadedCollectionTakeCapture collection incoming k).isSome = true := by
  have hown : ¬(incoming.storage ≠ none ∧
      (collection.captures.any fun c => decide (c.storage = incoming.storage)) = true) := by
    rintro ⟨-, hsame⟩
    obtain ⟨c, hc, heq⟩ := List.any_eq_true.1 hsame
    exact hstorage c hc (by simpa using heq)
  unfold loadedCollectionTakeCapture
  dsimp only
  rw [if_neg (by omega), if_neg hown]
  split_ifs <;> rfl

/-- **Retaining a capture succeeds**, with a slot or without. -/
theorem loadedTemplateRetainCapture_total (h : t.Adaptable)
    (hscores : t.collection.captures.length ≤ scores.length)
    (hstorage : ∀ c ∈ t.collection.captures, c.storage ≠ incoming.storage)
    (protection : UInt16) :
    (loadedTemplateRetainCapture t scores protection incoming).status = 0 := by
  have hcapacity : t.graph.capacity.toNat = 32 := by
    rw [h.capacity]
    rfl
  have hcount := h.count_le
  have hselectable : (enrollmentSelectCapture t.graph.scores t.graph.scoreCount
      t.collection.captures.length 32 (scores.take t.collection.captures.length) t.graph.order
      t.graph.ages protection.toNat t.graph.ageThreshold).isSome = true := h.select _
  obtain ⟨selected, hselect⟩ := Option.isSome_iff_exists.1 hselectable
  unfold loadedTemplateRetainCapture
  rw [h.retainable hscores, if_neg (by simp)]
  dsimp only
  rw [h.used, hcapacity, hselect]
  dsimp only
  split_ifs with hnegative
  · rfl
  · have hfree := (enrollmentSelectCapture_free hselect).resolve_left fun hnone =>
      hnegative (hnone ▸ by norm_num)
    obtain ⟨k, rfl, hk⟩ := hfree
    have hk : t.Free protection.toNat k := hk
    obtain ⟨hle, hlt⟩ := hk.le
    have htakes : (loadedCollectionTakeCapture t.collection incoming k).isSome = true :=
      loadedCollectionTakeCapture_isSome (by rw [h.room]; exact hcount)
        (by rw [h.room]; exact hlt) hle hstorage
    obtain ⟨taken, htaken⟩ := Option.isSome_iff_exists.1 htakes
    have hwrites : (enrollmentWriteCaptureScores (t.graph.scores.getD []) t.graph.scoreCount
        t.collection.captures.length 32 k
        (scores.take t.collection.captures.length)).isSome = true :=
      enrollmentWriteCaptureScores_isSome (by norm_num) (by norm_num) hcount
        (by rw [h.graph.scoreCount, hcapacity]) hle hlt (by rw [List.length_take]; omega)
    obtain ⟨⟨written, count⟩, hwritten⟩ := Option.isSome_iff_exists.1 hwrites
    rw [Int.toNat_natCast, htaken]
    dsimp only
    rw [hwritten]

/-- **An update of an adaptable template succeeds.** -/
theorem updateTemplateAfterMatch_total (h : t.Adaptable)
    (hscores : t.collection.captures.length ≤ scores.length)
    (hstorage : ∀ c ∈ t.collection.captures, c.storage ≠ incoming.storage)
    {q28 q32 q16 : ℤ} {policy : TemplateUpdatePolicy} {state : TemplateUpdateState}
    (hcode : state.code = 102) :
    (updateTemplateAfterMatch t incoming q28 q32 q16 scores policy state).status = 0 := by
  obtain ⟨graph, hgraph, haged, -, -⟩ := retainedGraphIncrementAges_age h
  obtain ⟨hreset, -, hcollection, -⟩ := resetAgeIgnoring_age haged state.selectedCapture
  unfold updateTemplateAfterMatch
  rw [if_neg (not_not.2 hcode)]
  dsimp only
  split_ifs
  · rw [hgraph]
    dsimp only
    unfold retainGoodCapture
    split_ifs
    · refine loadedTemplateRetainCapture_total hreset ?_ ?_ _
      · rw [hcollection]
        exact hscores
      · rw [hcollection]
        exact hstorage
    · rfl
  · rfl

end Update

/-! ### The query -/

theorem LoadedCapture.IsProbe.usable {probe : LoadedCapture} (h : probe.IsProbe) :
    probe.view.Usable := by
  obtain ⟨hmode, hbytes, hlevels, hcount⟩ := captureCompatible_iff.1 h.compatible
  exact ⟨h.fits, hmode, hbytes, hlevels, hcount⟩

/-! ### The stored templates -/

theorem LoadedTemplate.Accepted.adaptable {t : LoadedTemplate} (h : t.Accepted) : t.Adaptable := by
  have hchecked := checkTemplate_eq_ok.1 h.check
  exact ⟨h.consistent.graph, hchecked.graph, hchecked.collection, h.consistent.used,
    hchecked.order⟩

theorem LoadedTemplate.Accepted.usable {t : LoadedTemplate} (h : t.Accepted) :
    ∀ c ∈ t.collection.captures, c.view.Usable := by
  intro c hc
  obtain ⟨hmode, hbytes, hlevels, hcount⟩ :=
    captureCompatible_iff.1 ((checkTemplate_eq_ok.1 h.check).compatible c hc)
  exact ⟨h.consistent.captures c hc, hmode, hbytes, hlevels, hcount⟩

/-- Templates that validated load, each into allocations of its own. -/
theorem loadStored_total {records : List (Name × Fingerprint)}
    (hvalid : ∀ record ∈ records, validateNative record.2.native = .ok ()) {fresh : ℕ}
    (hfresh : 0 < fresh) :
    ∃ owned, loadStored records fresh = .ok owned ∧ owned.length = records.length ∧
      ∀ t ∈ owned, ∀ c ∈ t.collection.captures, c.storage ≠ some 0 := by
  induction records generalizing fresh with
  | nil => exact ⟨[], rfl, rfl, nofun⟩
  | cons record records ih =>
      obtain ⟨loaded, hload, -⟩ := validateNative_load (hvalid record List.mem_cons_self) fresh
      obtain ⟨rest, hrest, hlength, hstorage⟩ :=
        ih (fun r hr => hvalid r (List.mem_cons_of_mem _ hr)) (by omega : 0 < fresh + 80)
      refine ⟨loaded :: rest, by rw [loadStored, hload, hrest], by simp [hlength], ?_⟩
      intro t ht
      rcases List.mem_cons.1 ht with rfl | ht
      · intro c hc
        obtain ⟨k, -, hk⟩ := (templateLoadDefault_sound hload).2 c hc
        rw [hk]
        intro hzero
        have := Option.some.inj hzero
        omega
      · exact hstorage t ht

/-! ### The template that matched -/

theorem matchCaptures_spatialScores {query : CapturePayloadView} {capacity : ℕ}
    {captures : List LoadedCapture} {scan last : CollectionScan}
    (h : matchCaptures query capacity captures scan = some last) :
    last.result.spatialScores.length = scan.result.spatialScores.length + captures.length := by
  induction captures generalizing scan with
  | nil =>
      obtain rfl := Option.some.inj h
      rfl
  | cons capture captures ih =>
      rw [matchCaptures] at h
      split at h
      · cases h
      · rename_i next hstep
        unfold matchCaptureStep at hstep
        split at hstep
        · cases hstep
        · obtain rfl := Option.some.inj hstep
          rw [ih h, List.length_append, List.length_singleton, List.length_cons]
          omega

/-- Matching a collection scores every capture. -/
theorem matchProfile300Collection_spatialScores {collection : LoadedCollection}
    {query : CapturePayloadView} {membership bits : List UInt8} {found : CollectionMatchResult}
    (h : matchProfile300Collection collection query membership = some (found, bits)) :
    found.spatialScores.length = collection.captures.length := by
  unfold matchProfile300Collection at h
  split_ifs at h
  dsimp only at h
  split at h
  · cases h
  · rename_i hscan
    obtain ⟨rfl, -⟩ := Prod.mk.inj (Option.some.inj h)
    have := matchCaptures_spatialScores hscan
    simpa using this

/-- **Adapting the template that matched succeeds.** -/
theorem adaptTemplate_total {t : LoadedTemplate} (haccepted : t.Accepted)
    (hstorage : ∀ c ∈ t.collection.captures, c.storage ≠ some 0) {probe : LoadedCapture}
    (hprobe : probe.IsProbe) (hfresh : probe.storage = some 0) {membership : List UInt8}
    (hbits : (probe.view.count + 7) / 8 ≤ membership.length) (query : PreparedCapture)
    (result : IdentificationResult) :
    ∃ adapted, adaptTemplate t probe query result membership = .ok adapted := by
  have hcount := haccepted.adaptable.count_le
  obtain ⟨found, bits, hfound⟩ := matchProfile300Collection_isSome hprobe.usable
    (by omega : t.collection.captures.length ≤ 80) haccepted.usable hbits
  have hscores : t.collection.captures.length ≤
      (found.spatialScores.map UInt16.ofNat).length := by
    rw [List.length_map, matchProfile300Collection_spatialScores hfound]
  have hother : ∀ c ∈ t.collection.captures, c.storage ≠ (probe.withMembership bits).storage :=
    fun c hc => hfresh ▸ hstorage c hc
  unfold adaptTemplate
  rw [hfound]
  dsimp only
  rw [updateTemplateAfterMatch_total haccepted.adaptable hscores hother rfl, if_neg (by simp)]
  exact ⟨_, rfl⟩

/-! ### Verification -/

/-- A user has at most one record for each finger. -/
theorem FingerprintStorage.candidates_length {s : FingerprintStorage}
    (hsound : s.fingerprints.Sound) (user name : Name) : (s.candidates user name).length ≤ 10 := by
  have hentries : (s.fingerprints.prints user).entries.length ≤ 10 := by
    set entries := (s.fingerprints.prints user).entries with hdef
    have hnodup : (entries.map Prod.fst).Nodup :=
      List.pairwise_map.2 ((s.fingerprints.prints user).sorted.imp fun hlt => hlt.ne)
    have hnames : entries.map Prod.fst ⊆ fingerNames := by
      intro key hkey
      obtain ⟨⟨key', print⟩, hmem, rfl⟩ := List.mem_map.1 hkey
      have hstored := hsound.stored (SortedMap.mem_entries.1 hmem)
      obtain ⟨finger, hfinger, hsame⟩ := List.any_eq_true.1 hstored.validName
      rwa [beq_iff_eq.1 hsame]
    have := (List.subperm_of_subset hnodup hnames).length_le
    rwa [List.length_map] at this
  have hordered : (s.ordered user).length = (s.fingerprints.prints user).entries.length :=
    (List.perm_insertionSort _ _).length_eq
  have hfilter : (s.candidates user name).length ≤ (s.ordered user).length :=
    List.length_filter_le _ _
  omega

/-- **Comparing a query with sound records succeeds.** -/
theorem FingerprintStorage.identify_total {s : FingerprintStorage} (hsound : s.fingerprints.Sound)
    (user name : Name) {query : PreparedCapture} (hfew : query.features.length ≤ 300) :
    ∃ decision, s.identify user name query = .ok decision := by
  obtain hcapture := captureFromPrepared_total hfew false 0
  set probe : LoadedCapture := ⟨(preparedView query false).selected defaultFlags, some 0⟩
  have hprobe : probe.IsProbe := captureFromPrepared_isProbe hcapture
  have hvalid : ∀ record ∈ s.candidates user name, validateNative record.2.native = .ok () :=
    fun record hr => (hsound.stored (FingerprintStorage.mem_candidates hr).1).native
  obtain ⟨owned, howned, hlength, hstorage⟩ := loadStored_total hvalid Nat.one_pos
  have haccepted := loadStored_accepted hvalid howned
  have hbits : (probe.view.count + 7) / 8 ≤ (probe.view.membership.getD []).length :=
    (hprobe.fits.membership rfl).ge
  have hcandidates := FingerprintStorage.candidates_length hsound user name
  have hcollections : ∀ collection ∈ owned.map LoadedTemplate.collection,
      collection.captures.length ≤ 80 ∧ ∀ c ∈ collection.captures, c.view.Usable := by
    intro collection hmem
    obtain ⟨t, ht, rfl⟩ := List.mem_map.1 hmem
    have := (haccepted t ht).adaptable.count_le
    exact ⟨by omega, (haccepted t ht).usable⟩
  obtain ⟨result, membership, hresult⟩ := identifyProfile300_isSome hprobe.usable
    (by rw [List.length_map]; omega) hcollections (by decide : 0 < verifyPolicy.threshold)
    (by decide) hbits query.confidence
  unfold identify
  rw [hcapture]
  dsimp only
  rw [howned]
  dsimp only
  rw [hresult]
  dsimp only
  by_cases hmatched : result.matched = 0
  · rw [if_pos hmatched]
    exact ⟨_, rfl⟩
  · rw [if_neg hmatched]
    -- the selected template is one of the walk
    have hfirst := (identifyProfile300_matched query.confidence rfl
      (by decide : 0 < verifyPolicy.threshold) fun c hc hfails => by
        obtain ⟨found, bits, hfound⟩ := matchProfile300Collection_isSome hprobe.usable
          (hcollections c hc).1 (hcollections c hc).2 hbits
        rw [hfound] at hfails
        cases hfails).2 result membership hresult
    obtain ⟨-, before, c, after, hsplit, -, -, hselected⟩ :=
      hfirst.resolve_left fun hnone => hmatched hnone.1
    have hindex : result.selectedTemplate.toNat < owned.length := by
      have := congrArg List.length hsplit
      rw [List.length_map, List.length_append, List.length_cons] at this
      rw [hselected, Int.toNat_natCast]
      omega
    have hrecord : result.selectedTemplate.toNat < (s.candidates user name).length :=
      hlength ▸ hindex
    rw [List.getElem?_eq_getElem hindex, List.getElem?_eq_getElem hrecord]
    dsimp only
    have hmem := List.getElem_mem hindex
    have hmembership := identifyProfile300_membership hresult
    obtain ⟨⟨adapted, changed⟩, hadapt⟩ := adaptTemplate_total (haccepted _ hmem)
      (hstorage _ hmem) hprobe rfl (by rw [hmembership]; exact hbits) query result
    rw [hadapt]
    exact ⟨_, rfl⟩

/-- **Verification never errors.**  In every store that calls can lead to, a query with at most 300
features is matched or it is not, whatever the disk does. -/
theorem Store.verify_total {cipher : Cipher} {store : Store} (h : store.Reachable cipher)
    (disk : Disk) (user name : Name) {query : PreparedCapture}
    (hfew : query.features.length ≤ 300) :
    ∃ matched, (store.verify cipher disk user name query).outcome = .ok matched := by
  obtain ⟨decision, hdecision⟩ := FingerprintStorage.identify_total h.sound.1 user name hfew
  unfold Store.verify
  rw [hdecision]
  cases decision with
  | noMatch => exact ⟨false, rfl⟩
  | unchanged => exact ⟨true, rfl⟩
  | adapted key print t =>
      obtain ⟨-, -, haccepted⟩ := FingerprintStorage.identify_adapted h.sound.1 hdecision
      obtain ⟨native, hnative, -⟩ := serializeNativeTemplate_accepted haccepted
      dsimp only
      rw [hnative]
      exact ⟨true, rfl⟩

/-- Comparing a query with one record that matches and changes. -/
theorem FingerprintStorage.identify_single {s : FingerprintStorage} {user name key : Name}
    {query : PreparedCapture} {probe : LoadedCapture} {print : Fingerprint}
    {t adapted : LoadedTemplate} {result : IdentificationResult} {membership : List UInt8}
    (hprobe : captureFromPrepared query false 0 = .ok probe)
    (hcandidates : s.candidates user name = [(key, print)])
    (hload : templateLoadDefault print.native 32 1 = .ok t)
    (hresult : identifyProfile300 [t.collection] probe.view query.confidence
      (probe.view.membership.getD []) verifyPolicy = some (result, membership))
    (hmatched : result.matched ≠ 0) (hselected : result.selectedTemplate.toNat = 0)
    (hadapt : adaptTemplate t probe query result membership = .ok (adapted, true)) :
    s.identify user name query = .ok (.adapted key print adapted) := by
  have hloaded : loadStored [(key, print)] 1 = .ok [t] := by
    rw [loadStored, hload]
    rfl
  rw [identify, hprobe]
  dsimp only
  rw [hcandidates, hloaded]
  dsimp only
  rw [List.map_singleton, hresult]
  dsimp only
  rw [if_neg hmatched, hselected, List.getElem?_cons_zero, List.getElem?_cons_zero]
  dsimp only
  rw [hadapt]
  rfl

/-- What an identification that matches the first template, and an adaptation of it, come to. -/
def changesFirst (found : Option (IdentificationResult × List UInt8))
    (adapt : IdentificationResult → List UInt8 → Except String (LoadedTemplate × Bool)) : Bool :=
  match found with
  | none => false
  | some (result, membership) =>
      decide (result.matched ≠ 0 ∧ result.selectedTemplate.toNat = 0) &&
        match adapt result membership with
        | .ok (_, changed) => changed
        | .error _ => false

theorem changesFirst_eq_true {found : Option (IdentificationResult × List UInt8)}
    {adapt : IdentificationResult → List UInt8 → Except String (LoadedTemplate × Bool)}
    (h : changesFirst found adapt = true) : ∃ result membership adapted,
      found = some (result, membership) ∧
        (result.matched ≠ 0 ∧ result.selectedTemplate.toNat = 0) ∧
          adapt result membership = .ok (adapted, true) := by
  obtain _ | ⟨result, membership⟩ := found
  · cases h
  obtain ⟨hmatched, hadapt⟩ := Bool.and_eq_true_iff.1 h
  cases hadapted : adapt result membership with
  | error e =>
      rw [hadapted] at hadapt
      cases hadapt
  | ok out =>
      rw [hadapted] at hadapt
      obtain ⟨adapted, changed⟩ := out
      obtain rfl : changed = true := hadapt
      exact ⟨result, membership, adapted, rfl, of_decide_eq_true hmatched, hadapted⟩

/-- The probe of a query on the grid. -/
def gridProbe : LoadedCapture :=
  ⟨(preparedView (gridCapture 3) false).selected defaultFlags, some 0⟩

/-- The template of the enrolled storage matches a query of the same finger, and ages. -/
theorem gridLoaded_changes : changesFirst
    (identifyProfile300 [(gridLoaded 1 1).collection] gridProbe.view (gridCapture 3).confidence
      (gridProbe.view.membership.getD []) verifyPolicy)
    (adaptTemplate (gridLoaded 1 1) gridProbe (gridCapture 3)) = true := by
  decide +kernel

theorem enrolledStore_candidates : enrolledStore.storage.candidates (ascii "anna") (ascii "any") =
    [(ascii "right-thumb", thumbOf (ascii "anna") 1)] := by
  rw [enrolledStore_storage]
  rfl

/-- A query of an enrolled finger is compared with its template, matches, and adapts it. -/
theorem Store.verify_total_enrolled :
    (∃ t, enrolledStore.storage.identify (ascii "anna") (ascii "any") (gridCapture 3) =
      .ok (.adapted (ascii "right-thumb") (thumbOf (ascii "anna") 1) t)) ∧
    ∃ matched, (enrolledStore.verify plainCipher (Disk.sound (Vector.replicate 12 3))
      (ascii "anna") (ascii "any") (gridCapture 3)).outcome = .ok matched := by
  refine ⟨?_, Store.verify_total enrolledStore_reachable _ _ _ (gridCapture_few 3)⟩
  obtain ⟨result, membership, adapted, hresult, ⟨hmatched, hselected⟩, hadapt⟩ :=
    changesFirst_eq_true gridLoaded_changes
  have hprobe : captureFromPrepared (gridCapture 3) false 0 = .ok gridProbe :=
    captureFromPrepared_total (gridCapture_few 3) false 0
  have hload : templateLoadDefault (thumbOf (ascii "anna") 1).native 32 1 = .ok (gridLoaded 1 1) :=
    gridTemplate_load (by norm_num) (by norm_num) 1
  exact ⟨adapted, FingerprintStorage.identify_single hprobe enrolledStore_candidates hload hresult
    hmatched hselected hadapt⟩

end Fpc
