/-
**What the loader guarantees.**

Whatever bytes the loader of a template accepts, the structures it returns are consistent: every
array has the length its counts announce, the levels of each capture cover its features, and graph
and collection belong together.  Hence an accepted template can be written again.

Main definitions:

* `Fpc.SectionsRead` — the sections of a payload, one after the other.

Main results:

* `Fpc.captureLoadPayload_ok`, `Fpc.loadSections_ok` — what has been checked and read;
* `Fpc.captureLoadPayload_fits` — a loaded capture fits;
* `Fpc.templateLoadDefault_sound` — **a loaded template fits**, its total size aside.
-/

import FpcReader.Native.TemplateRoundTrip
import Mathlib.Algebra.Group.Action.Defs
import Mathlib.Algebra.Order.BigOperators.Group.List
import Mathlib.Data.List.GetD

set_option relaxedAutoImplicit false
set_option autoImplicit false

namespace Fpc

open Bytes Fallible

/-! ### Captures -/

theorem readBytes_eq_ok {n : ℕ} {data first rest : List UInt8}
    (h : readBytes n data = .ok (first, rest)) : data = first ++ rest ∧ first.length = n := by
  unfold readBytes at h
  cases hcut : cut n data with
  | none => simp [hcut] at h
  | some parts =>
      simp only [hcut, Except.ok.injEq] at h
      subst h
      exact cut_eq_some.1 hcut

theorem splitLevels_length (extra levels : ℕ) {words : List UInt16}
    (h : words.length = levels * (5 + extra)) :
    (splitLevels extra levels words).1.length = 5 * levels ∧
      (splitLevels extra levels words).2.length = extra * levels := by
  induction levels generalizing words with
  | zero => exact ⟨rfl, rfl⟩
  | succ levels ih =>
      rw [Nat.succ_mul] at h
      have hrest : (words.drop (5 + extra)).length = levels * (5 + extra) := by
        simp
        omega
      obtain ⟨hfields, hextras⟩ := ih hrest
      rw [splitLevels, List.length_append, List.length_append, hfields, hextras,
        List.length_take_of_le (by omega), List.length_take_of_le (by simp; omega)]
      constructor <;> ring

@[simp]
theorem loadWords16_length (n : ℕ) (data : List UInt8) : (loadWords16 n data).length = n := by
  rw [loadWords16, List.length_map, leWords_length]

@[simp]
theorem loadWords32_length (n : ℕ) (data : List UInt8) : (loadWords32 n data).length = n := by
  rw [loadWords32, List.length_map, leWords_length]

theorem loadWords16_drop (m n : ℕ) (data : List UInt8) :
    (loadWords16 (m + n) data).drop m = loadWords16 n (data.drop (2 * m)) := by
  rw [loadWords16, ← List.map_drop, leWords_drop]
  rfl

/-- The first word is the one at the start. -/
theorem loadWords16_head {n : ℕ} {data : List UInt8} (h : 2 ≤ data.length) :
    (loadWords16 (n + 1) data).getD 0 0 = le16 data := by
  obtain ⟨a, b, rest, rfl⟩ : ∃ a b rest, data = a :: b :: rest := by
    match data, h with
    | a :: b :: rest, _ => exact ⟨a, b, rest, rfl⟩
  apply UInt16.toNat_inj.1
  rw [le16_toNat, loadWords16, leWords, List.map_cons, List.getD_cons_zero]
  have ha := a.toNat_lt
  have hb := b.toNat_lt
  simp only [List.take_succ_cons, List.take_zero, leValue, UInt16.toNat_ofNat',
    List.getD_cons_zero, List.getD_cons_succ]
  omega

/-- The level counts the loader adds up are those of the fields it splits off. -/
theorem loadLevelCounts_sound {extra levels : ℕ} {data : List UInt8} {offset sum : ℕ}
    (h : loadLevelCounts (2 * (5 + extra)) data levels offset = .ok sum) :
    (∀ c ∈ levelCounts levels (splitLevels extra levels
        (loadWords16 (levels * (5 + extra)) (data.drop offset))).1, c ≤ 32767) ∧
      (levelCounts levels (splitLevels extra levels
        (loadWords16 (levels * (5 + extra)) (data.drop offset))).1).sum = sum := by
  induction levels generalizing offset sum with
  | zero =>
      simp only [loadLevelCounts, Except.ok.injEq] at h
      simp [levelCounts, h]
  | succ levels ih =>
      rw [loadLevelCounts, bind_eq_ok] at h
      obtain ⟨count, hcount, h⟩ := h
      split_ifs at h with hle
      rw [bind_eq_ok] at h
      obtain ⟨rest, hrest, h⟩ := h
      obtain ⟨hall, hsum⟩ := ih hrest
      unfold loadLe16 at hcount
      split_ifs at hcount with hroom
      set words := loadWords16 ((levels + 1) * (5 + extra)) (data.drop offset) with hwords
      have hlen : words.length = levels * (5 + extra) + (5 + extra) := by
        rw [hwords, loadWords16_length, Nat.succ_mul]
      have hhead : words.getD 0 0 = count := by
        rw [hwords, show (levels + 1) * (5 + extra) = levels * (5 + extra) + 4 + extra + 1 by ring,
          loadWords16_head (by rw [List.length_drop]; omega)]
        exact Except.ok.inj hcount
      have htail : words.drop (5 + extra) =
          loadWords16 (levels * (5 + extra)) (data.drop (offset + 2 * (5 + extra))) := by
        rw [hwords, show (levels + 1) * (5 + extra) = 5 + extra + levels * (5 + extra) by ring,
          loadWords16_drop, List.drop_drop]
      have hfields : (splitLevels extra (levels + 1) words).1 =
          words.take 5 ++ (splitLevels extra levels (words.drop (5 + extra))).1 := by
        rw [splitLevels]
      have hfive : (words.take 5).length = 5 := List.length_take_of_le (by omega)
      have hfirst : ((splitLevels extra (levels + 1) words).1).getD 0 0 = count := by
        rw [hfields, ← hhead, List.getD_append _ _ _ _ (by omega)]
        simp [List.getD_eq_getElem?_getD]
      have hdrop : ((splitLevels extra (levels + 1) words).1).drop 5 =
          (splitLevels extra levels (words.drop (5 + extra))).1 := by
        rw [hfields]
        exact List.drop_left' hfive
      rw [levelCounts, hfirst, hdrop, htail]
      refine ⟨?_, ?_⟩
      · intro c hc
        rcases List.mem_cons.1 hc with rfl | hc
        · exact not_lt.1 hle
        · exact hall c hc
      · rw [List.sum_cons, hsum]
        exact Except.ok.inj h

theorem loadedArray_length {α : Type} {size k : ℕ} {array : List α} (h : array.length = k)
    (hzero : size = 0 → k = 0) : ((loadedArray size array).getD []).length = k := by
  unfold loadedArray
  split_ifs with hsize
  · exact (hzero hsize).symm
  · exact h

/-- The sections of a payload one after the other, with what is left behind them. -/
structure SectionsRead (sizes : SectionSizes) (data words compact coordinates scores angles
    descriptors membership rest : List UInt8) : Prop where
  bytes : data = words ++ (compact ++ (coordinates ++ (scores ++ (angles ++
    (descriptors ++ (membership ++ rest))))))
  words : words.length = sizes.levels
  compact : compact.length = sizes.compact
  coordinates : coordinates.length = sizes.coordinates
  scores : scores.length = sizes.scores
  angles : angles.length = sizes.angles
  descriptors : descriptors.length = sizes.descriptors
  membership : membership.length = sizes.membership

theorem loadSections_ok {n levels extra : ℕ} {header data : List UInt8} {sizes : SectionSizes}
    {view : CapturePayloadView} (h : loadSections n header sizes levels extra data = .ok view) :
    ∃ words compact coordinates scores angles descriptors membership rest,
      SectionsRead sizes data words compact coordinates scores angles descriptors membership
        rest ∧
      view = {
        count := n
        mode := header.getD 0 0
        descriptorBytes := header.getD 1 0
        levels := header.getD 2 0
        tableWidth := header.getD 3 0
        levelFields := some (splitLevels extra levels
          (loadWords16 (levels * (5 + extra)) words)).1
        levelExtra := some (splitLevels extra levels
          (loadWords16 (levels * (5 + extra)) words)).2
        compactCoordinates := loadedArray sizes.compact compact
        descriptors := loadedArray sizes.descriptors descriptors
        membership := loadedArray sizes.membership membership
        coordinates := loadedArray sizes.coordinates
          (loadWords32 (sizes.coordinates / 4) coordinates)
        scores := loadedArray sizes.scores (loadWords32 (sizes.scores / 4) scores)
        angles := loadedArray sizes.angles (loadWords32 (sizes.angles / 4) angles) } := by
  unfold loadSections at h
  rw [bind_eq_ok] at h
  obtain ⟨⟨words, rest₁⟩, hwords, h⟩ := h
  rw [bind_eq_ok] at h
  obtain ⟨⟨compact, rest₂⟩, hcompact, h⟩ := h
  rw [bind_eq_ok] at h
  obtain ⟨⟨coordinates, rest₃⟩, hcoordinates, h⟩ := h
  rw [bind_eq_ok] at h
  obtain ⟨⟨scores, rest₄⟩, hscores, h⟩ := h
  rw [bind_eq_ok] at h
  obtain ⟨⟨angles, rest₅⟩, hangles, h⟩ := h
  rw [bind_eq_ok] at h
  obtain ⟨⟨descriptors, rest₆⟩, hdescriptors, h⟩ := h
  rw [bind_eq_ok] at h
  obtain ⟨⟨membership, rest₇⟩, hmembership, h⟩ := h
  obtain ⟨rfl, hwordsLength⟩ := readBytes_eq_ok hwords
  obtain ⟨rfl, hcompactLength⟩ := readBytes_eq_ok hcompact
  obtain ⟨rfl, hcoordinatesLength⟩ := readBytes_eq_ok hcoordinates
  obtain ⟨rfl, hscoresLength⟩ := readBytes_eq_ok hscores
  obtain ⟨rfl, hanglesLength⟩ := readBytes_eq_ok hangles
  obtain ⟨rfl, hdescriptorsLength⟩ := readBytes_eq_ok hdescriptors
  obtain ⟨rfl, hmembershipLength⟩ := readBytes_eq_ok hmembership
  exact ⟨words, compact, coordinates, scores, angles, descriptors, membership, rest₇,
    ⟨rfl, hwordsLength, hcompactLength, hcoordinatesLength, hscoresLength, hanglesLength,
      hdescriptorsLength, hmembershipLength⟩, (Except.ok.inj h).symm⟩

/-- What the loader of a capture has checked when it accepts, and what it has read. -/
theorem captureLoadPayload_ok {data : List UInt8} {flags : UInt16} {fresh : ℕ}
    {capture : LoadedCapture} (hflag : hasFlag flags 0x400 = true)
    (h : captureLoadPayload data flags fresh = .ok capture) :
    ∃ count sum view, loadLe32 data 0 = .ok count ∧ count.toNat ≤ 32767 ∧
      data.length = 8 + (sectionSizes count.toNat (((data.drop 4).take 4).getD 1 0)
        (((data.drop 4).take 4).getD 2 0) (((data.drop 4).take 4).getD 3 0) flags).total ∧
      loadLevelCounts (2 * (5 + extraWords (((data.drop 4).take 4).getD 3 0))) data
        (((data.drop 4).take 4).getD 2 0).toNat 8 = .ok sum ∧ sum % 2 ^ 32 = count.toNat ∧
      loadSections count.toNat ((data.drop 4).take 4)
        (sectionSizes count.toNat (((data.drop 4).take 4).getD 1 0)
          (((data.drop 4).take 4).getD 2 0) (((data.drop 4).take 4).getD 3 0) flags)
        (((data.drop 4).take 4).getD 2 0).toNat (extraWords (((data.drop 4).take 4).getD 3 0))
        (data.drop 8) = .ok view ∧ capture = ⟨view, some fresh⟩ := by
  unfold captureLoadPayload at h
  by_cases hshort : data.length < 4
  · rw [if_pos hshort] at h
    cases h
  rw [if_neg hshort, bind_eq_ok] at h
  obtain ⟨count, hcount, h⟩ := h
  simp only [hflag, Bool.not_true, Bool.false_eq_true, if_false] at h
  split_ifs at h with hmany hheader hsize
  rw [bind_eq_ok] at h
  obtain ⟨sum, hsum, h⟩ := h
  split_ifs at h with htotal
  rw [bind_eq_ok] at h
  obtain ⟨view, hview, h⟩ := h
  exact ⟨count, sum, view, hcount, not_lt.1 hmany, not_not.1 hsize, hsum, not_not.1 htotal, hview,
    (Except.ok.inj h).symm⟩

/-- **A loaded capture fits.** -/
theorem captureLoadPayload_fits {data : List UInt8} {flags : UInt16} {fresh : ℕ}
    {capture : LoadedCapture} (hflag : hasFlag flags 0x400 = true)
    (h : captureLoadPayload data flags fresh = .ok capture) :
    capture.view.Fits flags ∧ capture.storage = some fresh := by
  obtain ⟨count, sum, view, -, hcount, -, hsum, htotal, hview, rfl⟩ :=
    captureLoadPayload_ok hflag h
  refine ⟨?_, rfl⟩
  set n := count.toNat with hn
  set header := (data.drop 4).take 4 with hheaderEq
  set sizes := sectionSizes n (header.getD 1 0) (header.getD 2 0) (header.getD 3 0) flags
    with hsizes
  set extra := extraWords (header.getD 3 0) with hextra
  set levels := (header.getD 2 0).toNat with hlevels
  have hcounts := loadLevelCounts_sound hsum
  obtain ⟨words, compact, coordinates, scores, angles, descriptors, membership, rest, hread, rfl⟩ :=
    loadSections_ok hview
  -- the level words are the ones the counts were read from
  have hsame : loadWords16 (levels * (5 + extra)) words =
      loadWords16 (levels * (5 + extra)) (data.drop 8) := by
    have hlevelSize : sizes.levels = 2 * (levels * (5 + extra)) := by
      rw [hsizes, sectionSizes]
      ring
    rw [hread.bytes, loadWords16, loadWords16, leWords_append (by rw [hread.words, hlevelSize])]
  obtain ⟨hfields, hextras⟩ := splitLevels_length extra levels
    (loadWords16_length (levels * (5 + extra)) words)
  have hsumLe : sum = n := by
    have hbound : sum < 2 ^ 32 := by
      have hle := List.sum_le_card_nsmul _ _ hcounts.1
      rw [hcounts.2, levelCounts_eq, List.length_map, List.length_range] at hle
      have := (header.getD 2 0).toNat_lt
      rw [smul_eq_mul] at hle
      have hlevelsLt : levels ≤ 255 := by omega
      have : levels * 32767 ≤ 255 * 32767 := Nat.mul_le_mul_right _ hlevelsLt
      omega
    rwa [Nat.mod_eq_of_lt hbound] at htotal
  exact {
    count := hcount
    levelFields := hfields
    levelExtra := hextras
    compact := fun hf => loadedArray_length (by rw [hread.compact, hsizes]; simp [sectionSizes, hf])
      (by rw [hsizes]; simp [sectionSizes, hf])
    coordinates := fun hf => loadedArray_length
      (by rw [loadWords32_length, hsizes]; simp [sectionSizes, hf]; omega)
      (by rw [hsizes]; simp [sectionSizes, hf])
    scores := fun hf => loadedArray_length
      (by rw [loadWords32_length, hsizes]; simp [sectionSizes, hf])
      (by rw [hsizes]; simp [sectionSizes, hf])
    angles := fun hf => loadedArray_length
      (by rw [loadWords32_length, hsizes]; simp [sectionSizes, hf])
      (by rw [hsizes]; simp [sectionSizes, hf])
    descriptors := fun hf => loadedArray_length
      (by rw [hread.descriptors, hsizes]; simp [sectionSizes, hf])
      (by rw [hsizes]; simp [sectionSizes, hf])
    membership := fun hf => loadedArray_length
      (by rw [hread.membership, hsizes]; simp [sectionSizes, hf])
      (by rw [hsizes]; simp only [sectionSizes, hf, if_true]; omega)
    levelCount_le := by
      have := hcounts.1
      rw [← hsame] at this
      exact this
    levelCount_sum := by
      have := hcounts.2
      rw [← hsame, hsumLe] at this
      exact this }

/-! ### Templates -/

/-- Graph and collection of a template in memory belong together, and all arrays have the lengths
announced for them. -/
structure LoadedTemplate.Consistent (t : LoadedTemplate) (retentionCapacity : UInt8) : Prop where
  graph : t.graph.Fits retentionCapacity
  retention : retentionCapacity ≠ 0
  captures : ∀ c ∈ t.collection.captures, c.view.Fits defaultFlags
  used : t.graph.used.toNat = t.collection.captures.length
  count_le : t.collection.captures.length ≤ t.collection.capacity
  capacity : t.collection.capacity ≤ 65535

/-- The views of a collection. -/
def LoadedCollection.views (collection : LoadedCollection) : List CapturePayloadView :=
  collection.captures.map LoadedCapture.view

/-- A consistent template that is not too large can be written. -/
theorem LoadedTemplate.Consistent.fits {t : LoadedTemplate} {retentionCapacity : UInt8}
    (h : t.Consistent retentionCapacity)
    (htotal : templateTotal t.graph t.collection.views retentionCapacity < 2 ^ 31) :
    TemplateFits t.graph t.collection.views t.collection.capacity retentionCapacity where
  graphFits := h.graph
  viewsFit := by
    intro view hview
    obtain ⟨c, hc, rfl⟩ := List.mem_map.1 hview
    exact h.captures c hc
  retention := h.retention
  used := by rw [LoadedCollection.views, List.length_map, h.used]
  count_le := by
    rw [LoadedCollection.views, List.length_map]
    exact h.count_le
  capacity := h.capacity
  total := htotal

theorem withStatus_eq_ok {α : Type} {code : ℤ} {x : Except Fault α} {a : α}
    (h : withStatus code x = .ok a) : x = .ok a := by
  cases x with
  | error e => cases e <;> simp [withStatus] at h
  | ok b => exact h

/-- The loop over the capture blocks loads fitting captures into consecutive allocations. -/
theorem loadCaptures_sound {data : List UInt8} {fresh count i offset : ℕ}
    {captures : List LoadedCapture} {finish : ℕ}
    (h : loadCaptures data fresh count i offset = .ok (captures, finish)) :
    captures.length = count ∧
      ∀ c ∈ captures, c.view.Fits defaultFlags ∧
        ∃ k, i ≤ k ∧ k < i + count ∧ c.storage = some (fresh + k) := by
  induction count generalizing i offset captures finish with
  | zero =>
      simp only [loadCaptures, Except.ok.injEq, Prod.mk.injEq] at h
      simp [← h.1]
  | succ count ih =>
      rw [loadCaptures, bind_eq_ok] at h
      obtain ⟨length, -, h⟩ := h
      rw [bind_eq_ok] at h
      obtain ⟨capture, hcapture, h⟩ := h
      rw [bind_eq_ok] at h
      obtain ⟨⟨rest, finish'⟩, hrest, h⟩ := h
      obtain ⟨rfl, -⟩ := Prod.mk.inj (Except.ok.inj h)
      obtain ⟨hlen, hall⟩ := ih hrest
      refine ⟨by rw [List.length_cons, hlen], ?_⟩
      intro c hc
      rcases List.mem_cons.1 hc with rfl | hc
      · obtain ⟨hfits, hstorage⟩ := captureLoadPayload_fits hasFlag_default hcapture
        exact ⟨hfits, i, le_rfl, by omega, hstorage⟩
      · obtain ⟨hfits, k, hlo, hhi, hstorage⟩ := hall c hc
        exact ⟨hfits, k, by omega, by omega, hstorage⟩

theorem collectionLoadDefault_sound {data : List UInt8} {fresh : ℕ}
    {collection : LoadedCollection} {finish : ℕ}
    (h : collectionLoadDefault data fresh = .ok (collection, finish)) :
    collection.captures.length ≤ 80 ∧ collection.captures.length ≤ collection.capacity ∧
      collection.capacity ≤ 65535 ∧
      ∀ c ∈ collection.captures, c.view.Fits defaultFlags ∧
        ∃ k < 80, c.storage = some (fresh + k) := by
  rw [collectionLoadDefault, bind_eq_ok] at h
  obtain ⟨length, -, h⟩ := h
  by_cases hlength : length ≠ 24
  · rw [if_pos hlength] at h
    cases h
  rw [if_neg hlength, bind_eq_ok] at h
  obtain ⟨flags, -, h⟩ := h
  by_cases hflags : flags.toNat ≠ 0x0ce1
  · rw [if_pos hflags] at h
    cases h
  rw [if_neg hflags, bind_eq_ok] at h
  obtain ⟨count, -, h⟩ := h
  rw [bind_eq_ok] at h
  obtain ⟨capacity, -, h⟩ := h
  by_cases hbad : count.toNat = 0 ∨ 80 < count.toNat ∨ capacity.toNat < count.toNat ∨
      65535 < capacity.toNat
  · rw [if_pos hbad] at h
    cases h
  rw [if_neg hbad, bind_eq_ok] at h
  obtain ⟨⟨captures, finish'⟩, hcaptures, h⟩ := h
  obtain ⟨rfl, -⟩ := Prod.mk.inj (Except.ok.inj h)
  obtain ⟨hlen, hall⟩ := loadCaptures_sound hcaptures
  push Not at hbad
  refine ⟨by rw [hlen]; exact hbad.2.1, by rw [hlen]; exact hbad.2.2.1, hbad.2.2.2, ?_⟩
  intro c hc
  obtain ⟨hfits, k, -, hhi, hstorage⟩ := hall c hc
  exact ⟨hfits, k, by omega, hstorage⟩

/-- A loaded graph fits once its ages are there. -/
theorem retainedGraphLoad_sound {data ages : List UInt8} {retentionCapacity : UInt8}
    {loaded graph : RetainedGraph} {pending : UInt16}
    (h : retainedGraphLoadPayload data = .ok (loaded, pending))
    (hages : retainedGraphLoadAges loaded ages retentionCapacity = .ok graph) :
    graph.Fits retentionCapacity ∧ graph.used = loaded.used := by
  unfold retainedGraphLoadPayload at h
  dsimp only at h
  split_ifs at h with hshort hzero hbad hsize
  obtain ⟨rfl, -⟩ := Prod.mk.inj (Except.ok.inj h)
  unfold retainedGraphLoadAges at hages
  split_ifs at hages with hagesBad
  obtain rfl := Except.ok.inj hages
  push Not at hbad
  refine ⟨?_, rfl⟩
  exact {
    used_pos := Nat.pos_of_ne_zero fun h0 => hzero (UInt16.toNat_inj.1 h0)
    used_le := hbad.2.2.1
    used_le_capacity := hbad.2.1
    capacity := hbad.1
    order := ⟨_, rfl, by
      rw [List.length_take, loadWords16_length]
      exact Nat.min_eq_left (Nat.le_add_right _ _)⟩
    scores := ⟨_, rfl, by
      rw [List.length_drop, loadWords16_length]
      exact Nat.add_sub_cancel_left _ _⟩
    scoreCount := rfl
    ages := ⟨_, rfl, loadWords16_length _ _⟩
    ageCount := rfl }

/-- **A loaded template is consistent**, and its captures live in the allocations handed out. -/
theorem templateLoadDefault_sound {data : List UInt8} {retentionCapacity : UInt8} {fresh : ℕ}
    {t : LoadedTemplate} (h : templateLoadDefault data retentionCapacity fresh = .ok t) :
    t.Consistent retentionCapacity ∧
      ∀ c ∈ t.collection.captures, ∃ k < 80, c.storage = some (fresh + k) := by
  unfold templateLoadDefault at h
  by_cases hretention : retentionCapacity = 0
  · rw [if_pos hretention] at h
    cases h
  rw [if_neg hretention, bind_eq_ok] at h
  obtain ⟨⟨version, blocks⟩, -, h⟩ := h
  dsimp only at h
  split_ifs at h
  rw [loadTemplateBlocks, bind_eq_ok] at h
  obtain ⟨⟨metadata, count, l₁⟩, -, h⟩ := h
  rw [bind_eq_ok] at h
  obtain ⟨⟨loaded, l₂⟩, hloaded, h⟩ := h
  rw [bind_eq_ok] at h
  obtain ⟨⟨collection, l₃⟩, hcollection, h⟩ := h
  dsimp only at h
  split_ifs at h with hcount
  rw [bind_eq_ok] at h
  obtain ⟨graph, hgraph, h⟩ := h
  obtain rfl := Except.ok.inj h
  -- the graph block
  rw [loadGraphBlock, bind_eq_ok] at hloaded
  obtain ⟨l₄, -, hloaded⟩ := hloaded
  rw [bind_eq_ok] at hloaded
  obtain ⟨⟨loaded', pending⟩, hpayload, hloaded⟩ := hloaded
  dsimp only at hloaded
  split_ifs at hloaded with hused
  obtain ⟨rfl, -⟩ := Prod.mk.inj (Except.ok.inj hloaded)
  -- the age block
  rw [loadAgeBlock, bind_eq_ok] at hgraph
  obtain ⟨l₅, -, hgraph⟩ := hgraph
  split_ifs at hgraph
  obtain ⟨hfits, husedEq⟩ :=
    retainedGraphLoad_sound (withStatus_eq_ok hpayload) (withStatus_eq_ok hgraph)
  obtain ⟨-, hle, hcapacity, hall⟩ := collectionLoadDefault_sound hcollection
  push Not at hused hcount
  refine ⟨⟨hfits, hretention, fun c hc => (hall c hc).1, ?_, hle, hcapacity⟩,
    fun c hc => (hall c hc).2⟩
  rw [husedEq, hused.2, hcount]

/-! ### Allocations -/

/-- Where a capture is loaded to changes nothing but its allocation. -/
theorem captureLoadPayload_fresh {data : List UInt8} {flags : UInt16} {fresh : ℕ}
    {capture : LoadedCapture} (hflag : hasFlag flags 0x400 = true)
    (h : captureLoadPayload data flags fresh = .ok capture) (other : ℕ) :
    captureLoadPayload data flags other = .ok { capture with storage := some other } := by
  unfold captureLoadPayload at h ⊢
  by_cases hshort : data.length < 4
  · rw [if_pos hshort] at h
    cases h
  rw [if_neg hshort, bind_eq_ok] at h ⊢
  obtain ⟨count, hcount, h⟩ := h
  refine ⟨count, hcount, ?_⟩
  simp only [hflag, Bool.not_true, Bool.false_eq_true, if_false] at h ⊢
  split_ifs at h ⊢
  rw [bind_eq_ok] at h ⊢
  obtain ⟨sum, hsum, h⟩ := h
  refine ⟨sum, hsum, ?_⟩
  split_ifs at h ⊢
  rw [bind_eq_ok] at h ⊢
  obtain ⟨view, hview, h⟩ := h
  obtain rfl := Except.ok.inj h
  exact ⟨view, hview, rfl⟩

theorem loadCaptures_fresh {data : List UInt8} {fresh count i offset finish : ℕ}
    {captures : List LoadedCapture}
    (h : loadCaptures data fresh count i offset = .ok (captures, finish)) (other : ℕ) :
    ∃ moved, loadCaptures data other count i offset = .ok (moved, finish) ∧
      moved.map LoadedCapture.view = captures.map LoadedCapture.view := by
  induction count generalizing i offset captures finish with
  | zero =>
      obtain ⟨rfl, rfl⟩ := Prod.mk.inj (Except.ok.inj h)
      exact ⟨[], rfl, rfl⟩
  | succ count ih =>
      rw [loadCaptures, bind_eq_ok] at h
      obtain ⟨length, hlength, h⟩ := h
      rw [bind_eq_ok] at h
      obtain ⟨capture, hcapture, h⟩ := h
      rw [bind_eq_ok] at h
      obtain ⟨⟨rest, finish'⟩, hrest, h⟩ := h
      obtain ⟨rfl, rfl⟩ := Prod.mk.inj (Except.ok.inj h)
      obtain ⟨moved, hmoved, hviews⟩ := ih hrest
      refine ⟨{ capture with storage := some (other + i) } :: moved, ?_,
        congrArg (capture.view :: ·) hviews⟩
      rw [loadCaptures, hlength, ok_bind,
        captureLoadPayload_fresh hasFlag_default hcapture (other + i), ok_bind,
        hmoved, ok_bind]

theorem collectionLoadDefault_fresh {data : List UInt8} {fresh finish : ℕ}
    {collection : LoadedCollection}
    (h : collectionLoadDefault data fresh = .ok (collection, finish)) (other : ℕ) :
    ∃ moved, collectionLoadDefault data other = .ok (moved, finish) ∧
      moved.views = collection.views ∧ moved.capacity = collection.capacity := by
  rw [collectionLoadDefault, bind_eq_ok] at h
  obtain ⟨length, hlength, h⟩ := h
  by_cases hbad : length ≠ 24
  · rw [if_pos hbad] at h
    cases h
  rw [if_neg hbad, bind_eq_ok] at h
  obtain ⟨flags, hflags, h⟩ := h
  by_cases hbadFlags : flags.toNat ≠ 0x0ce1
  · rw [if_pos hbadFlags] at h
    cases h
  rw [if_neg hbadFlags, bind_eq_ok] at h
  obtain ⟨count, hcount, h⟩ := h
  rw [bind_eq_ok] at h
  obtain ⟨capacity, hcapacity, h⟩ := h
  by_cases hbadCount : count.toNat = 0 ∨ 80 < count.toNat ∨ capacity.toNat < count.toNat ∨
      65535 < capacity.toNat
  · rw [if_pos hbadCount] at h
    cases h
  rw [if_neg hbadCount, bind_eq_ok] at h
  obtain ⟨⟨captures, finish'⟩, hcaptures, h⟩ := h
  obtain ⟨rfl, rfl⟩ := Prod.mk.inj (Except.ok.inj h)
  obtain ⟨moved, hmoved, hviews⟩ := loadCaptures_fresh hcaptures other
  refine ⟨⟨moved, capacity.toNat⟩, ?_, hviews, rfl⟩
  rw [collectionLoadDefault, hlength, ok_bind, if_neg hbad, hflags, ok_bind, if_neg hbadFlags,
    hcount, ok_bind, hcapacity, ok_bind, if_neg hbadCount, hmoved, ok_bind]

/-- **Where a template is loaded to changes nothing but its allocations.** -/
theorem templateLoadDefault_fresh {data : List UInt8} {retentionCapacity : UInt8} {fresh : ℕ}
    {t : LoadedTemplate} (h : templateLoadDefault data retentionCapacity fresh = .ok t)
    (other : ℕ) :
    ∃ moved, templateLoadDefault data retentionCapacity other = .ok moved ∧
      moved.graph = t.graph ∧ moved.collection.views = t.collection.views ∧
        moved.collection.capacity = t.collection.capacity := by
  unfold templateLoadDefault at h ⊢
  by_cases hretention : retentionCapacity = 0
  · rw [if_pos hretention] at h
    cases h
  rw [if_neg hretention, bind_eq_ok] at h
  rw [if_neg hretention]
  obtain ⟨⟨version, blocks⟩, hvalidate, h⟩ := h
  rw [hvalidate, ok_bind]
  dsimp only at h ⊢
  split_ifs at h ⊢
  rw [loadTemplateBlocks, bind_eq_ok] at h
  obtain ⟨⟨metadata, count, l₁⟩, hmetadata, h⟩ := h
  rw [bind_eq_ok] at h
  obtain ⟨⟨loaded, l₂⟩, hloaded, h⟩ := h
  rw [bind_eq_ok] at h
  obtain ⟨⟨collection, l₃⟩, hcollection, h⟩ := h
  obtain ⟨moved, hmoved, hviews, hcapacity⟩ := collectionLoadDefault_fresh hcollection other
  have hlength : moved.captures.length = collection.captures.length := by
    have := congrArg List.length hviews
    rwa [LoadedCollection.views, LoadedCollection.views, List.length_map, List.length_map] at this
  dsimp only at h
  by_cases hcount : collection.captures.length ≠ count.toNat
  · rw [if_pos hcount] at h
    cases h
  rw [if_neg hcount, bind_eq_ok] at h
  obtain ⟨graph, hgraph, h⟩ := h
  obtain rfl := Except.ok.inj h
  refine ⟨⟨graph, moved, metadata⟩, ?_, rfl, hviews, hcapacity⟩
  rw [loadTemplateBlocks, hmetadata, ok_bind]
  dsimp only
  rw [hloaded, ok_bind]
  dsimp only
  rw [hmoved, ok_bind]
  dsimp only
  rw [hlength, if_neg hcount, hgraph, ok_bind]

end Fpc
