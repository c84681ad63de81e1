/-
**The template format is canonical.**

The loader does not store tags, lengths, checksums, the version or the number of pending records; it
compares them.  Going through it from the outside to the inside, every byte of what it accepts is
one of these or ends up in the loaded template.  So writing the template gives the bytes back.

Main results:

* `Fpc.checkedBlock_eq_ok` — a block that passes the check is the written one of its payload;
* `Fpc.captureLoadPayload_bytes`, `Fpc.retainedGraphLoadPayload_bytes`,
  `Fpc.collectionLoadDefault_bytes` — what the nested loaders accept;
* `Fpc.templateLoadDefault_bytes` — **what the loader accepts is the template it returns, written**;
* `Fpc.templateLoadDefault_canonical` — the writer reproduces what was loaded, and no two byte lists
  load as the same template.
-/

import FpcReader.Native.SerializeRoundTrip

set_option relaxedAutoImplicit false
set_option autoImplicit false

namespace Fpc

open Bytes Fallible

/-! ### Words -/

/-- Writing a word that was read gives its bytes back. -/
theorem storeLe32_le32 {p : List UInt8} (h : 4 ≤ p.length) :
    storeLe32 (le32 p).toNat = p.take 4 := by
  obtain ⟨a, b, c, d, rest, rfl⟩ : ∃ a b c d rest, p = a :: b :: c :: d :: rest := by
    match p, h with
    | a :: b :: c :: d :: rest, _ => exact ⟨a, b, c, d, rest, rfl⟩
  have hvalue : leValue [a, b, c, d] = (le32 (a :: b :: c :: d :: rest)).toNat := by
    rw [le32_toNat]
    simp only [leValue, List.getD_cons_zero, List.getD_cons_succ]
    ring
  rw [← hvalue]
  exact leBytes_leValue [a, b, c, d]

theorem storeLe16_le16 {p : List UInt8} (h : 2 ≤ p.length) : storeLe16 (le16 p) = p.take 2 := by
  obtain ⟨a, b, rest, rfl⟩ : ∃ a b rest, p = a :: b :: rest := by
    match p, h with
    | a :: b :: rest, _ => exact ⟨a, b, rest, rfl⟩
  have hvalue : leValue [a, b] = (le16 (a :: b :: rest)).toNat := by
    rw [le16_toNat]
    simp only [leValue, List.getD_cons_zero, List.getD_cons_succ]
    ring
  rw [storeLe16, ← hvalue]
  exact leBytes_leValue [a, b]

theorem loadLe32_eq_ok {data : List UInt8} {offset : ℕ} {w : BitVec 32}
    (h : loadLe32 data offset = .ok w) :
    offset + 4 ≤ data.length ∧ (data.drop offset).take 4 = storeLe32 w.toNat := by
  unfold loadLe32 at h
  split_ifs at h with hle
  obtain rfl := Except.ok.inj h
  refine ⟨hle, (storeLe32_le32 ?_).symm⟩
  rw [List.length_drop]
  omega

theorem loadLe16_eq_ok {data : List UInt8} {offset : ℕ} {w : UInt16}
    (h : loadLe16 data offset = .ok w) :
    offset + 2 ≤ data.length ∧ (data.drop offset).take 2 = storeLe16 w := by
  unfold loadLe16 at h
  split_ifs at h with hle
  obtain rfl := Except.ok.inj h
  refine ⟨hle, (storeLe16_le16 ?_).symm⟩
  rw [List.length_drop]
  omega

/-- Writing the words of some bytes gives the bytes back. -/
theorem storeWords16_loadWords16 {n : ℕ} {data : List UInt8} (h : data.length = 2 * n) :
    storeWords16 (loadWords16 n data) = data := by
  have hword : ∀ a ∈ leWords 2 n data, storeLe16 (UInt16.ofNat a) = leBytes 2 a := by
    intro a ha
    have hlt := mem_leWords_lt ha
    rw [storeLe16, UInt16.toNat_ofNat', Nat.mod_eq_of_lt (by omega)]
  have hflat : storeWords16 (loadWords16 n data) = (leWords 2 n data).flatMap (leBytes 2) := by
    rw [storeWords16, loadWords16, List.flatMap_map]
    exact List.flatMap_congr hword
  rw [hflat, flatMap_leWords h]

theorem storeWords32_loadWords32 {n : ℕ} {data : List UInt8} (h : data.length = 4 * n) :
    storeWords32 (loadWords32 n data) = data := by
  have hword : ∀ a ∈ leWords 4 n data, storeLe32 (UInt32.ofNat a).toNat = leBytes 4 a := by
    intro a ha
    have hlt := mem_leWords_lt ha
    rw [storeLe32, UInt32.toNat_ofNat', Nat.mod_eq_of_lt (by omega)]
  have hflat : storeWords32 (loadWords32 n data) = (leWords 4 n data).flatMap (leBytes 4) := by
    rw [storeWords32, loadWords32, List.flatMap_map]
    exact List.flatMap_congr hword
  rw [hflat, flatMap_leWords h]

/-- The words at the start of longer bytes. -/
theorem storeWords16_loadWords16_take {n : ℕ} {data : List UInt8} (h : 2 * n ≤ data.length) :
    storeWords16 (loadWords16 n data) = data.take (2 * n) := by
  have hlength : (data.take (2 * n)).length = 2 * n := List.length_take_of_le h
  have hsame : loadWords16 n data = loadWords16 n (data.take (2 * n)) := by
    conv_lhs => rw [← List.take_append_drop (2 * n) data]
    rw [loadWords16, loadWords16, leWords_append hlength]
  rw [hsame, storeWords16_loadWords16 hlength]

/-- Joining the levels that were split gives the words back. -/
theorem joinLevels_splitLevels (extra levels : ℕ) {words : List UInt16}
    (h : words.length = levels * (5 + extra)) :
    joinLevels extra levels (splitLevels extra levels words).1
      (splitLevels extra levels words).2 = words := by
  induction levels generalizing words with
  | zero =>
      rw [Nat.zero_mul, List.length_eq_zero_iff] at h
      rw [h]
      rfl
  | succ levels ih =>
      rw [Nat.succ_mul] at h
      have hrest : (words.drop (5 + extra)).length = levels * (5 + extra) := by
        rw [List.length_drop]
        omega
      have hfive : (words.take 5).length = 5 := List.length_take_of_le (by omega)
      have hextra : ((words.drop 5).take extra).length = extra :=
        List.length_take_of_le (by rw [List.length_drop]; omega)
      have hdrop : (words.drop 5).drop extra = words.drop (5 + extra) := List.drop_drop
      rw [splitLevels, joinLevels]
      dsimp only
      rw [List.take_left' hfive, List.drop_left' hfive, List.take_left' hextra,
        List.drop_left' hextra, ih hrest, ← hdrop, List.take_append_drop, List.take_append_drop]

/-! ### Blocks -/

/-- A block with a good checksum ends in the checksum of what is before it. -/
theorem crcMatches_eq_ok {data : List UInt8} {length : ℕ} (hlength : 4 ≤ length)
    (h : crcMatches data length = .ok true) :
    length ≤ data.length ∧
      (data.drop (length - 4)).take 4 = storeLe32 (crc32 (data.take (length - 4))).toNat := by
  rw [crcMatches, bind_eq_ok] at h
  obtain ⟨crc, hcrc, h⟩ := h
  rw [bind_eq_ok] at h
  obtain ⟨stored, hstored, h⟩ := h
  obtain ⟨hle, htake⟩ := loadLe32_eq_ok hstored
  unfold crcPrefix at hcrc
  split_ifs at hcrc
  obtain rfl := Except.ok.inj hcrc
  refine ⟨by omega, ?_⟩
  rw [beq_iff_eq.1 (Except.ok.inj h), htake]

/-- A list cut at four places. -/
theorem cut_block {data : List UInt8} {length : ℕ} (hlength : 12 ≤ length) :
    data.take (length - 4) =
      data.take 4 ++ ((data.drop 4).take 4 ++ (data.drop 8).take (length - 12)) := by
  have houter : data.take (length - 4) = data.take 4 ++ (data.drop 4).take (length - 8) := by
    rw [← List.take_add]
    congr 1
    omega
  have hinner : (data.drop 4).take (length - 8) =
      (data.drop 4).take 4 ++ ((data.drop 4).drop 4).take (length - 12) := by
    rw [← List.take_add]
    congr 1
    omega
  rw [houter, hinner, List.drop_drop]

/-- **A block that passes the check is the written block of its payload.** -/
theorem checkedBlock_eq_ok {data : List UInt8} {tag length : ℕ}
    (h : checkedBlock data tag = .ok length) :
    12 ≤ length ∧ length ≤ data.length ∧ (blockPayload data length).length + 12 = length ∧
      data = frameBlock tag (blockPayload data length) ++ data.drop length := by
  unfold checkedBlock at h
  split_ifs at h with hshort
  rw [bind_eq_ok] at h
  obtain ⟨found, hfound, h⟩ := h
  split_ifs at h with htag
  rw [bind_eq_ok] at h
  obtain ⟨bytes, hbytes, h⟩ := h
  split_ifs at h with hbad
  rw [bind_eq_ok] at h
  obtain ⟨good, hgood, h⟩ := h
  split_ifs at h with hcrc
  obtain rfl := Except.ok.inj h
  rw [hcrc] at hgood
  obtain ⟨-, htagBytes⟩ := loadLe32_eq_ok hfound
  obtain ⟨-, hlengthBytes⟩ := loadLe32_eq_ok hbytes
  obtain ⟨hle, hcrcBytes⟩ := crcMatches_eq_ok (by omega) hgood
  have hpayload : (blockPayload data bytes.toNat).length + 12 = bytes.toNat := by
    rw [blockPayload, List.length_take_of_le (by rw [List.length_drop]; omega)]
    omega
  have hbody : data.take (bytes.toNat - 4) = storeLe32 tag ++
      (storeLe32 ((blockPayload data bytes.toNat).length + 12) ++
        blockPayload data bytes.toNat) := by
    rw [hpayload, cut_block (by omega), blockPayload, hlengthBytes]
    rw [List.drop_zero, not_not.1 htag] at htagBytes
    rw [htagBytes]
  refine ⟨by omega, hle, hpayload, ?_⟩
  calc data
      = data.take bytes.toNat ++ data.drop bytes.toNat := (List.take_append_drop _ _).symm
    _ = data.take (bytes.toNat - 4) ++ (data.drop (bytes.toNat - 4)).take 4 ++
          data.drop bytes.toNat := by
        rw [← List.take_add]
        congr 2
        omega
    _ = frameBlock tag (blockPayload data bytes.toNat) ++ data.drop bytes.toNat := by
        rw [hcrcBytes, hbody]
        rfl

/-! ### Captures -/

/-- What is read back out of a section that was loaded. -/
theorem loadedArray_getD {α : Type} {size : ℕ} {array : List α} (h : size = 0 → array = []) :
    (loadedArray size array).getD [] = array := by
  unfold loadedArray
  split_ifs with hsize
  · exact (h hsize).symm
  · rfl

/-- A section of bytes that was loaded is the one that is selected for writing. -/
theorem part_loadedArray {needed : Bool} {k : ℕ} {bytes : List UInt8}
    (h : bytes.length = if needed then k else 0) :
    part needed (loadedArray (if needed then k else 0) bytes) = bytes := by
  cases needed with
  | false => exact (List.length_eq_zero_iff.1 h).symm
  | true => exact loadedArray_getD fun hzero => List.length_eq_zero_iff.1 (h.trans hzero)

/-- The same for a section of words. -/
theorem storeWords32_part_loadedArray {needed : Bool} {k : ℕ} {bytes : List UInt8}
    (h : bytes.length = if needed then 4 * k else 0) :
    storeWords32 (part needed (loadedArray (if needed then 4 * k else 0)
      (loadWords32 ((if needed then 4 * k else 0) / 4) bytes))) = bytes := by
  cases needed with
  | false => exact (List.length_eq_zero_iff.1 h).symm
  | true =>
      simp only [if_true] at h ⊢
      have hquarter : 4 * k / 4 = k := by omega
      have hempty : 4 * k = 0 → loadWords32 (4 * k / 4) bytes = [] := by
        intro hzero
        rw [hzero]
        rfl
      rw [part, if_pos rfl, loadedArray_getD hempty, hquarter]
      exact storeWords32_loadWords32 h

/-- **What the loader of a capture accepts is the capture it returns, written.** -/
theorem captureLoadPayload_bytes {data : List UInt8} {flags : UInt16} {fresh : ℕ}
    {capture : LoadedCapture} (hflag : hasFlag flags 0x400 = true)
    (h : captureLoadPayload data flags fresh = .ok capture) :
    payloadBytes capture.view flags = data := by
  obtain ⟨count, sum, view, hcount, -, hsize, -, -, hview, rfl⟩ := captureLoadPayload_ok hflag h
  obtain ⟨-, hcountBytes⟩ := loadLe32_eq_ok hcount
  rw [List.drop_zero] at hcountBytes
  -- the header
  obtain ⟨mode, bytes, levels, width, hfour⟩ :
      ∃ mode bytes levels width, (data.drop 4).take 4 = [mode, bytes, levels, width] := by
    have hlength : ((data.drop 4).take 4).length = 4 :=
      List.length_take_of_le (by rw [List.length_drop]; omega)
    match (data.drop 4).take 4, hlength with
    | [mode, bytes, levels, width], _ => exact ⟨mode, bytes, levels, width, rfl⟩
  rw [hfour] at hview hsize
  simp only [List.getD_cons_zero, List.getD_cons_succ] at hview hsize
  -- the sections; nothing is behind the last one
  obtain ⟨words, compact, coordinates, scores, angles, descriptors, membership, rest, hread, rfl⟩ :=
    loadSections_ok hview
  have hwide := coordinates_size { CapturePayloadView.bare count.toNat with
    descriptorBytes := bytes, levels := levels, tableWidth := width } flags
  have hend : rest = [] := by
    have hlengths := congrArg List.length hread.bytes
    simp only [List.length_drop, List.length_append, hread.words, hread.compact,
      hread.coordinates, hread.scores, hread.angles, hread.descriptors,
      hread.membership] at hlengths
    rw [SectionSizes.total] at hsize
    exact List.length_eq_zero_iff.1 (by omega)
  have hlevelBytes : storeWords16 (loadWords16 (levels.toNat * (5 + extraWords width)) words) =
      words := storeWords16_loadWords16 (by rw [hread.words]; simp only [sectionSizes]; ring)
  have hjoined := joinLevels_splitLevels (extraWords width) levels.toNat
    (loadWords16_length (levels.toNat * (5 + extraWords width)) words)
  have hcoordinates : storeWords32 (part (!hasFlag flags 0x20) (loadedArray
      (sectionSizes count.toNat bytes levels width flags).coordinates
      (loadWords32 ((sectionSizes count.toNat bytes levels width flags).coordinates / 4)
        coordinates))) = coordinates := by
    have hlength := hread.coordinates
    simp only [CapturePayloadView.sizes, CapturePayloadView.bare] at hwide
    rw [hwide] at hlength ⊢
    exact storeWords32_part_loadedArray hlength
  have hcompact : part (hasFlag flags 0x20) (loadedArray
      (sectionSizes count.toNat bytes levels width flags).compact compact) = compact :=
    part_loadedArray hread.compact
  have hscores : storeWords32 (part (hasFlag flags 4) (loadedArray
      (sectionSizes count.toNat bytes levels width flags).scores
      (loadWords32 ((sectionSizes count.toNat bytes levels width flags).scores / 4) scores))) =
      scores := storeWords32_part_loadedArray hread.scores
  have hangles : storeWords32 (part (hasFlag flags 2) (loadedArray
      (sectionSizes count.toNat bytes levels width flags).angles
      (loadWords32 ((sectionSizes count.toNat bytes levels width flags).angles / 4) angles))) =
      angles := storeWords32_part_loadedArray hread.angles
  have hdescriptors : part (hasFlag flags 0x800) (loadedArray
      (sectionSizes count.toNat bytes levels width flags).descriptors descriptors) = descriptors :=
    part_loadedArray hread.descriptors
  have hmembership : part (hasFlag flags 0x80) (loadedArray
      (sectionSizes count.toNat bytes levels width flags).membership membership) = membership :=
    part_loadedArray hread.membership
  simp only [List.getD_cons_zero, List.getD_cons_succ, payloadBytes, levelBytes,
    Option.getD_some, selectedBytes, hjoined, hlevelBytes, hcompact, hcoordinates, hscores,
    hangles, hdescriptors, hmembership]
  calc storeLe32 count.toNat ++ ([mode, bytes, levels, width] ++ (words ++ (compact ++
        (coordinates ++ (scores ++ (angles ++ (descriptors ++ membership)))))))
      = data.take 4 ++ ((data.drop 4).take 4 ++ data.drop 8) := by
        rw [hcountBytes, hfour, hread.bytes, hend, List.append_nil]
    _ = data := by
        rw [show data.drop 8 = (data.drop 4).drop 4 by rw [List.drop_drop],
          List.take_append_drop, List.take_append_drop]

/-- What the loop over the captures accepts. -/
theorem loadCaptures_bytes {data : List UInt8} {fresh count i offset finish : ℕ}
    {captures : List LoadedCapture}
    (h : loadCaptures data fresh count i offset = .ok (captures, finish)) :
    data.drop offset =
      frameBlocks (captureBlocks (captures.map LoadedCapture.view) i) ++ data.drop finish := by
  induction count generalizing i offset captures finish with
  | zero =>
      obtain ⟨rfl, rfl⟩ := Prod.mk.inj (Except.ok.inj h)
      rfl
  | succ count ih =>
      rw [loadCaptures, bind_eq_ok] at h
      obtain ⟨length, hlength, h⟩ := h
      rw [bind_eq_ok] at h
      obtain ⟨capture, hcapture, h⟩ := h
      rw [bind_eq_ok] at h
      obtain ⟨⟨rest, finish'⟩, hrest, h⟩ := h
      obtain ⟨rfl, rfl⟩ := Prod.mk.inj (Except.ok.inj h)
      obtain ⟨-, -, -, hblock⟩ := checkedBlock_eq_ok hlength
      rw [List.drop_drop, ih hrest, ← captureLoadPayload_bytes hasFlag_default hcapture,
        ← List.append_assoc]
        at hblock
      exact hblock

/-- **What the loader of a collection accepts is the collection it returns, written.** -/
theorem collectionLoadDefault_bytes {data : List UInt8} {fresh : ℕ}
    {collection : LoadedCollection} {finish : ℕ}
    (h : collectionLoadDefault data fresh = .ok (collection, finish)) :
    data = collectionBytes collection.views collection.capacity ++ data.drop finish := by
  rw [collectionLoadDefault, bind_eq_ok] at h
  obtain ⟨length, hlength, h⟩ := h
  split_ifs at h with h24
  rw [bind_eq_ok] at h
  obtain ⟨flags, hflags, h⟩ := h
  split_ifs at h with hflag
  rw [bind_eq_ok] at h
  obtain ⟨count, hcount, h⟩ := h
  rw [bind_eq_ok] at h
  obtain ⟨capacity, hcapacity, h⟩ := h
  split_ifs at h with hbad
  rw [bind_eq_ok] at h
  obtain ⟨⟨captures, finish'⟩, hcaptures, h⟩ := h
  obtain ⟨rfl, rfl⟩ := Prod.mk.inj (Except.ok.inj h)
  obtain rfl := not_not.1 h24
  obtain ⟨-, -, -, hblock⟩ := checkedBlock_eq_ok hlength
  obtain ⟨-, hflagBytes⟩ := loadLe32_eq_ok hflags
  obtain ⟨-, hcountBytes⟩ := loadLe32_eq_ok hcount
  obtain ⟨-, hcapacityBytes⟩ := loadLe32_eq_ok hcapacity
  have hheader : blockPayload data 24 = collectionHeader captures.length capacity.toNat := by
    have hcut : (data.drop 8).take 12 = (data.drop 8).take 4 ++
        ((data.drop 12).take 4 ++ (data.drop 16).take 4) := by
      rw [show data.drop 16 = (data.drop 12).drop 4 by rw [List.drop_drop], ← List.take_add,
        show data.drop 12 = (data.drop 8).drop 4 by rw [List.drop_drop], ← List.take_add]
    rw [blockPayload, hcut, hflagBytes, hcountBytes, hcapacityBytes, not_not.1 hflag,
      (loadCaptures_sound hcaptures).1]
    rfl
  rw [hheader, loadCaptures_bytes hcaptures, ← List.append_assoc] at hblock
  rw [collectionBytes, LoadedCollection.views, List.length_map]
  exact hblock

/-! ### Graphs -/

/-- **What the loader of a graph accepts is the graph it returns, written**, when no records are
pending. -/
theorem retainedGraphLoadPayload_bytes {data : List UInt8} {graph : RetainedGraph}
    (h : retainedGraphLoadPayload data = .ok (graph, 0)) : graphBytes graph = data := by
  unfold retainedGraphLoadPayload at h
  dsimp only at h
  split_ifs at h with hshort hzero hbad hsize
  obtain ⟨rfl, hpending⟩ := Prod.mk.inj (Except.ok.inj h)
  have hheader : storeWords16 (loadWords16 6 data) = data.take 12 :=
    storeWords16_loadWords16_take (by omega)
  set words := loadWords16 6 data with hwords
  have hlength : words.length = 6 := loadWords16_length 6 data
  have hsix : words = [words.getD 0 0, words.getD 1 0, words.getD 2 0, words.getD 3 0,
      words.getD 4 0, words.getD 5 0] := by
    match words, hlength with
    | [a, b, c, d, e, f], _ => rfl
  set count := (words.getD 1 0).toNat + edgeCount (words.getD 1 0).toNat with hcount
  have hbody : storeWords16 (loadWords16 count (data.drop 12)) = data.drop 12 :=
    storeWords16_loadWords16 (by rw [List.length_drop]; omega)
  have hwritten : storeWords16 [words.getD 0 0, words.getD 1 0, words.getD 2 0, words.getD 3 0,
      words.getD 4 0, 0] = data.take 12 := by
    rw [← hheader]
    conv_rhs => rw [hsix, hpending]
  rw [graphBytes, storeWords16_append, graphHeader]
  dsimp only
  rw [Option.getD_some, Option.getD_some, List.take_append_drop, hbody, hwritten,
    List.take_append_drop]

/-! ### Templates -/

theorem loadMetadata_bytes {data : List UInt8} {metadata count : UInt16} {length : ℕ}
    (h : loadMetadata data = .ok (metadata, count, length)) :
    data = frameBlock 305398016 (storeLe16 metadata ++ storeLe16 count) ++ data.drop length := by
  rw [loadMetadata, bind_eq_ok] at h
  obtain ⟨found, hfound, h⟩ := h
  split_ifs at h with h16
  rw [bind_eq_ok] at h
  obtain ⟨metadata', hmetadata, h⟩ := h
  rw [bind_eq_ok] at h
  obtain ⟨count', hcount, h⟩ := h
  split_ifs at h
  simp only [Except.ok.injEq, Prod.mk.injEq] at h
  obtain ⟨rfl, rfl, rfl⟩ := h
  obtain rfl := not_not.1 h16
  obtain ⟨-, -, -, hblock⟩ := checkedBlock_eq_ok hfound
  obtain ⟨-, hmetadataBytes⟩ := loadLe16_eq_ok hmetadata
  obtain ⟨-, hcountBytes⟩ := loadLe16_eq_ok hcount
  have hcut : blockPayload data 16 = (data.drop 8).take 2 ++ (data.drop 10).take 2 := by
    rw [show data.drop 10 = (data.drop 8).drop 2 by rw [List.drop_drop], ← List.take_add]
    rfl
  rw [hcut, hmetadataBytes, hcountBytes] at hblock
  exact hblock

theorem loadGraphBlock_bytes {data : List UInt8} {count : UInt16} {graph : RetainedGraph}
    {length : ℕ} (h : loadGraphBlock data count = .ok (graph, length)) :
    graph.used = count ∧ data = frameBlock 305398528 (graphBytes graph) ++ data.drop length := by
  rw [loadGraphBlock, bind_eq_ok] at h
  obtain ⟨found, hfound, h⟩ := h
  rw [bind_eq_ok] at h
  obtain ⟨⟨graph', pending⟩, hgraph, h⟩ := h
  dsimp only at h
  split_ifs at h with hbad
  obtain ⟨rfl, rfl⟩ := Prod.mk.inj (Except.ok.inj h)
  push Not at hbad
  obtain ⟨rfl, hused⟩ := hbad
  obtain ⟨-, -, -, hblock⟩ := checkedBlock_eq_ok hfound
  rw [← retainedGraphLoadPayload_bytes (withStatus_eq_ok hgraph)] at hblock
  exact ⟨hused, hblock⟩

theorem loadAgeBlock_bytes {data : List UInt8} {graph loaded : RetainedGraph}
    {retentionCapacity : UInt8} (h : loadAgeBlock data graph retentionCapacity = .ok loaded) :
    graphBytes loaded = graphBytes graph ∧ loaded.used = graph.used ∧
      data = frameBlock 305398784 (storeWords16 (loaded.ages.getD [])) := by
  rw [loadAgeBlock, bind_eq_ok] at h
  obtain ⟨found, hfound, h⟩ := h
  split_ifs at h with hend
  have hages := withStatus_eq_ok h
  unfold retainedGraphLoadAges at hages
  split_ifs at hages with hbad
  obtain rfl := Except.ok.inj hages
  push Not at hbad
  obtain ⟨-, -, -, hblock⟩ := checkedBlock_eq_ok hfound
  rw [not_not.1 hend, List.drop_length, List.append_nil, ← not_not.1 hend] at hblock
  refine ⟨rfl, rfl, ?_⟩
  rw [Option.getD_some, storeWords16_loadWords16 hbad.2]
  exact hblock

/-- The header of a template of the right version. -/
theorem templateValidate_bytes {data : List UInt8} {blocks : ℕ}
    (h : templateValidate data = .ok (0x001a0000#32, blocks)) :
    8 ≤ data.length ∧ data.length < 2 ^ 31 ∧
      data.take 8 = [26, 0, 0, 0] ++ storeLe32 data.length := by
  unfold templateValidate at h
  split_ifs at h with hlength
  rw [bind_eq_ok] at h
  obtain ⟨size, hsize, h⟩ := h
  split_ifs at h with hexact
  rw [bind_eq_ok] at h
  obtain ⟨found, -, h⟩ := h
  rw [bind_eq_ok] at h
  obtain ⟨major, hmajor, h⟩ := h
  rw [bind_eq_ok] at h
  obtain ⟨minor, hminor, h⟩ := h
  obtain ⟨hversion, -⟩ := Prod.mk.inj (Except.ok.inj h)
  obtain ⟨-, hmajorBytes⟩ := loadLe16_eq_ok hmajor
  obtain ⟨-, hminorBytes⟩ := loadLe16_eq_ok hminor
  obtain ⟨-, hsizeBytes⟩ := loadLe32_eq_ok hsize
  -- the version is made of both words
  have hwords : major = 26 ∧ minor = 0 := by
    have hlt := major.toNat_lt
    have hlt' := minor.toNat_lt
    have hvalue := congrArg BitVec.toNat hversion
    rw [BitVec.toNat_or, BitVec.toNat_shiftLeft, BitVec.toNat_setWidth, BitVec.toNat_setWidth,
      UInt16.toNat_toBitVec, UInt16.toNat_toBitVec, Nat.mod_eq_of_lt (by omega),
      Nat.mod_eq_of_lt (by omega), Nat.shiftLeft_eq, Nat.mod_eq_of_lt (by omega), Nat.or_comm,
      ← Nat.shiftLeft_eq, or_shift_eq (by omega)] at hvalue
    have hnumber : minor.toNat + 2 ^ 16 * major.toNat = 1703936 := hvalue
    constructor
    · apply UInt16.toNat_inj.1
      show major.toNat = 26
      omega
    · apply UInt16.toNat_inj.1
      show minor.toNat = 0
      omega
  obtain ⟨rfl, rfl⟩ := hwords
  have hcut : data.take 8 =
      (data.drop 0).take 2 ++ ((data.drop 2).take 2 ++ (data.drop 4).take 4) := by
    rw [List.drop_zero, show data.drop 4 = (data.drop 2).drop 2 by rw [List.drop_drop],
      ← List.take_add, ← List.take_add]
  refine ⟨by omega, by omega, ?_⟩
  rw [hcut, hmajorBytes, hminorBytes, hsizeBytes, not_not.1 hexact]
  rfl

/-- **What the loader accepts is the template it returns, written.** -/
theorem templateLoadDefault_bytes {data : List UInt8} {retentionCapacity : UInt8} {fresh : ℕ}
    {t : LoadedTemplate} (h : templateLoadDefault data retentionCapacity fresh = .ok t) :
    TemplateFits t.graph t.collection.views t.collection.capacity retentionCapacity ∧
      templateBytes t.graph t.collection.views t.collection.capacity t.metadata
        retentionCapacity = data := by
  have hconsistent := (templateLoadDefault_sound h).1
  unfold templateLoadDefault at h
  split_ifs at h
  rw [bind_eq_ok] at h
  obtain ⟨⟨version, blocks⟩, hvalid, h⟩ := h
  dsimp only at h
  split_ifs at h with hversion
  obtain rfl := not_not.1 hversion
  obtain ⟨-, hsmall, hheader⟩ := templateValidate_bytes (withStatus_eq_ok hvalid)
  rw [loadTemplateBlocks, bind_eq_ok] at h
  obtain ⟨⟨metadata, count, l₁⟩, hmetadata, h⟩ := h
  rw [bind_eq_ok] at h
  obtain ⟨⟨loaded, l₂⟩, hloaded, h⟩ := h
  rw [bind_eq_ok] at h
  obtain ⟨⟨collection, l₃⟩, hcollection, h⟩ := h
  dsimp only at h
  split_ifs at h with hcount
  rw [bind_eq_ok] at h
  obtain ⟨graph, hgraph, h⟩ := h
  obtain rfl := Except.ok.inj h
  obtain ⟨hused, hgraphBytes⟩ := loadGraphBlock_bytes hloaded
  obtain ⟨hsame, husedSame, hageBytes⟩ := loadAgeBlock_bytes hgraph
  have hmetadataBytes := loadMetadata_bytes hmetadata
  have hcollectionBytes := collectionLoadDefault_bytes hcollection
  dsimp only at hconsistent ⊢
  have hlength : UInt16.ofNat collection.views.length = count := by
    rw [LoadedCollection.views, List.length_map, not_not.1 hcount, UInt16.ofNat_toNat]
  have hblocks : data.drop 8 =
      templateBlocks graph collection.views collection.capacity metadata := by
    rw [templateBlocks, hlength, hsame, ← hageBytes, ← hcollectionBytes, ← hgraphBytes,
      ← hmetadataBytes]
  -- the sizes add up to the length of the data
  have htotal : templateTotal graph collection.views retentionCapacity = data.length := by
    have hviews : ∀ view ∈ collection.views, view.Fits defaultFlags := by
      intro view hview
      obtain ⟨c, hc, rfl⟩ := List.mem_map.1 hview
      exact hconsistent.captures c hc
    have hsizes : (templateBlocks graph collection.views collection.capacity metadata).length + 8 =
        templateTotal graph collection.views retentionCapacity := by
      simp only [templateBlocks, List.length_append, frameBlock_length, storeLe16_length,
        graphBytes_length hconsistent.graph, collectionBytes_length hviews, storeWords16_length,
        hconsistent.graph.ages_length, templateTotal]
      omega
    have hdrop := congrArg List.length hblocks
    rw [List.length_drop] at hdrop
    have hlong := congrArg List.length hheader
    simp only [List.length_take, List.length_append, storeLe32_length, List.length_cons,
      List.length_nil] at hlong
    omega
  refine ⟨hconsistent.fits (htotal ▸ hsmall), ?_⟩
  rw [templateBytes, htotal, ← hblocks, ← List.append_assoc, ← hheader, List.take_append_drop]

/-- **The format is canonical.**  Writing what was loaded, with the views, the capacity and the
metadata that were loaded, gives the bytes back; and bytes that load as the same template are the
same bytes. -/
theorem templateLoadDefault_canonical {data : List UInt8} {retentionCapacity : UInt8} {fresh : ℕ}
    {t : LoadedTemplate} (h : templateLoadDefault data retentionCapacity fresh = .ok t) :
    (templateSize t.graph t.collection.views t.collection.capacity retentionCapacity =
        .ok data.length ∧
      ∀ capacity, data.length ≤ capacity →
        templateSerializeDefault t.graph t.collection.views t.collection.capacity t.metadata
          retentionCapacity capacity = .ok data) ∧
      ∀ (other : List UInt8) (fresh' : ℕ) (t' : LoadedTemplate),
        templateLoadDefault other retentionCapacity fresh' = .ok t' →
          t'.graph = t.graph → t'.collection.views = t.collection.views →
            t'.collection.capacity = t.collection.capacity → t'.metadata = t.metadata →
              other = data := by
  obtain ⟨hfits, rfl⟩ := templateLoadDefault_bytes h
  have hlength : (templateBytes t.graph t.collection.views t.collection.capacity t.metadata
      retentionCapacity).length = _ := templateBytes_length hfits
  refine ⟨⟨?_, fun capacity hcapacity => ?_⟩, ?_⟩
  · rw [templateSize_eq hfits, hlength]
  · exact templateSerializeDefault_eq t.metadata hfits (hlength ▸ hcapacity)
  · intro other fresh' t' h' hgraph hviews hcapacity hmetadata
    obtain ⟨-, rfl⟩ := templateLoadDefault_bytes h'
    rw [hgraph, hviews, hcapacity, hmetadata]

/-- The small template, loaded and written again. -/
theorem templateLoadDefault_canonical_small :
    ∃ data t, templateLoadDefault data 2 0 = .ok t ∧ t.graph = smallGraph ∧ t.metadata = 5 ∧
      templateSerializeDefault t.graph t.collection.views t.collection.capacity t.metadata 2
        data.length = .ok data := by
  have hload : templateLoadDefault (templateBytes (smallGraph.trimmed 2)
      (trimmedViews [smallView]) 2 5 2) 2 0 = _ :=
    templateLoadDefault_templateBytes smallTemplate_fits 0
  exact ⟨_, _, hload, rfl, rfl, (templateLoadDefault_canonical hload).1.2 _ le_rfl⟩

end Fpc
