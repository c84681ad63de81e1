/-
**The capture payload.**

A capture is stored as its count, and, when the flags say so, a header of four bytes, the level
words and the arrays the flags select, one after the other without padding.  The loader checks the
size against the counts before it copies anything, and demands that the level counts add up.

Main definitions:

* `Fpc.capturePayloadSize`, `Fpc.capturePayload` — the size query and the writer;
* `Fpc.captureLoadPayload` — the loader, which owns what it returns;
* `Fpc.CapturePayloadView.Fits` — the views whose arrays have the length their counts announce.

Main results:

* `Fpc.capturePayload_eq`, `Fpc.payloadBytes_length` — the writer fills what the size query
  announces;
* `Fpc.captureLoadPayload_payloadBytes` — **a written payload loads back**, with the arrays the
  flags select.
-/

import FpcReader.Native.Blocks

set_option relaxedAutoImplicit false
set_option autoImplicit false

namespace Fpc

open Bytes Fallible

/-! ### Flags and arrays -/

/-- The bits of `mask` that are set in the flags are not all clear. -/
def hasFlag (flags mask : UInt16) : Bool := flags &&& mask != 0

/-- The first `n` elements of an array that is read without a check. -/
def readArray {α : Type} (array : Option (List α)) (n : ℕ) : Except Fault (List α) :=
  if n ≤ (array.getD []).length then .ok ((array.getD []).take n) else .error .outOfBounds

/-- The first `n` bytes and the rest. -/
def readBytes (n : ℕ) (data : List UInt8) : Except Fault (List UInt8 × List UInt8) :=
  match cut n data with
  | none => .error .outOfBounds
  | some parts => .ok parts

/-- The words each level has beyond its first five. -/
def extraWords (tableWidth : UInt8) : ℕ := if tableWidth = 0 then 0 else tableWidth.toNat - 1

/-- The words of the levels in serialized order: five fields, then the extra words, level by
level. -/
def joinLevels (extra : ℕ) : ℕ → List UInt16 → List UInt16 → List UInt16
  | 0, _, _ => []
  | levels + 1, fields, extras =>
      fields.take 5 ++ (extras.take extra ++
        joinLevels extra levels (fields.drop 5) (extras.drop extra))

/-- The fields and the extra words of the levels, from serialized order. -/
def splitLevels (extra : ℕ) : ℕ → List UInt16 → List UInt16 × List UInt16
  | 0, _ => ([], [])
  | levels + 1, words =>
      let rest := splitLevels extra levels (words.drop (5 + extra))
      (words.take 5 ++ rest.1, (words.drop 5).take extra ++ rest.2)

/-- The bytes of 16-bit words, and the words of bytes. -/
def storeWords16 (words : List UInt16) : List UInt8 := words.flatMap storeLe16

def loadWords16 (n : ℕ) (data : List UInt8) : List UInt16 := (leWords 2 n data).map UInt16.ofNat

/-- The bytes of 32-bit words, and the words of bytes. -/
def storeWords32 (words : List UInt32) : List UInt8 := words.flatMap fun w => storeLe32 w.toNat

def loadWords32 (n : ℕ) (data : List UInt8) : List UInt32 := (leWords 4 n data).map UInt32.ofNat

/-! ### Writing -/

/-- An array is there unless nothing is read from it. -/
def arrayPresent {α : Type} (needed : Bool) (array : Option (List α)) : Bool :=
  !needed || array.isSome

/-- The arrays the flags select are there. -/
def capturePayloadPresent (view : CapturePayloadView) (flags : UInt16) : Bool :=
  let some? := view.count != 0
  let extra := extraWords view.tableWidth
  arrayPresent (view.levels != 0) view.levelFields &&
    arrayPresent (view.levels != 0 && extra != 0) view.levelExtra &&
    arrayPresent (some? && hasFlag flags 0x20) view.compactCoordinates &&
    arrayPresent (some? && !hasFlag flags 0x20) view.coordinates &&
    arrayPresent (some? && hasFlag flags 4) view.scores &&
    arrayPresent (some? && hasFlag flags 2) view.angles &&
    arrayPresent (some? && view.descriptorBytes != 0 && hasFlag flags 0x800) view.descriptors &&
    arrayPresent (some? && hasFlag flags 0x80) view.membership

/-- The sizes of the sections behind the eight-byte header: level words, packed coordinates, wide
coordinates, scores, angles, descriptors and membership bits. -/
structure SectionSizes where
  levels : ℕ
  compact : ℕ
  coordinates : ℕ
  scores : ℕ
  angles : ℕ
  descriptors : ℕ
  membership : ℕ

def SectionSizes.total (s : SectionSizes) : ℕ :=
  s.levels + s.compact + s.coordinates + s.scores + s.angles + s.descriptors + s.membership

/-- The section sizes for the given counts. -/
def sectionSizes (n : ℕ) (descriptorBytes levels tableWidth : UInt8) (flags : UInt16) :
    SectionSizes where
  levels := levels.toNat * (10 + 2 * extraWords tableWidth)
  compact := if hasFlag flags 0x20 then 2 * n else 0
  coordinates := if hasFlag flags 0x20 then 0 else 8 * n
  scores := if hasFlag flags 4 then 4 * n else 0
  angles := if hasFlag flags 2 then 4 * n else 0
  descriptors := if hasFlag flags 0x800 then n * descriptorBytes.toNat else 0
  membership := if hasFlag flags 0x80 then (n + 7) / 8 else 0

/-- The section sizes of a view. -/
def CapturePayloadView.sizes (view : CapturePayloadView) (flags : UInt16) : SectionSizes :=
  sectionSizes view.count view.descriptorBytes view.levels view.tableWidth flags

/-- The size query. -/
def capturePayloadSize (view : CapturePayloadView) (flags : UInt16) : Except Fault ℕ :=
  if 32767 < view.count then .error (.status (-1))
  else if !hasFlag flags 0x400 then .ok 4
  else if !capturePayloadPresent view flags then .error (.status (-1))
  else .ok (8 + (view.sizes flags).total)

/-- The level words of a view. -/
def levelWords (view : CapturePayloadView) : Except Fault (List UInt8) :=
  let levels := view.levels.toNat
  let extra := extraWords view.tableWidth
  readArray view.levelFields (5 * levels) >>= fun fields =>
    readArray view.levelExtra (extra * levels) >>= fun extras =>
      .ok (storeWords16 (joinLevels extra levels fields extras))

/-- The arrays the flags select. -/
def arrayBytes (view : CapturePayloadView) (flags : UInt16) : Except Fault (List UInt8) :=
  let sizes := view.sizes flags
  readArray view.compactCoordinates sizes.compact >>= fun compact =>
    readArray view.coordinates (sizes.coordinates / 4) >>= fun coordinates =>
      readArray view.scores (sizes.scores / 4) >>= fun scores =>
        readArray view.angles (sizes.angles / 4) >>= fun angles =>
          readArray view.descriptors sizes.descriptors >>= fun descriptors =>
            readArray view.membership sizes.membership >>= fun membership =>
              .ok (compact ++ (storeWords32 coordinates ++ (storeWords32 scores ++
                (storeWords32 angles ++ (descriptors ++ membership)))))

/-- The writer, into a buffer of `capacity` bytes. -/
def capturePayload (view : CapturePayloadView) (flags : UInt16) (capacity : ℕ) :
    Except Fault (List UInt8) :=
  capturePayloadSize view flags >>= fun size =>
    if capacity < size then .error (.status (-1))
    else if !hasFlag flags 0x400 then .ok (storeLe32 view.count)
    else
      levelWords view >>= fun levels =>
        arrayBytes view flags >>= fun arrays =>
          .ok (storeLe32 view.count ++
            ([view.mode, view.descriptorBytes, view.levels, view.tableWidth] ++
              (levels ++ arrays)))

/-! ### Loading -/

/-- An array of the loaded view, absent when it has no bytes. -/
def loadedArray {α : Type} (size : ℕ) (array : List α) : Option (List α) :=
  if size = 0 then none else some array

/-- Copy the sections out of the payload; the sizes have been checked. -/
def loadSections (n : ℕ) (header : List UInt8) (sizes : SectionSizes) (levels extra : ℕ)
    (data : List UInt8) : Except Fault CapturePayloadView :=
  readBytes sizes.levels data >>= fun (words, data) =>
    readBytes sizes.compact data >>= fun (compact, data) =>
      readBytes sizes.coordinates data >>= fun (coordinates, data) =>
        readBytes sizes.scores data >>= fun (scores, data) =>
          readBytes sizes.angles data >>= fun (angles, data) =>
            readBytes sizes.descriptors data >>= fun (descriptors, data) =>
              readBytes sizes.membership data >>= fun (membership, _) =>
                let split := splitLevels extra levels (loadWords16 (levels * (5 + extra)) words)
                .ok {
                  count := n
                  mode := header.getD 0 0
                  descriptorBytes := header.getD 1 0
                  levels := header.getD 2 0
                  tableWidth := header.getD 3 0
                  levelFields := some split.1
                  levelExtra := some split.2
                  compactCoordinates := loadedArray sizes.compact compact
                  descriptors := loadedArray sizes.descriptors descriptors
                  membership := loadedArray sizes.membership membership
                  coordinates := loadedArray sizes.coordinates
                    (loadWords32 (sizes.coordinates / 4) coordinates)
                  scores := loadedArray sizes.scores (loadWords32 (sizes.scores / 4) scores)
                  angles := loadedArray sizes.angles (loadWords32 (sizes.angles / 4) angles) }

/-- The level counts, read at the head of every level; none may exceed 32767. -/
def loadLevelCounts (stride : ℕ) (data : List UInt8) : ℕ → ℕ → Except Fault ℕ
  | 0, _ => .ok 0
  | levels + 1, offset =>
      loadLe16 data offset >>= fun count =>
        if 32767 < count.toNat then .error (.status 140)
        else
          loadLevelCounts stride data levels (offset + stride) >>= fun sum =>
            .ok (count.toNat + sum)

/-- An empty view of `n` features, for payloads that hold nothing but the count. -/
def CapturePayloadView.bare (n : ℕ) : CapturePayloadView :=
  ⟨n, 0, 0, 0, 0, none, none, none, none, none, none, none, none⟩

/-- The loader; the arrays of the result live in allocation `fresh`. -/
def captureLoadPayload (data : List UInt8) (flags : UInt16) (fresh : ℕ) :
    Except Fault LoadedCapture :=
  if data.length < 4 then .error (.status 140)
  else
    loadLe32 data 0 >>= fun count =>
      let n := count.toNat
      if 32767 < n then .error (.status 140)
      else if !hasFlag flags 0x400 then
        if data.length ≠ 4 then .error (.status 140) else .ok ⟨CapturePayloadView.bare n, none⟩
      else if data.length < 8 then .error (.status 140)
      else
        let header := (data.drop 4).take 4
        let levels := header.getD 2 0
        let extra := extraWords (header.getD 3 0)
        let sizes := sectionSizes n (header.getD 1 0) levels (header.getD 3 0) flags
        if data.length ≠ 8 + sizes.total then .error (.status 140)
        else
          loadLevelCounts (2 * (5 + extra)) data levels.toNat 8 >>= fun sum =>
            -- the sum is a `uint32_t`
            if sum % 2 ^ 32 ≠ n then .error (.status 140)
            else
              loadSections n header sizes levels.toNat extra (data.drop 8) >>= fun view =>
                .ok ⟨view, some fresh⟩

/-! ### Words survive a round trip -/

theorem storeWords16_length (words : List UInt16) :
    (storeWords16 words).length = 2 * words.length := by
  induction words with
  | nil => rfl
  | cons w words ih =>
      rw [storeWords16, List.flatMap_cons, List.length_append, storeLe16_length, List.length_cons]
      rw [storeWords16] at ih
      omega

theorem storeWords32_length (words : List UInt32) :
    (storeWords32 words).length = 4 * words.length := by
  induction words with
  | nil => rfl
  | cons w words ih =>
      rw [storeWords32, List.flatMap_cons, List.length_append, storeLe32_length, List.length_cons]
      rw [storeWords32] at ih
      omega

theorem storeWords16_append (a b : List UInt16) :
    storeWords16 (a ++ b) = storeWords16 a ++ storeWords16 b :=
  List.flatMap_append

theorem loadWords16_storeWords16 {n : ℕ} {words : List UInt16} (h : words.length = n) :
    loadWords16 n (storeWords16 words) = words := by
  have hflat : storeWords16 words = (words.map UInt16.toNat).flatMap (leBytes 2) := by
    rw [List.flatMap_map]
    rfl
  have hlt : ∀ a ∈ words.map UInt16.toNat, a < 256 ^ 2 := by
    intro a ha
    obtain ⟨w, -, rfl⟩ := List.mem_map.1 ha
    exact w.toNat_lt
  have := leWords_flatMap hlt
  rw [List.length_map, h] at this
  rw [loadWords16, hflat, this, List.map_map]
  simp [Function.comp_def]

/-- Only the bytes of the words that are loaded matter. -/
theorem loadWords16_append {n : ℕ} {words : List UInt16} (h : words.length = n)
    (rest : List UInt8) : loadWords16 n (storeWords16 words ++ rest) = words := by
  rw [loadWords16, leWords_append (by rw [storeWords16_length, h])]
  exact loadWords16_storeWords16 h

theorem loadWords32_storeWords32 {n : ℕ} {words : List UInt32} (h : words.length = n) :
    loadWords32 n (storeWords32 words) = words := by
  have hflat : storeWords32 words = (words.map UInt32.toNat).flatMap (leBytes 4) := by
    rw [List.flatMap_map]
    rfl
  have hlt : ∀ a ∈ words.map UInt32.toNat, a < 256 ^ 4 := by
    intro a ha
    obtain ⟨w, -, rfl⟩ := List.mem_map.1 ha
    exact w.toNat_lt
  have := leWords_flatMap hlt
  rw [List.length_map, h] at this
  rw [loadWords32, hflat, this, List.map_map]
  simp [Function.comp_def]

/-! ### Levels -/

/-- The feature counts at the head of the levels. -/
def levelCounts : ℕ → List UInt16 → List ℕ
  | 0, _ => []
  | levels + 1, fields => (fields.getD 0 0).toNat :: levelCounts levels (fields.drop 5)

/-- The level counts are those the view reports level by level. -/
theorem levelCounts_eq (levels : ℕ) (fields : List UInt16) :
    levelCounts levels fields =
      (List.range levels).map fun l => (fields.getD (l * 5) 0).toNat := by
  induction levels generalizing fields with
  | zero => rfl
  | succ levels ih =>
      rw [levelCounts, ih, List.range_succ_eq_map, List.map_cons, List.map_map]
      congr 2
      funext l
      simp only [List.getD_eq_getElem?_getD, List.getElem?_drop, Function.comp_apply]
      congr 3
      omega

theorem joinLevels_length {extra levels : ℕ} {fields extras : List UInt16}
    (hf : fields.length = 5 * levels) (he : extras.length = extra * levels) :
    (joinLevels extra levels fields extras).length = levels * (5 + extra) := by
  induction levels generalizing fields extras with
  | zero => simp [joinLevels]
  | succ levels ih =>
      rw [Nat.mul_succ] at hf he
      rw [joinLevels, List.length_append, List.length_append, ih (by simp; omega) (by simp; omega),
        List.length_take_of_le (by omega), List.length_take_of_le (by omega), Nat.succ_mul]
      omega

/-- Splitting joined levels gives the fields and the extra words back. -/
theorem splitLevels_joinLevels {extra levels : ℕ} {fields extras : List UInt16}
    (hf : fields.length = 5 * levels) (he : extras.length = extra * levels) :
    splitLevels extra levels (joinLevels extra levels fields extras) = (fields, extras) := by
  induction levels generalizing fields extras with
  | zero =>
      rw [Nat.mul_zero, List.length_eq_zero_iff] at hf he
      rw [hf, he]
      rfl
  | succ levels ih =>
      rw [Nat.mul_succ] at hf he
      have hfive : (fields.take 5).length = 5 := List.length_take_of_le (by omega)
      have hextra : (extras.take extra).length = extra := List.length_take_of_le (by omega)
      set rest := joinLevels extra levels (fields.drop 5) (extras.drop extra) with hrest
      have htake : (fields.take 5 ++ (extras.take extra ++ rest)).take 5 = fields.take 5 :=
        List.take_left' hfive
      have hdrop : (fields.take 5 ++ (extras.take extra ++ rest)).drop 5 =
          extras.take extra ++ rest := List.drop_left' hfive
      have hdrop' : (fields.take 5 ++ (extras.take extra ++ rest)).drop (5 + extra) = rest := by
        rw [← List.drop_drop, hdrop, List.drop_left' hextra]
      rw [joinLevels, splitLevels, ← hrest, hdrop', htake, hdrop, List.take_left' hextra, hrest,
        ih (by simp; omega) (by simp; omega)]
      simp

/-- The loader sums the level counts the writer put at the head of each level. -/
theorem loadLevelCounts_joinLevels {extra levels : ℕ} {fields extras : List UInt16}
    (hf : fields.length = 5 * levels) (he : extras.length = extra * levels)
    (hle : ∀ c ∈ levelCounts levels fields, c ≤ 32767) (pre rest : List UInt8) :
    loadLevelCounts (2 * (5 + extra))
        (pre ++ (storeWords16 (joinLevels extra levels fields extras) ++ rest)) levels pre.length =
      .ok (levelCounts levels fields).sum := by
  induction levels generalizing fields extras pre with
  | zero => rfl
  | succ levels ih =>
      rw [Nat.mul_succ] at hf he
      rw [levelCounts, List.forall_mem_cons] at hle
      obtain ⟨count, fields', rfl⟩ : ∃ count fields', fields = count :: fields' :=
        List.exists_cons_of_length_pos (by omega)
      have hhead : loadLe16 (pre ++ (storeWords16 (joinLevels extra (levels + 1)
          (count :: fields') extras) ++ rest)) pre.length = .ok count := by
        rw [joinLevels, List.take_succ_cons, List.cons_append, storeWords16, List.flatMap_cons,
          List.append_assoc]
        exact loadLe16_append pre count _
      have hfields : ((count :: fields').drop 5).length = 5 * levels := by
        simp at hf ⊢
        omega
      have hextras : (extras.drop extra).length = extra * levels := by
        simp
        omega
      have hnext := ih hfields hextras hle.2
        (pre ++ storeWords16 ((count :: fields').take 5 ++ extras.take extra))
      have hoffset : (pre ++ storeWords16 ((count :: fields').take 5 ++ extras.take extra)).length =
          pre.length + 2 * (5 + extra) := by
        rw [List.length_append, storeWords16_length, List.length_append,
          List.length_take_of_le (by omega), List.length_take_of_le (by omega)]
      have hsplit : pre ++
          (storeWords16 (joinLevels extra (levels + 1) (count :: fields') extras) ++ rest) =
          pre ++ storeWords16 ((count :: fields').take 5 ++ extras.take extra) ++
            (storeWords16 (joinLevels extra levels ((count :: fields').drop 5)
              (extras.drop extra)) ++ rest) := by
        rw [joinLevels]
        simp only [storeWords16_append, List.append_assoc]
      rw [hoffset, ← hsplit] at hnext
      have hcount : count.toNat ≤ 32767 := hle.1
      rw [loadLevelCounts, hhead, ok_bind, if_neg (not_lt.2 hcount), hnext, ok_bind, levelCounts,
        List.sum_cons]
      rfl

/-! ### The payload survives a round trip -/

/-- The arrays that are read have the length their counts announce, and the levels cover the
features. -/
structure CapturePayloadView.Fits (view : CapturePayloadView) (flags : UInt16) : Prop where
  count : view.count ≤ 32767
  levelFields : (view.levelFields.getD []).length = 5 * view.levels.toNat
  levelExtra : (view.levelExtra.getD []).length = extraWords view.tableWidth * view.levels.toNat
  compact : hasFlag flags 0x20 = true →
    (view.compactCoordinates.getD []).length = 2 * view.count
  coordinates : hasFlag flags 0x20 = false → (view.coordinates.getD []).length = 2 * view.count
  scores : hasFlag flags 4 = true → (view.scores.getD []).length = view.count
  angles : hasFlag flags 2 = true → (view.angles.getD []).length = view.count
  descriptors : hasFlag flags 0x800 = true →
    (view.descriptors.getD []).length = view.count * view.descriptorBytes.toNat
  membership : hasFlag flags 0x80 = true →
    (view.membership.getD []).length = (view.count + 7) / 8
  levelCount_le : ∀ c ∈ levelCounts view.levels.toNat (view.levelFields.getD []), c ≤ 32767
  levelCount_sum : (levelCounts view.levels.toNat (view.levelFields.getD [])).sum = view.count

/-- What loading a written view gives back: the arrays the flags select, the others absent. -/
def CapturePayloadView.selected (view : CapturePayloadView) (flags : UInt16) :
    CapturePayloadView :=
  let sizes := view.sizes flags
  { view with
    levelFields := some (view.levelFields.getD [])
    levelExtra := some (view.levelExtra.getD [])
    compactCoordinates := loadedArray sizes.compact (view.compactCoordinates.getD [])
    descriptors := loadedArray sizes.descriptors (view.descriptors.getD [])
    membership := loadedArray sizes.membership (view.membership.getD [])
    coordinates := loadedArray sizes.coordinates (view.coordinates.getD [])
    scores := loadedArray sizes.scores (view.scores.getD [])
    angles := loadedArray sizes.angles (view.angles.getD []) }

theorem arrayPresent_of_length {α : Type} {needed : Bool} {array : Option (List α)}
    (h : needed = true → (array.getD []).length ≠ 0) : arrayPresent needed array = true := by
  cases needed with
  | false => rfl
  | true =>
      cases array with
      | none => exact absurd rfl (h rfl)
      | some l => rfl

/-- A fitting view has the arrays that are read. -/
theorem capturePayloadPresent_of_fits {view : CapturePayloadView} {flags : UInt16}
    (h : view.Fits flags) : capturePayloadPresent view flags = true := by
  have hlevels : view.levels ≠ 0 → view.levels.toNat ≠ 0 := fun h h0 =>
    h (UInt8.toNat_inj.1 h0)
  have hbytes : view.descriptorBytes ≠ 0 → view.descriptorBytes.toNat ≠ 0 := fun h h0 =>
    h (UInt8.toNat_inj.1 h0)
  simp only [capturePayloadPresent, Bool.and_eq_true]
  refine ⟨⟨⟨⟨⟨⟨⟨?_, ?_⟩, ?_⟩, ?_⟩, ?_⟩, ?_⟩, ?_⟩, ?_⟩ <;>
    refine arrayPresent_of_length fun hneeded => ?_ <;>
    simp only [Bool.and_eq_true, bne_iff_ne, ne_eq, Bool.not_eq_true'] at hneeded
  · rw [h.levelFields]
    have := hlevels hneeded
    omega
  · rw [h.levelExtra]
    exact mul_ne_zero hneeded.2 (hlevels hneeded.1)
  · rw [h.compact hneeded.2]
    have := hneeded.1
    omega
  · rw [h.coordinates hneeded.2]
    have := hneeded.1
    omega
  · rw [h.scores hneeded.2]
    exact hneeded.1
  · rw [h.angles hneeded.2]
    exact hneeded.1
  · rw [h.descriptors hneeded.2]
    exact mul_ne_zero hneeded.1.1 (hbytes hneeded.1.2)
  · rw [h.membership hneeded.2]
    have := hneeded.1
    omega

section Parts

variable {α : Type} {needed : Bool} {array : Option (List α)} {n k : ℕ}

/-- An array if it is selected, else nothing. -/
def part (needed : Bool) (array : Option (List α)) : List α :=
  if needed then array.getD [] else []

theorem part_length (needed : Bool) (h : needed = true → (array.getD []).length = k) :
    (part needed array).length = if needed then k else 0 := by
  cases needed with
  | false => rfl
  | true => exact h rfl

theorem readArray_part (needed : Bool) (h : needed = true → (array.getD []).length = k)
    (hn : n = if needed then k else 0) : readArray array n = .ok (part needed array) := by
  cases needed with
  | false => simp [readArray, hn, part]
  | true =>
      have hlen : (array.getD []).length = n := by rw [h rfl, hn, if_pos rfl]
      rw [readArray, if_pos hlen.ge, List.take_of_length_le hlen.le]
      rfl

theorem loadedArray_part (h : needed = false → n = 0) :
    loadedArray n (part needed array) = loadedArray n (array.getD []) := by
  cases needed with
  | false => rw [h rfl, loadedArray, loadedArray, if_pos rfl, if_pos rfl]
  | true => rfl

end Parts

theorem readBytes_append {n : ℕ} {first : List UInt8} (h : first.length = n)
    (rest : List UInt8) : readBytes n (first ++ rest) = .ok (first, rest) := by
  rw [readBytes, cut_append_of_length h]

/-- The bytes of the arrays the flags select. -/
def selectedBytes (view : CapturePayloadView) (flags : UInt16) : List UInt8 :=
  part (hasFlag flags 0x20) view.compactCoordinates ++
    (storeWords32 (part (!hasFlag flags 0x20) view.coordinates) ++
      (storeWords32 (part (hasFlag flags 4) view.scores) ++
        (storeWords32 (part (hasFlag flags 2) view.angles) ++
          (part (hasFlag flags 0x800) view.descriptors ++
            part (hasFlag flags 0x80) view.membership))))

/-- The bytes of the level words. -/
def levelBytes (view : CapturePayloadView) : List UInt8 :=
  storeWords16 (joinLevels (extraWords view.tableWidth) view.levels.toNat
    (view.levelFields.getD []) (view.levelExtra.getD []))

/-- The bytes of a whole payload. -/
def payloadBytes (view : CapturePayloadView) (flags : UInt16) : List UInt8 :=
  storeLe32 view.count ++
    ([view.mode, view.descriptorBytes, view.levels, view.tableWidth] ++
      (levelBytes view ++ selectedBytes view flags))

section RoundTrip

variable {view : CapturePayloadView} {flags : UInt16}

/-- A quarter of a size that is four times a selected count. -/
theorem quarter_selected (needed : Bool) (k : ℕ) :
    (if needed then 4 * k else 0) / 4 = if needed then k else 0 := by
  cases needed <;> simp

/-- Wide coordinates are there when packed ones are not. -/
theorem coordinates_size (view : CapturePayloadView) (flags : UInt16) :
    (view.sizes flags).coordinates = if !hasFlag flags 0x20 then 4 * (2 * view.count) else 0 := by
  cases h : hasFlag flags 0x20 with
  | false =>
      simp only [CapturePayloadView.sizes, sectionSizes, h, Bool.not_false, if_true,
        Bool.false_eq_true, if_false]
      ring
  | true => simp [CapturePayloadView.sizes, sectionSizes, h]

theorem levelBytes_length (h : view.Fits flags) :
    (levelBytes view).length = (view.sizes flags).levels := by
  rw [levelBytes, storeWords16_length, joinLevels_length h.levelFields h.levelExtra,
    CapturePayloadView.sizes, sectionSizes]
  ring

/-- The sections of the arrays have the sizes announced for them. -/
theorem selectedBytes_length (h : view.Fits flags) :
    (selectedBytes view flags).length + (view.sizes flags).levels =
      (view.sizes flags).total := by
  have hcoordinates := coordinates_size view flags
  simp only [selectedBytes, List.length_append, storeWords32_length, part_length _ h.compact,
    part_length _ h.scores, part_length _ h.angles, part_length _ h.descriptors,
    part_length _ h.membership,
    part_length (!hasFlag flags 0x20) fun hn => h.coordinates (by simpa using hn),
    SectionSizes.total, hcoordinates]
  simp only [CapturePayloadView.sizes, sectionSizes]
  split_ifs <;> omega

theorem payloadBytes_length (h : view.Fits flags) :
    (payloadBytes view flags).length = 8 + (view.sizes flags).total := by
  have := selectedBytes_length h
  simp only [payloadBytes, List.length_append, storeLe32_length, levelBytes_length h,
    List.length_cons, List.length_nil]
  omega

/-- The size query on a fitting view. -/
theorem capturePayloadSize_eq (h : view.Fits flags) (hflag : hasFlag flags 0x400 = true) :
    capturePayloadSize view flags = .ok (8 + (view.sizes flags).total) := by
  rw [capturePayloadSize, if_neg (not_lt.2 h.count), hflag, if_neg (by simp),
    capturePayloadPresent_of_fits h, if_neg (by simp)]

/-- **The writer produces the payload** when the buffer is large enough. -/
theorem capturePayload_eq (h : view.Fits flags) (hflag : hasFlag flags 0x400 = true)
    {capacity : ℕ} (hcap : 8 + (view.sizes flags).total ≤ capacity) :
    capturePayload view flags capacity = .ok (payloadBytes view flags) := by
  have hlevels : levelWords view = .ok (levelBytes view) := by
    have hfields := readArray_part true (n := 5 * view.levels.toNat)
      (fun _ => h.levelFields) rfl
    have hextras := readArray_part true
      (n := extraWords view.tableWidth * view.levels.toNat) (fun _ => h.levelExtra) rfl
    rw [levelWords, hfields, ok_bind, hextras, ok_bind]
    rfl
  have hcoordinates := coordinates_size view flags
  have harrays : arrayBytes view flags = .ok (selectedBytes view flags) := by
    rw [arrayBytes, readArray_part _ (n := (view.sizes flags).compact) h.compact rfl, ok_bind,
      readArray_part (!hasFlag flags 0x20) (fun hn => h.coordinates (by simpa using hn))
        (by rw [hcoordinates, quarter_selected]), ok_bind,
      readArray_part _ (n := (view.sizes flags).scores / 4) h.scores (quarter_selected _ _),
      ok_bind,
      readArray_part _ (n := (view.sizes flags).angles / 4) h.angles (quarter_selected _ _),
      ok_bind,
      readArray_part _ (n := (view.sizes flags).descriptors) h.descriptors rfl, ok_bind,
      readArray_part _ (n := (view.sizes flags).membership) h.membership rfl, ok_bind]
    rfl
  rw [capturePayload, capturePayloadSize_eq h hflag, ok_bind, if_neg (not_lt.2 hcap), hflag,
    if_neg (by simp), hlevels, ok_bind, harrays, ok_bind]
  rfl

/-- The sections are cut out again where the writer put them. -/
theorem loadSections_payloadBytes (h : view.Fits flags) :
    loadSections view.count [view.mode, view.descriptorBytes, view.levels, view.tableWidth]
      (view.sizes flags) view.levels.toNat (extraWords view.tableWidth)
      (levelBytes view ++ selectedBytes view flags) = .ok (view.selected flags) := by
  have hcoordinates := coordinates_size view flags
  have hwide : (part (!hasFlag flags 0x20) view.coordinates).length =
      if !hasFlag flags 0x20 then 2 * view.count else 0 :=
    part_length _ fun hn => h.coordinates (by simpa using hn)
  have hscores : (part (hasFlag flags 4) view.scores).length = (view.sizes flags).scores / 4 := by
    rw [part_length _ h.scores]
    exact (quarter_selected _ _).symm
  have hangles : (part (hasFlag flags 2) view.angles).length = (view.sizes flags).angles / 4 := by
    rw [part_length _ h.angles]
    exact (quarter_selected _ _).symm
  have hcoords : (part (!hasFlag flags 0x20) view.coordinates).length =
      (view.sizes flags).coordinates / 4 := by
    rw [hwide, hcoordinates, quarter_selected]
  have hquarter : ∀ needed : Bool, ∀ k, 4 * ((if needed then 4 * k else 0) / 4) =
      if needed then 4 * k else 0 := by
    intro needed k
    cases needed <;> simp
  rw [loadSections, readBytes_append (levelBytes_length h), ok_bind, selectedBytes]
  simp only
  rw [readBytes_append (n := (view.sizes flags).compact) (part_length _ h.compact), ok_bind]
  simp only
  rw [readBytes_append (n := (view.sizes flags).coordinates)
    (by rw [storeWords32_length, hcoords, hcoordinates, hquarter]), ok_bind]
  simp only
  rw [readBytes_append (n := (view.sizes flags).scores)
    (by rw [storeWords32_length, hscores]; exact hquarter _ _), ok_bind]
  simp only
  rw [readBytes_append (n := (view.sizes flags).angles)
    (by rw [storeWords32_length, hangles]; exact hquarter _ _), ok_bind]
  simp only
  rw [readBytes_append (n := (view.sizes flags).descriptors) (part_length _ h.descriptors), ok_bind]
  simp only
  have hlast : readBytes (view.sizes flags).membership
      (part (hasFlag flags 0x80) view.membership) =
        .ok (part (hasFlag flags 0x80) view.membership, []) := by
    have := readBytes_append (n := (view.sizes flags).membership)
      (part_length _ h.membership) []
    rwa [List.append_nil] at this
  have hwords := joinLevels_length h.levelFields h.levelExtra
  rw [hlast, ok_bind]
  simp only [levelBytes, loadWords16_storeWords16 hwords,
    splitLevels_joinLevels h.levelFields h.levelExtra, loadWords32_storeWords32 hcoords,
    loadWords32_storeWords32 hscores, loadWords32_storeWords32 hangles, List.getD_cons_zero,
    List.getD_cons_succ]
  have hzero : ∀ needed : Bool, ∀ k, needed = false → (if needed then k else 0) = 0 := by
    rintro needed k rfl
    rfl
  rw [loadedArray_part (n := (view.sizes flags).compact) (hzero _ _),
    loadedArray_part (n := (view.sizes flags).descriptors) (hzero _ _),
    loadedArray_part (n := (view.sizes flags).membership) (hzero _ _),
    loadedArray_part (n := (view.sizes flags).coordinates)
      (fun hn => by rw [hcoordinates, hzero _ _ hn]),
    loadedArray_part (n := (view.sizes flags).scores) (hzero _ _),
    loadedArray_part (n := (view.sizes flags).angles) (hzero _ _)]
  rfl

/-- **A written payload loads back.** -/
theorem captureLoadPayload_payloadBytes (h : view.Fits flags) (hflag : hasFlag flags 0x400 = true)
    (fresh : ℕ) :
    captureLoadPayload (payloadBytes view flags) flags fresh =
      .ok ⟨view.selected flags, some fresh⟩ := by
  have hlen := payloadBytes_length h
  have hcount := h.count
  have hload : loadLe32 (payloadBytes view flags) 0 = .ok (BitVec.ofNat 32 view.count) :=
    loadLe32_append [] _ (by omega)
  have htoNat : (BitVec.ofNat 32 view.count).toNat = view.count := by
    rw [BitVec.toNat_ofNat, Nat.mod_eq_of_lt (by omega)]
  have hdrop4 : (payloadBytes view flags).drop 4 =
      [view.mode, view.descriptorBytes, view.levels, view.tableWidth] ++
        (levelBytes view ++ selectedBytes view flags) := List.drop_left' (storeLe32_length _)
  have hheader : ((payloadBytes view flags).drop 4).take 4 =
      [view.mode, view.descriptorBytes, view.levels, view.tableWidth] := by
    rw [hdrop4]
    exact List.take_left' rfl
  have hbody : (payloadBytes view flags).drop 8 = levelBytes view ++ selectedBytes view flags := by
    rw [show 8 = 4 + 4 from rfl, ← List.drop_drop, hdrop4]
    exact List.drop_left' rfl
  have hsum : loadLevelCounts (2 * (5 + extraWords view.tableWidth)) (payloadBytes view flags)
      view.levels.toNat 8 = .ok view.count := by
    have := loadLevelCounts_joinLevels h.levelFields h.levelExtra h.levelCount_le
      (storeLe32 view.count ++ [view.mode, view.descriptorBytes, view.levels, view.tableWidth])
      (selectedBytes view flags)
    rw [h.levelCount_sum] at this
    simpa [payloadBytes, levelBytes, List.append_assoc] using this
  rw [captureLoadPayload, if_neg (by omega), hload, ok_bind]
  simp only [htoNat]
  rw [if_neg (not_lt.2 hcount), hflag, if_neg (by simp), if_neg (by omega), hheader]
  simp only [List.getD_cons_zero, List.getD_cons_succ]
  rw [if_neg (by rw [hlen]; simp [CapturePayloadView.sizes]), hsum, ok_bind,
    Nat.mod_eq_of_lt (by omega), if_neg (by simp), hbody]
  have := loadSections_payloadBytes h
  rw [CapturePayloadView.sizes] at this
  rw [this, ok_bind]

end RoundTrip

end Fpc
