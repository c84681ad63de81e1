/-
**The pair payload.**

The matched pairs of two captures are stored behind a header with their number, the number of
inliers, a success byte and a transform.  Flags decide what a record has beyond the two indices, and
whether pairs that were not kept are left out.  Such a filtered payload says less than the list it
was made of: what it says is the list that dropping those pairs in memory leaves.

Main definitions:

* `Fpc.pairPayloadSize`, `Fpc.pairPayload` — the size query and the writer;
* `Fpc.pairLoadPayload` — the loader;
* `Fpc.compactCandidates` — dropping the pairs that were not kept;
* `Fpc.pairFormat` — the record of one pair, for given flags;
* `Fpc.Candidate.reloaded` — what a pair is loaded as.

Main results:

* `Fpc.pairPayload_codec` — what is written loads back within the limits of the loader, and **what
  loads is written back exactly when its count is the announced one and no flag is lost**;
* `Fpc.pairPayload_compacted` — **filtering while writing is compacting before**.
-/

import FpcReader.Native.Candidates
import FpcReader.Native.GroupPayload

set_option relaxedAutoImplicit false
set_option autoImplicit false

namespace Fpc

open Bytes Fallible Records

/-! ### One record -/

/-- The bytes of a record under the given flags. -/
def pairStride (flags : UInt16) : ℕ :=
  4 + (if hasFlag flags 0x4000 then 2 else 0) + (if hasFlag flags 0x8000 then 1 else 0)

/-- The words of a record: the indices, and the distance when the flags ask for it. -/
def Candidate.words (flags : UInt16) (pair : Candidate) : List UInt16 :=
  [UInt16.ofNat pair.first, UInt16.ofNat pair.second] ++
    if hasFlag flags 0x4000 then [UInt16.ofNat pair.distance] else []

/-- The bytes of a record. -/
def Candidate.store (flags : UInt16) (pair : Candidate) : List UInt8 :=
  storeWords16 (pair.words flags) ++
    if hasFlag flags 0x8000 then [UInt8.ofNat pair.flag] else []

/-- The record of some bytes; without a flag byte every pair of a filtered payload is flagged. -/
def Candidate.load (flags : UInt16) (bytes : List UInt8) : Candidate :=
  let count := if hasFlag flags 0x4000 then 3 else 2
  let words := loadWords16 count (bytes.take (2 * count))
  { first := (words.getD 0 0).toNat
    second := (words.getD 1 0).toNat
    distance := (words.getD 2 0).toNat
    flag := if hasFlag flags 0x8000 then (bytes.getD (2 * count) 0).toNat
      else if hasFlag flags 0x2000 then 1 else 0 }

/-- The fields of a pair have the widths of the source. -/
structure Candidate.InWidth (pair : Candidate) : Prop where
  first : pair.first < 2 ^ 16
  second : pair.second < 2 ^ 16
  distance : pair.distance < 2 ^ 16
  flag : pair.flag < 2 ^ 8

/-- What a pair is loaded as: fields that the flags leave out come back as defaults. -/
def Candidate.reloaded (flags : UInt16) (pair : Candidate) : Candidate where
  first := pair.first
  second := pair.second
  distance := if hasFlag flags 0x4000 then pair.distance else 0
  flag := if hasFlag flags 0x8000 then pair.flag else if hasFlag flags 0x2000 then 1 else 0

section Record

variable {flags : UInt16}

theorem Candidate.words_length (pair : Candidate) :
    (pair.words flags).length = if hasFlag flags 0x4000 then 3 else 2 := by
  unfold Candidate.words
  split_ifs <;> rfl

theorem Candidate.store_length (pair : Candidate) :
    (pair.store flags).length = pairStride flags := by
  unfold Candidate.store pairStride
  rw [List.length_append, storeWords16_length, pair.words_length]
  split_ifs <;> rfl

@[simp]
theorem Candidate.reloaded_store (pair : Candidate) :
    (pair.reloaded flags).store flags = pair.store flags := by
  unfold Candidate.store Candidate.words Candidate.reloaded
  split_ifs <;> rfl

/-- A pair is loaded as announced. -/
theorem Candidate.load_store {pair : Candidate} (h : pair.InWidth) :
    Candidate.load flags (pair.store flags) = pair.reloaded flags := by
  have hfirst : (UInt16.ofNat pair.first).toNat = pair.first := by
    rw [UInt16.toNat_ofNat', Nat.mod_eq_of_lt h.first]
  have hsecond : (UInt16.ofNat pair.second).toNat = pair.second := by
    rw [UInt16.toNat_ofNat', Nat.mod_eq_of_lt h.second]
  have hdistance : (UInt16.ofNat pair.distance).toNat = pair.distance := by
    rw [UInt16.toNat_ofNat', Nat.mod_eq_of_lt h.distance]
  have hflag : (UInt8.ofNat pair.flag).toNat = pair.flag := by
    rw [UInt8.toNat_ofNat', Nat.mod_eq_of_lt h.flag]
  have hcount : (pair.words flags).length = _ := pair.words_length
  have hwords : (storeWords16 (pair.words flags)).length =
      2 * (if hasFlag flags 0x4000 then 3 else 2) := by
    rw [storeWords16_length, hcount]
  unfold Candidate.load Candidate.store
  simp only [List.take_left' hwords, loadWords16_storeWords16 hcount,
    List.getD_eq_getElem?_getD, List.getElem?_append_right hwords.le, hwords, Nat.sub_self]
  unfold Candidate.words Candidate.reloaded
  split_ifs <;> simp [hfirst, hsecond, hdistance, hflag]

/-- The words of a loaded record are the words of its bytes. -/
theorem Candidate.words_load (bytes : List UInt8) :
    (Candidate.load flags bytes).words flags =
      loadWords16 (if hasFlag flags 0x4000 then 3 else 2)
        (bytes.take (2 * if hasFlag flags 0x4000 then 3 else 2)) := by
  unfold Candidate.words Candidate.load
  cases hasFlag flags 0x4000 with
  | true =>
      have hlength : (loadWords16 3 (bytes.take 6)).length = 3 := by simp [loadWords16]
      obtain ⟨a, b, c, habc⟩ := List.length_eq_three.1 hlength
      simp [habc]
  | false =>
      have hlength : (loadWords16 2 (bytes.take 4)).length = 2 := by simp [loadWords16]
      obtain ⟨a, b, hab⟩ := List.length_eq_two.1 hlength
      simp [hab]

/-- Loaded bytes are stored again. -/
theorem Candidate.store_load {bytes : List UInt8} (h : bytes.length = pairStride flags) :
    (Candidate.load flags bytes).store flags = bytes := by
  obtain ⟨k, hk⟩ : ∃ k, k = if hasFlag flags 0x4000 then 3 else 2 := ⟨_, rfl⟩
  have hlength : bytes.length = 2 * k + if hasFlag flags 0x8000 then 1 else 0 := by
    rw [h, pairStride, hk]
    split_ifs <;> rfl
  have hhead : (bytes.take (2 * k)).length = 2 * k := by
    rw [List.length_take]
    omega
  have hstored := storeWords16_loadWords16 hhead
  have htail : (if hasFlag flags 0x8000 then
      [UInt8.ofNat (Candidate.load flags bytes).flag] else []) = bytes.drop (2 * k) := by
    by_cases hflag : hasFlag flags 0x8000
    · rw [if_pos hflag] at hlength ⊢
      have hone : (bytes.drop (2 * k)).length = 1 := by
        rw [List.length_drop]
        omega
      obtain ⟨b, hb⟩ := List.length_eq_one_iff.1 hone
      have hget : bytes.getD (2 * k) 0 = b := by
        have := congrArg (fun l => l.getD 0 0) hb
        simpa [List.getD_eq_getElem?_getD] using this
      rw [Candidate.load, if_pos hflag, ← hk, hget, hb, UInt8.ofNat_toNat]
    · rw [if_neg hflag] at hlength ⊢
      rw [List.drop_of_length_le (by omega)]
  rw [Candidate.store, Candidate.words_load, ← hk, hstored, htail, List.take_append_drop]

end Record

/-- The records of the table; those come back that the flags tell everything about. -/
def pairFormat (flags : UInt16) : Format Candidate where
  width := pairStride flags
  store := Candidate.store flags
  load := Candidate.load flags
  Fits pair := pair.InWidth ∧ pair.reloaded flags = pair
  store_length := Candidate.store_length
  load_store _ h := (Candidate.load_store h.1).trans h.2
  store_load _ h := Candidate.store_load h

/-! ### Writing -/

/-- Does the payload have this pair? -/
def pairSelected (flags : UInt16) (pair : Candidate) : Bool :=
  !hasFlag flags 0x2000 || pair.flag != 0

/-- The size query.  A filtered payload must have as many pairs as there are inliers. -/
def pairPayloadSize (pairs : Option (List Candidate)) (count : ℕ) (inliers : UInt32)
    (flags : UInt16) : Except Fault ℕ :=
  if !hasFlag flags 0x1000 ∨ 2 ^ 32 - 1 < count ∨ (count ≠ 0 ∧ pairs.isNone) then
    .error (.status (-1))
  else
    readArray pairs count >>= fun pairs =>
      let selected := pairs.countP (pairSelected flags)
      if hasFlag flags 0x2000 ∧ selected ≠ inliers.toNat then .error (.status (-1))
      else if (2 ^ 64 - 1 - 17) / pairStride flags < selected then .error (.status (-1))
      else .ok (17 + selected * pairStride flags)

/-- The bytes before the table. -/
def pairHeader (selected inliers : UInt32) (success : UInt8) (transform : Vector Int16 4) :
    List UInt8 :=
  storeWords32 [selected, inliers] ++
    (success :: storeWords16 (transform.toList.map Int16.toUInt16))

/-- The writer, into a buffer of `capacity` bytes. -/
def pairPayload (pairs : Option (List Candidate)) (count : ℕ) (inliers : UInt32)
    (success : UInt8) (transform : Vector Int16 4) (flags : UInt16) (capacity : ℕ) :
    Except Fault (List UInt8) :=
  pairPayloadSize pairs count inliers flags >>= fun size =>
    if capacity < size then .error (.status (-1))
    else
      readArray pairs count >>= fun pairs =>
        .ok (pairHeader (UInt32.ofNat (pairs.countP (pairSelected flags))) inliers success
            transform ++
          (pairFormat flags).storeAll (pairs.filter (pairSelected flags)))

/-- Keep the flagged pairs only, or copy the list; `allocated` tells whether memory could be had.
The replaced list comes with its length. -/
def compactCandidates (pairs : Option (List Candidate)) (count finalInliers : ℕ) (filter : Bool)
    (allocated : Bool) : Except Fault (Option (List Candidate) × ℕ) :=
  if (count ≠ 0 ∧ pairs.isNone) ∨ (2 ^ 64 - 1) / 8 < count then .error (.status (-1))
  else
    readArray pairs count >>= fun pairs =>
      let retained := if filter then pairs.countP fun pair => pair.flag != 0 else count
      if filter ∧ retained ≠ finalInliers then .error (.status (-1))
      else if retained ≠ 0 ∧ !allocated then .error (.status 2)
      else
        .ok (loadedArray retained (pairs.filter fun pair => !filter || pair.flag != 0), retained)

/-! ### Loading -/

/-- A loaded payload; the pairs are there when there is one. -/
structure LoadedPair where
  pairs : Option (List Candidate)
  count : ℕ
  inliers : UInt32
  success : UInt8
  transform : Vector Int16 4
  deriving DecidableEq, Repr

/-- The transform behind the success byte. -/
def loadTransform (data : List UInt8) : Vector Int16 4 :=
  Vector.ofFn fun i : Fin 4 => ((loadWords16 4 (data.drop 9)).getD i 0).toInt16

/-- The loader; `allocated` tells whether memory could be had. -/
def pairLoadPayload (data : List UInt8) (flags : UInt16) (allocated : Bool) :
    Except Fault LoadedPair :=
  if data.length < 17 ∨ !hasFlag flags 0x1000 then .error (.status 140)
  else
    let words := loadWords32 2 data
    let count := (words.getD 0 0).toNat
    let inliers := words.getD 1 0
    let stride := pairStride flags
    if 32767 < count ∨ 2048 < inliers.toNat ∨ (2 ^ 64 - 1 - 17) / stride < count ∨
        data.length ≠ 17 + count * stride then .error (.status 140)
    else if count ≠ 0 ∧ !allocated then .error (.status 2)
    else
      loadRecords (pairFormat flags) count (data.drop 17) >>= fun pairs =>
        .ok ⟨loadedArray count pairs, count, inliers, data.getD 8 0, loadTransform data⟩

/-! ### Both in terms of the format -/

section Codec

variable {flags : UInt16}

@[simp]
theorem pairHeader_length (selected inliers : UInt32) (success : UInt8)
    (transform : Vector Int16 4) : (pairHeader selected inliers success transform).length = 17 := by
  simp [pairHeader, storeWords32_length, storeWords16_length]

theorem pairStride_bounds (flags : UInt16) : 4 ≤ pairStride flags ∧ pairStride flags ≤ 7 := by
  unfold pairStride
  split_ifs <;> omega

/-- The size of a table that the loader takes is far from overflowing. -/
theorem pairCount_fits {count : ℕ} (h : count < 2 ^ 32) :
    ¬ (2 ^ 64 - 1 - 17) / pairStride flags < count := by
  obtain ⟨hlow, hhigh⟩ := pairStride_bounds flags
  rw [not_lt, Nat.le_div_iff_mul_le (by omega)]
  calc count * pairStride flags ≤ 2 ^ 32 * 7 := Nat.mul_le_mul h.le hhigh
    _ ≤ 2 ^ 64 - 1 - 17 := by norm_num

section Header

variable {count inliers : UInt32} {success : UInt8} {transform : Vector Int16 4}
  {table : List UInt8}

theorem pairHeader_words :
    loadWords32 2 (pairHeader count inliers success transform ++ table) = [count, inliers] := by
  have hwords : loadWords32 2 (storeWords32 [count, inliers]) = [count, inliers] :=
    loadWords32_storeWords32 rfl
  rw [loadWords32] at hwords
  rw [pairHeader, List.append_assoc, loadWords32, leWords_append (by simp [storeWords32_length]),
    hwords]

theorem pairHeader_success :
    (pairHeader count inliers success transform ++ table).getD 8 0 = success := by
  have hlength : (storeWords32 [count, inliers]).length = 8 := storeWords32_length _
  rw [pairHeader, List.append_assoc, List.getD_eq_getElem?_getD,
    List.getElem?_append_right hlength.le, hlength]
  rfl

theorem pairHeader_transform :
    loadTransform (pairHeader count inliers success transform ++ table) = transform := by
  have hlength : (storeWords32 [count, inliers] ++ [success]).length = 9 := by
    simp [storeWords32_length]
  have hrest : (pairHeader count inliers success transform ++ table).drop 9 =
      storeWords16 (transform.toList.map Int16.toUInt16) ++ table := by
    have hsplit : pairHeader count inliers success transform ++ table =
        (storeWords32 [count, inliers] ++ [success]) ++
          (storeWords16 (transform.toList.map Int16.toUInt16) ++ table) := by
      simp [pairHeader]
    rw [hsplit, List.drop_left' hlength]
  have hwords : loadWords16 4 (storeWords16 (transform.toList.map Int16.toUInt16) ++ table) =
      transform.toList.map Int16.toUInt16 := loadWords16_append (by simp) table
  rw [loadTransform, hrest, hwords]
  ext i hi
  simp

end Header

/-- **The loader**: a header, then a table that fills the rest exactly. -/
theorem pairLoadPayload_eq (hflag : hasFlag flags 0x1000 = true) (count inliers : UInt32)
    (success : UInt8) (transform : Vector Int16 4) (allocated : Bool) {table : List UInt8}
    (htable : table.length = pairStride flags * count.toNat) :
    pairLoadPayload (pairHeader count inliers success transform ++ table) flags allocated =
      if 32767 < count.toNat ∨ 2048 < inliers.toNat then .error (.status 140)
      else if count ≠ 0 ∧ !allocated then .error (.status 2)
      else .ok ⟨loadedArray count.toNat ((pairFormat flags).loadAll count.toNat table),
        count.toNat, inliers, success, transform⟩ := by
  have hheader := pairHeader_length count inliers success transform
  have hlength : (pairHeader count inliers success transform ++ table).length =
      17 + count.toNat * pairStride flags := by
    rw [List.length_append, hheader, htable, Nat.mul_comm]
  have hzero : count.toNat ≠ 0 ↔ count ≠ 0 := by
    rw [ne_eq, ne_eq, ← UInt32.toNat_inj]
    rfl
  rw [pairLoadPayload, if_neg (by rw [hlength, hflag]; simp)]
  simp only [pairHeader_words, List.getD_cons_zero, List.getD_cons_succ, hlength, ne_eq,
    not_true_eq_false, or_false, pairCount_fits count.toNat_lt, pairHeader_success,
    pairHeader_transform, List.drop_left' hheader, hzero]
  rw [loadRecords_eq (pairFormat flags) htable, ok_bind]

/-- The words at the start of longer bytes. -/
theorem storeWords32_loadWords32_take {n : ℕ} {data : List UInt8} (h : 4 * n ≤ data.length) :
    storeWords32 (loadWords32 n data) = data.take (4 * n) := by
  have hlength : (data.take (4 * n)).length = 4 * n := List.length_take_of_le h
  have hsame : loadWords32 n data = loadWords32 n (data.take (4 * n)) := by
    conv_lhs => rw [← List.take_append_drop (4 * n) data]
    rw [loadWords32, loadWords32, leWords_append hlength]
  rw [hsame, storeWords32_loadWords32 hlength]

/-- The first seventeen bytes of anything are a header. -/
theorem pairHeader_of_take {data : List UInt8} (h : 17 ≤ data.length) :
    pairHeader ((loadWords32 2 data).getD 0 0) ((loadWords32 2 data).getD 1 0) (data.getD 8 0)
      (loadTransform data) = data.take 17 := by
  have htwo : (loadWords32 2 data).length = 2 := by simp [loadWords32]
  have hfour : (loadWords16 4 (data.drop 9)).length = 4 := by simp [loadWords16]
  have hwords : storeWords32 [(loadWords32 2 data).getD 0 0, (loadWords32 2 data).getD 1 0] =
      data.take 8 := by
    obtain ⟨a, b, hab⟩ := List.length_eq_two.1 htwo
    rw [← storeWords32_loadWords32_take (n := 2) (by omega), hab]
    rfl
  have htransform : (loadTransform data).toList.map Int16.toUInt16 =
      loadWords16 4 (data.drop 9) := by
    apply List.ext_getElem (by rw [hfour]; simp)
    intro i hi hi'
    simp [loadTransform]
  have htail : storeWords16 (loadWords16 4 (data.drop 9)) = (data.drop 9).take 8 :=
    storeWords16_loadWords16_take (by rw [List.length_drop]; omega)
  have hbyte : data.getD 8 0 :: (data.drop 9).take 8 = (data.drop 8).take 9 := by
    rw [List.drop_eq_getElem_cons (by omega : 8 < data.length),
      List.getD_eq_getElem _ _ (by omega : 8 < data.length)]
    rfl
  rw [pairHeader, hwords, htransform, htail, hbyte, ← List.take_add]

/-- What is loaded has a header and a table that the format stores. -/
theorem pairLoadPayload_eq_ok {data : List UInt8} {allocated : Bool} {loaded : LoadedPair}
    (h : pairLoadPayload data flags allocated = .ok loaded) :
    hasFlag flags 0x1000 = true ∧ ∃ (count : UInt32) (records : List Candidate),
      count.toNat ≤ 32767 ∧ records.length = count.toNat ∧
      data = pairHeader count loaded.inliers loaded.success loaded.transform ++
        (pairFormat flags).storeAll records ∧
      loaded.count = count.toNat ∧ loaded.pairs = loadedArray count.toNat records := by
  rw [pairLoadPayload] at h
  by_cases hshort : data.length < 17 ∨ !hasFlag flags 0x1000
  · rw [if_pos hshort] at h
    cases h
  rw [if_neg hshort] at h
  extract_lets words count inliers stride at h
  split_ifs at h with hsize hmemory
  simp only [not_or, not_lt, not_not, Bool.not_eq_true, Bool.not_eq_false'] at hshort hsize
  obtain ⟨hlong, hflag⟩ := hshort
  obtain ⟨hcount, -, -, hlength⟩ := hsize
  have htable : (data.drop 17).length =
      (pairFormat flags).width * count := by
    rw [List.length_drop, hlength, Nat.mul_comm]
    exact Nat.add_sub_cancel_left _ _
  rw [loadRecords_eq (pairFormat flags) htable, ok_bind] at h
  obtain rfl := Except.ok.inj h
  refine ⟨hflag, (loadWords32 2 data).getD 0 0, _, hcount,
    (pairFormat flags).loadAll_length _ (data.drop 17), ?_, rfl, rfl⟩
  rw [(pairFormat flags).storeAll_loadAll htable, pairHeader_of_take hlong,
    List.take_append_drop]

/-- A header and the table of the selected pairs. -/
def pairBytes (flags : UInt16) (selected : List Candidate) (inliers : UInt32) (success : UInt8)
    (transform : Vector Int16 4) : List UInt8 :=
  pairHeader (UInt32.ofNat selected.length) inliers success transform ++
    (pairFormat flags).storeAll selected

@[simp]
theorem pairBytes_length (flags : UInt16) (selected : List Candidate) (inliers : UInt32)
    (success : UInt8) (transform : Vector Int16 4) :
    (pairBytes flags selected inliers success transform).length =
      17 + selected.length * pairStride flags := by
  rw [pairBytes, List.length_append, pairHeader_length, (pairFormat flags).storeAll_length,
    Nat.mul_comm]
  rfl

/-- **The writer**, on an array of the announced length. -/
theorem pairPayload_eq (hflag : hasFlag flags 0x1000 = true) {pairs : Option (List Candidate)}
    {count : ℕ} (inliers : UInt32) (success : UInt8) (transform : Vector Int16 4)
    (hcount : count < 2 ^ 32) (hpairs : (pairs.getD []).length = count) (capacity : ℕ) :
    let selected := (pairs.getD []).filter (pairSelected flags)
    let size := 17 + selected.length * pairStride flags
    pairPayloadSize pairs count inliers flags =
      (if hasFlag flags 0x2000 ∧ selected.length ≠ inliers.toNat then .error (.status (-1))
      else .ok size) ∧
    pairPayload pairs count inliers success transform flags capacity =
      if hasFlag flags 0x2000 ∧ selected.length ≠ inliers.toNat then .error (.status (-1))
      else if capacity < size then .error (.status (-1))
      else .ok (pairBytes flags selected inliers success transform) := by
  intro selected size
  have hread : readArray pairs count = .ok (pairs.getD []) := by
    rw [readArray, if_pos hpairs.ge, ← hpairs, List.take_length]
  have hmany : (pairs.getD []).countP (pairSelected flags) = selected.length :=
    List.countP_eq_length_filter
  have hnone : ¬ (count ≠ 0 ∧ pairs.isNone = true) := by
    rintro ⟨hpos, hnone⟩
    rw [Option.isNone_iff_eq_none.1 hnone] at hpairs
    exact hpos hpairs.symm
  have hfits : ¬ (2 ^ 64 - 1 - 17) / pairStride flags < selected.length := by
    refine pairCount_fits (lt_of_le_of_lt ?_ hcount)
    rw [← hpairs]
    exact List.length_filter_le _ _
  have hsize : pairPayloadSize pairs count inliers flags =
      if hasFlag flags 0x2000 ∧ selected.length ≠ inliers.toNat then .error (.status (-1))
      else .ok size := by
    have hchecks : ¬ ((!hasFlag flags 0x1000) = true ∨ 2 ^ 32 - 1 < count ∨
        count ≠ 0 ∧ pairs.isNone = true) := by
      rintro (h | h | h)
      · simp [hflag] at h
      · omega
      · exact hnone h
    rw [pairPayloadSize, if_neg hchecks, hread, ok_bind, hmany]
    simp only [hfits, if_false]
    rfl
  refine ⟨hsize, ?_⟩
  rw [pairPayload, hsize]
  split_ifs with hinliers hsmall
  · rfl
  · rw [ok_bind, if_pos hsmall]
  · rw [ok_bind, if_neg hsmall, hread, ok_bind, hmany]
    rfl

/-- The table of some pairs loads as what the flags tell about them. -/
theorem loadAll_storeAll_reloaded {pairs : List Candidate} (h : ∀ pair ∈ pairs, pair.InWidth) :
    (pairFormat flags).loadAll pairs.length ((pairFormat flags).storeAll pairs) =
      pairs.map (Candidate.reloaded flags) := by
  have hsame : (pairFormat flags).storeAll pairs =
      (pairFormat flags).storeAll (pairs.map (Candidate.reloaded flags)) := by
    unfold Format.storeAll
    rw [List.flatMap_map]
    exact List.flatMap_congr fun pair _ => (Candidate.reloaded_store pair).symm
  have hfits : ∀ pair ∈ pairs.map (Candidate.reloaded flags), (pairFormat flags).Fits pair := by
    intro pair hpair
    obtain ⟨original, horiginal, rfl⟩ := List.mem_map.1 hpair
    obtain ⟨hfirst, hsecond, hdistance, hflag⟩ := h original horiginal
    constructor
    · constructor <;> simp only [Candidate.reloaded] <;> (try split_ifs) <;> omega
    · unfold Candidate.reloaded
      split_ifs <;> rfl
  have := (pairFormat flags).loadAll_storeAll hfits
  rwa [List.length_map, ← hsame] at this

/-- The bytes of pairs load within the limits of the loader. -/
theorem pairLoadPayload_pairBytes (hflag : hasFlag flags 0x1000 = true)
    {selected : List Candidate} (inliers : UInt32) (success : UInt8)
    (transform : Vector Int16 4) (allocated : Bool) (hfew : selected.length < 2 ^ 32)
    (hwidth : ∀ pair ∈ selected, pair.InWidth) :
    pairLoadPayload (pairBytes flags selected inliers success transform) flags allocated =
      if 32767 < selected.length ∨ 2048 < inliers.toNat then .error (.status 140)
      else if selected.length ≠ 0 ∧ !allocated then .error (.status 2)
      else .ok ⟨loadedArray selected.length (selected.map (Candidate.reloaded flags)),
        selected.length, inliers, success, transform⟩ := by
  have hword : (UInt32.ofNat selected.length).toNat = selected.length := by
    rw [UInt32.toNat_ofNat', Nat.mod_eq_of_lt hfew]
  have hzero : UInt32.ofNat selected.length ≠ 0 ↔ selected.length ≠ 0 := by
    rw [ne_eq, ne_eq, ← UInt32.toNat_inj, hword]
    rfl
  have htable : ((pairFormat flags).storeAll selected).length =
      pairStride flags * (UInt32.ofNat selected.length).toNat := by
    rw [hword]
    exact (pairFormat flags).storeAll_length selected
  rw [pairBytes, pairLoadPayload_eq hflag _ _ _ _ allocated htable, hword,
    loadAll_storeAll_reloaded hwidth]
  simp only [hzero]

/-- Writing back what was loaded: the same bytes come out exactly when every record is selected and
a filtered payload counts them all as inliers. -/
theorem pairPayload_rewritten {count : UInt32} {records : List Candidate} {inliers : UInt32}
    {success : UInt8} {transform : Vector Int16 4} (hflag : hasFlag flags 0x1000 = true)
    (hrecords : records.length = count.toNat) {pairs : Option (List Candidate)}
    (hpairs : pairs.getD [] = records) {capacity : ℕ}
    (hcapacity : (pairBytes flags records inliers success transform).length ≤ capacity) :
    pairPayload pairs count.toNat inliers success transform flags capacity =
        .ok (pairBytes flags records inliers success transform) ↔
      (hasFlag flags 0x2000 = true →
        count.toNat = inliers.toNat ∧ ∀ pair ∈ records, pair.flag ≠ 0) := by
  have hwriter := (pairPayload_eq hflag inliers success transform count.toNat_lt
    (by rw [hpairs, hrecords]) capacity).2
  rw [hpairs] at hwriter
  rw [hwriter]
  rw [pairBytes_length] at hcapacity
  constructor
  · intro hok hfilter
    split_ifs at hok with hinliers
    have hlength := congrArg List.length (Except.ok.inj hok)
    rw [pairBytes_length, pairBytes_length, Nat.add_left_cancel_iff] at hlength
    have hall : (records.filter (pairSelected flags)).length = records.length :=
      Nat.eq_of_mul_eq_mul_right (by have := (pairStride_bounds flags).1; omega) hlength
    refine ⟨?_, ?_⟩
    · rw [← hrecords, ← hall]
      exact not_not.1 fun hne => hinliers ⟨hfilter, hne⟩
    · intro pair hpair
      have := List.length_filter_eq_length_iff.1 hall pair hpair
      rw [pairSelected, hfilter] at this
      simpa using this
  · intro hkept
    have hselected : records.filter (pairSelected flags) = records := by
      rw [List.filter_eq_self]
      intro pair hpair
      rw [pairSelected]
      cases hfilter : hasFlag flags 0x2000 with
      | false => rfl
      | true => simpa using (hkept hfilter).2 pair hpair
    have hinliers : ¬ (hasFlag flags 0x2000 = true ∧ records.length ≠ inliers.toNat) := by
      rintro ⟨hfilter, hne⟩
      exact hne (hrecords.trans (hkept hfilter).1)
    rw [hselected, if_neg hinliers, if_neg (not_lt.2 hcapacity)]

end Codec

/-- **The pair codec.**  A list of pairs is written in as many bytes as the size query says; the
loader takes them up to its limits, and gives back of every selected pair what the flags tell.  What
the loader accepts is written back as it was exactly when, in a filtered payload, the header counts
every pair as an inlier and no pair has lost its flag. -/
theorem pairPayload_codec (flags : UInt16) (hflag : hasFlag flags 0x1000 = true) :
    (∀ (pairs : Option (List Candidate)) (count : ℕ) (inliers : UInt32) (success : UInt8)
        (transform : Vector Int16 4),
      count < 2 ^ 32 → (pairs.getD []).length = count →
      (∀ pair ∈ pairs.getD [], pair.InWidth) →
      let selected := (pairs.getD []).filter (pairSelected flags)
      (hasFlag flags 0x2000 = true → selected.length = inliers.toNat) →
        ∃ bytes : List UInt8,
          pairPayloadSize pairs count inliers flags = .ok bytes.length ∧
          (∀ capacity, bytes.length ≤ capacity →
            pairPayload pairs count inliers success transform flags capacity = .ok bytes) ∧
          ∀ allocated, pairLoadPayload bytes flags allocated =
            if 32767 < selected.length ∨ 2048 < inliers.toNat then .error (.status 140)
            else if selected.length ≠ 0 ∧ !allocated then .error (.status 2)
            else .ok ⟨loadedArray selected.length (selected.map (Candidate.reloaded flags)),
              selected.length, inliers, success, transform⟩) ∧
    ∀ data allocated loaded, pairLoadPayload data flags allocated = .ok loaded →
      ∀ capacity, data.length ≤ capacity →
        (pairPayload loaded.pairs loaded.count loaded.inliers loaded.success loaded.transform flags
          capacity = .ok data ↔
        (hasFlag flags 0x2000 = true → loaded.count = loaded.inliers.toNat ∧
          ∀ pair ∈ loaded.pairs.getD [], pair.flag ≠ 0)) := by
  constructor
  · intro pairs count inliers success transform hcount hpairs hwidth selected hinliers
    have hfew : selected.length < 2 ^ 32 := by
      refine lt_of_le_of_lt ?_ hcount
      rw [← hpairs]
      exact List.length_filter_le _ _
    have hfiltered : ¬ (hasFlag flags 0x2000 = true ∧ selected.length ≠ inliers.toNat) := by
      rintro ⟨hfilter, hne⟩
      exact hne (hinliers hfilter)
    have hwriter := pairPayload_eq hflag inliers success transform hcount hpairs
    refine ⟨pairBytes flags selected inliers success transform, ?_, ?_, ?_⟩
    · rw [(hwriter 0).1, if_neg hfiltered, pairBytes_length]
    · intro capacity hcapacity
      rw [pairBytes_length] at hcapacity
      rw [(hwriter capacity).2, if_neg hfiltered, if_neg (not_lt.2 hcapacity)]
    · intro allocated
      exact pairLoadPayload_pairBytes hflag inliers success transform allocated hfew
        fun pair hpair => hwidth pair (List.mem_of_mem_filter hpair)
  · intro data allocated loaded hload capacity hcapacity
    obtain ⟨-, count, records, -, hrecords, hdata, hloaded, hpairs⟩ := pairLoadPayload_eq_ok hload
    have hgetD : loaded.pairs.getD [] = records := by
      rw [hpairs]
      exact loadedArray_getD fun h => List.length_eq_zero_iff.1 (hrecords.trans h)
    have hbytes : data = pairBytes flags records loaded.inliers loaded.success
        loaded.transform := by
      rw [hdata, pairBytes, hrecords, UInt32.ofNat_toNat]
    rw [hbytes] at hcapacity ⊢
    rw [hloaded, hgetD]
    exact pairPayload_rewritten hflag hrecords hgetD hcapacity

/-- One kept and one dropped pair. -/
def keptAndDropped : List Candidate := [⟨3, 8, 20, 1⟩, ⟨5, 2, 31, 0⟩]

theorem pairPayload_codec_filtered :
    (∃ bytes : List UInt8,
      pairPayloadSize (some keptAndDropped) 2 1 0x7000 = .ok bytes.length ∧
      pairLoadPayload bytes 0x7000 true =
        .ok ⟨some [⟨3, 8, 20, 1⟩], 1, 1, 1, Vector.ofFn fun _ => 0⟩) ∧
    pairPayload none 0 0 1 (Vector.ofFn fun _ => 0) 0x1000 17 =
      .ok [0, 0, 0, 0, 0, 0, 0, 0, 1, 0, 0, 0, 0, 0, 0, 0, 0] := by
  constructor
  · obtain ⟨bytes, hsize, -, hload⟩ := (pairPayload_codec 0x7000 (by decide)).1
      (some keptAndDropped) 2 1 1 (Vector.ofFn fun _ => 0) (by decide) rfl
      (by
        intro pair hpair
        simp only [keptAndDropped, Option.getD_some, List.mem_cons, List.not_mem_nil,
          or_false] at hpair
        rcases hpair with rfl | rfl <;> constructor <;> decide)
      (fun _ => by decide)
    exact ⟨bytes, hsize, hload true⟩
  · exact ((pairPayload_codec 0x1000 (by decide)).2
      [0, 0, 0, 0, 0, 0, 0, 0, 1, 0, 0, 0, 0, 0, 0, 0, 0] false
      ⟨none, 0, 0, 1, Vector.ofFn fun _ => 0⟩ (by decide) 17 (by decide)).2 (by decide)

/-! ### Filtering and compacting -/

/-- The flags without the one that filters. -/
def unfiltered (flags : UInt16) : UInt16 := flags &&& 0xdfff

theorem hasFlag_unfiltered (flags : UInt16) {mask : UInt16} (h : 0xdfff &&& mask = mask) :
    hasFlag (unfiltered flags) mask = hasFlag flags mask := by
  rw [hasFlag, hasFlag, unfiltered, UInt16.and_assoc, h]

theorem hasFlag_unfiltered_filter (flags : UInt16) : hasFlag (unfiltered flags) 0x2000 = false := by
  have hclear : (0xdfff : UInt16) &&& 0x2000 = 0 := by decide
  rw [hasFlag, unfiltered, UInt16.and_assoc, hclear, UInt16.and_zero]
  rfl

section Compacting

variable {pairs : Option (List Candidate)} {count : ℕ}

/-- **Compacting** keeps the flagged pairs in order, if they are as many as announced. -/
theorem compactCandidates_eq (hcount : count < 2 ^ 32) (hpairs : (pairs.getD []).length = count)
    (finalInliers : ℕ) :
    compactCandidates pairs count finalInliers true true =
      let kept := (pairs.getD []).filter fun pair => pair.flag != 0
      if kept.length ≠ finalInliers then .error (.status (-1))
      else .ok (loadedArray kept.length kept, kept.length) := by
  have hread : readArray pairs count = .ok (pairs.getD []) := by
    rw [readArray, if_pos hpairs.ge, ← hpairs, List.take_length]
  have hchecks : ¬ ((count ≠ 0 ∧ pairs.isNone = true) ∨ (2 ^ 64 - 1) / 8 < count) := by
    rintro (⟨hpos, hnone⟩ | hmany)
    · rw [Option.isNone_iff_eq_none.1 hnone] at hpairs
      exact hpos hpairs.symm
    · omega
  rw [compactCandidates, if_neg hchecks, hread, ok_bind]
  simp only [if_true, true_and, Bool.not_true, Bool.false_eq_true, and_false, if_false,
    Bool.false_or, List.countP_eq_length_filter]

/-- **Filtering while writing is compacting before**: the bytes of a filtered payload are those that
the same flags without the filter give for the compacted list. -/
theorem pairPayload_compacted {flags : UInt16} (hflag : hasFlag flags 0x1000 = true)
    (hfilter : hasFlag flags 0x2000 = true) (hcount : count < 2 ^ 32)
    (hpairs : (pairs.getD []).length = count) (inliers : UInt32) (success : UInt8)
    (transform : Vector Int16 4) (capacity : ℕ) :
    pairPayload pairs count inliers success transform flags capacity =
      compactCandidates pairs count inliers.toNat true true >>= fun kept =>
        pairPayload kept.1 kept.2 inliers success transform (unfiltered flags) capacity := by
  have hselect : pairSelected flags = fun pair : Candidate => pair.flag != 0 := by
    funext pair
    rw [pairSelected, hfilter, Bool.not_true, Bool.false_or]
  have hwriter := (pairPayload_eq hflag inliers success transform hcount hpairs capacity).2
  rw [hselect, hfilter] at hwriter
  rw [hwriter, compactCandidates_eq hcount hpairs]
  set kept := (pairs.getD []).filter fun pair => pair.flag != 0 with hkept
  simp only [true_and]
  by_cases hinliers : kept.length ≠ inliers.toNat
  · rw [if_pos hinliers, if_pos hinliers, error_bind]
  have hfew : kept.length < 2 ^ 32 := by
    refine lt_of_le_of_lt ?_ hcount
    rw [← hpairs]
    exact List.length_filter_le _ _
  have hgetD : (loadedArray kept.length kept).getD [] = kept :=
    loadedArray_getD fun h => List.length_eq_zero_iff.1 h
  have hall : kept.filter (pairSelected (unfiltered flags)) = kept := by
    rw [List.filter_eq_self]
    intro pair _
    rw [pairSelected, hasFlag_unfiltered_filter, Bool.not_false, Bool.true_or]
  have hstride : pairStride (unfiltered flags) = pairStride flags := by
    rw [pairStride, pairStride, hasFlag_unfiltered flags (by decide),
      hasFlag_unfiltered flags (by decide)]
  have hbytes : pairBytes (unfiltered flags) kept inliers success transform =
      pairBytes flags kept inliers success transform := by
    have hstore : Candidate.store (unfiltered flags) = Candidate.store flags := by
      funext pair
      rw [Candidate.store, Candidate.store, Candidate.words, Candidate.words,
        hasFlag_unfiltered flags (by decide), hasFlag_unfiltered flags (by decide)]
    rw [pairBytes, pairBytes, Format.storeAll, Format.storeAll]
    exact congrArg (fun store => _ ++ kept.flatMap store) hstore
  have hcompacted := (pairPayload_eq
    ((hasFlag_unfiltered flags (by decide)).trans hflag) inliers success transform hfew
    (by rw [hgetD]) capacity).2
  rw [hgetD, hall, hasFlag_unfiltered_filter, hstride, hbytes] at hcompacted
  rw [if_neg hinliers, if_neg hinliers, ok_bind, hcompacted]
  simp

end Compacting

theorem pairPayload_compacted_kept :
    pairPayload (some keptAndDropped) 2 1 1 (Vector.ofFn fun _ => 0) 0x7000 64 =
      compactCandidates (some keptAndDropped) 2 1 true true >>= fun kept =>
        pairPayload kept.1 kept.2 1 1 (Vector.ofFn fun _ => 0) (unfiltered 0x7000) 64 :=
  pairPayload_compacted (by decide) (by decide) (by decide) rfl 1 1 _ 64

end Fpc
