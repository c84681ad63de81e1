/-
**The group payload.**

The groups of the captures of a template are stored as a table: the number of captures, the number
of groups, and for every capture its group, its root and the nine words of its transform.  The words
of a transform are the bits of floating-point numbers, which are carried over untouched.

Main definitions:

* `Fpc.groupPayloadSize`, `Fpc.groupPayload` — the size query and the writer;
* `Fpc.groupLoadPayload` — the loader;
* `Fpc.groupFormat` — the record of one capture.

Main results:

* `Fpc.groupPayload_eq`, `Fpc.groupLoadPayload_eq` — either routine in terms of the record format;
* `Fpc.groupPayload_codec` — **whatever is written loads back, and whatever loads is written back**.
-/

import FpcReader.Lib.Records
import FpcReader.Native.Canonical

set_option relaxedAutoImplicit false
set_option autoImplicit false

namespace Fpc

open Bytes Fallible Records

/-! ### One record -/

/-- What the payload has for one capture. -/
structure GroupRecord where
  group : Int16
  root : UInt16
  /-- The bits of the nine coefficients of a transform. -/
  matrix : List UInt32
  deriving DecidableEq, Repr

/-- The bytes of a record. -/
def GroupRecord.store (record : GroupRecord) : List UInt8 :=
  storeWords16 [record.group.toUInt16, record.root] ++
    storeWords32 ((List.range 9).map fun j => record.matrix.getD j 0)

/-- The record of forty bytes. -/
def GroupRecord.load (bytes : List UInt8) : GroupRecord :=
  let words := loadWords16 2 (bytes.take 4)
  ⟨(words.getD 0 0).toInt16, words.getD 1 0, loadWords32 9 (bytes.drop 4)⟩

theorem map_range_getD {α : Type} {n : ℕ} {l : List α} (d : α) (h : l.length = n) :
    ((List.range n).map fun j => l.getD j d) = l := by
  subst h
  apply List.ext_getElem
  · simp
  · intro i hi hi'
    simp [hi']

/-- The records of the table; those with nine words come back. -/
def groupFormat : Format GroupRecord where
  width := 40
  store := GroupRecord.store
  load := GroupRecord.load
  Fits record := record.matrix.length = 9
  store_length record := by
    simp [GroupRecord.store, storeWords16_length, storeWords32_length]
  load_store := by
    rintro ⟨group, root, matrix⟩ hmatrix
    have hlength : (storeWords16 [group.toUInt16, root]).length = 4 := storeWords16_length _
    have hwords : loadWords16 2 (storeWords16 [group.toUInt16, root]) = [group.toUInt16, root] :=
      loadWords16_storeWords16 rfl
    rw [GroupRecord.store, GroupRecord.load, map_range_getD 0 hmatrix]
    simp only [List.take_left' hlength, List.drop_left' hlength, hwords,
      loadWords32_storeWords32 hmatrix]
    rfl
  store_load := by
    intro bytes hbytes
    have hhead : (bytes.take 4).length = 2 * 2 := by
      rw [List.length_take, hbytes]
      rfl
    have htail : (bytes.drop 4).length = 4 * 9 := by
      rw [List.length_drop, hbytes]
    have htwo : (loadWords16 2 (bytes.take 4)).length = 2 := by simp [loadWords16]
    have hnine : (loadWords32 9 (bytes.drop 4)).length = 9 := by simp [loadWords32]
    obtain ⟨a, b, hab⟩ := List.length_eq_two.1 htwo
    have hstored := storeWords16_loadWords16 hhead
    rw [hab] at hstored
    rw [GroupRecord.store, GroupRecord.load, map_range_getD 0 hnine, storeWords32_loadWords32 htail]
    simp only [hab, List.getD_cons_zero, List.getD_cons_succ]
    have hcast : a.toInt16.toUInt16 = a := rfl
    rw [hcast, hstored, List.take_append_drop]

/-! ### Writing -/

/-- The size query. -/
def groupPayloadSize (count : ℕ) (groups : Option (List Int16)) (roots : Option (List UInt16))
    (matrixBits : Option (List UInt32)) : Except Fault ℕ :=
  if 32767 < count ∨ (count ≠ 0 ∧ (groups.isNone ∨ roots.isNone ∨ matrixBits.isNone)) then
    .error (.status (-1))
  else .ok (4 + 40 * count)

/-- The records of the arrays. -/
def groupRecords (count : ℕ) (groups : List Int16) (roots : List UInt16)
    (matrixBits : List UInt32) : List GroupRecord :=
  (List.range count).map fun i =>
    ⟨groups.getD i 0, roots.getD i 0, (List.range 9).map fun j => matrixBits.getD (9 * i + j) 0⟩

/-- The writer, into a buffer of `capacity` bytes. -/
def groupPayload (count : ℕ) (groupCount : Int16) (groups : Option (List Int16))
    (roots : Option (List UInt16)) (matrixBits : Option (List UInt32)) (capacity : ℕ) :
    Except Fault (List UInt8) :=
  groupPayloadSize count groups roots matrixBits >>= fun size =>
    if capacity < size then .error (.status (-1))
    else
      readArray groups count >>= fun groups =>
        readArray roots count >>= fun roots =>
          readArray matrixBits (9 * count) >>= fun matrixBits =>
            .ok (storeWords16 [UInt16.ofNat count, groupCount.toUInt16] ++
              groupFormat.storeAll (groupRecords count groups roots matrixBits))

/-! ### Loading -/

/-- Loaded groups; the arrays live in one allocation, which is there when there is a capture. -/
structure LoadedGroups where
  count : ℕ
  groupCount : Int16
  groups : Option (List Int16)
  roots : Option (List UInt16)
  matrixBits : Option (List UInt32)
  deriving DecidableEq, Repr

/-- The loop over the records of a table, each of which is read where the one before ended. -/
def loadRecords {α : Type} (format : Format α) : ℕ → List UInt8 → Except Fault (List α)
  | 0, _ => .ok []
  | n + 1, data =>
      readBytes format.width data >>= fun (bytes, data) =>
        loadRecords format n data >>= fun records => .ok (format.load bytes :: records)

/-- The arrays that the loop fills. -/
def LoadedGroups.ofRecords (groupCount : Int16) (records : List GroupRecord) : LoadedGroups where
  count := records.length
  groupCount := groupCount
  groups := loadedArray records.length (records.map GroupRecord.group)
  roots := loadedArray records.length (records.map GroupRecord.root)
  matrixBits := loadedArray records.length (records.flatMap GroupRecord.matrix)

/-- The loader; `allocated` tells whether memory could be had. -/
def groupLoadPayload (data : List UInt8) (allocated : Bool) : Except Fault LoadedGroups :=
  if data.length < 4 then .error (.status 140)
  else
    loadLe16 data 0 >>= fun count =>
      loadLe16 data 2 >>= fun groupCount =>
        if 32767 < count.toNat ∨ data.length ≠ 4 + 40 * count.toNat then .error (.status 140)
        else if count ≠ 0 ∧ !allocated then .error (.status 2)
        else
          loadRecords groupFormat count.toNat (data.drop 4) >>= fun records =>
            .ok (LoadedGroups.ofRecords groupCount.toInt16 records)

/-! ### Both in terms of the format -/

/-- A table of the right size is read to its end. -/
theorem loadRecords_eq {α : Type} (format : Format α) {n : ℕ} {data : List UInt8}
    (h : data.length = format.width * n) :
    loadRecords format n data = .ok (format.loadAll n data) := by
  induction n generalizing data with
  | zero => rfl
  | succ n ih =>
      rw [Nat.mul_succ] at h
      have hread : readBytes format.width data =
          .ok (data.take format.width, data.drop format.width) := by
        rw [readBytes, cut, if_pos (by omega)]
      have hrest : (data.drop format.width).length = format.width * n := by
        rw [List.length_drop]
        omega
      rw [loadRecords, hread, ok_bind]
      simp only [ih hrest, ok_bind]
      rfl

/-- **The loader**: four bytes of header, then a table that fills the rest exactly. -/
theorem groupLoadPayload_eq (count groupCount : UInt16) (allocated : Bool) {table : List UInt8}
    (hcount : count.toNat ≤ 32767) (htable : table.length = 40 * count.toNat) :
    groupLoadPayload (storeWords16 [count, groupCount] ++ table) allocated =
      if count ≠ 0 ∧ !allocated then .error (.status 2)
      else .ok (LoadedGroups.ofRecords groupCount.toInt16
        (groupFormat.loadAll count.toNat table)) := by
  have hheader : (storeWords16 [count, groupCount]).length = 4 := storeWords16_length _
  have hlength : (storeWords16 [count, groupCount] ++ table).length = 4 + 40 * count.toNat := by
    rw [List.length_append, hheader, htable]
  have hfirst : loadLe16 (storeWords16 [count, groupCount] ++ table) 0 = .ok count :=
    loadLe16_append [] count (storeLe16 groupCount ++ [] ++ table)
  have hsecond : loadLe16 (storeWords16 [count, groupCount] ++ table) 2 = .ok groupCount :=
    loadLe16_append (storeLe16 count) groupCount table
  rw [groupLoadPayload, if_neg (by omega), hfirst, ok_bind, hsecond, ok_bind, if_neg (by omega),
    List.drop_left' hheader, loadRecords_eq groupFormat htable, ok_bind]

/-- What is loaded has a header and a table that the format stores. -/
theorem groupLoadPayload_eq_ok {data : List UInt8} {allocated : Bool} {loaded : LoadedGroups}
    (h : groupLoadPayload data allocated = .ok loaded) :
    ∃ (count groupCount : UInt16) (records : List GroupRecord),
      count.toNat ≤ 32767 ∧ records.length = count.toNat ∧
      (∀ record ∈ records, record.matrix.length = 9) ∧
      data = storeWords16 [count, groupCount] ++ groupFormat.storeAll records ∧
      loaded = LoadedGroups.ofRecords groupCount.toInt16 records := by
  rw [groupLoadPayload] at h
  by_cases hshort : data.length < 4
  · rw [if_pos hshort] at h
    cases h
  rw [if_neg hshort, bind_eq_ok] at h
  obtain ⟨count, hcount, h⟩ := h
  rw [bind_eq_ok] at h
  obtain ⟨groupCount, hgroups, h⟩ := h
  split_ifs at h with hsize hmemory
  rw [not_or, not_lt, not_not] at hsize
  have htable : (data.drop 4).length = 40 * count.toNat := by
    rw [List.length_drop]
    omega
  rw [loadRecords_eq groupFormat htable, ok_bind] at h
  refine ⟨count, groupCount, groupFormat.loadAll count.toNat (data.drop 4), hsize.1,
    groupFormat.loadAll_length _ _, ?_, ?_, (Except.ok.inj h).symm⟩
  · exact groupFormat.forall_loadAll (p := fun record => record.matrix.length = 9)
      (fun bytes => by simp [groupFormat, GroupRecord.load, loadWords32]) _ _
  · have hheader : data.take 4 = storeWords16 [count, groupCount] := by
      have hfirst := (loadLe16_eq_ok hcount).2
      have hsecond := (loadLe16_eq_ok hgroups).2
      have hsplit : data.take 4 = data.take 2 ++ (data.drop 2).take 2 := by
        rw [← List.take_add]
      rw [List.drop_zero] at hfirst
      rw [hsplit, hfirst, hsecond]
      simp [storeWords16]
    rw [groupFormat.storeAll_loadAll htable, ← hheader, List.take_append_drop]

/-- A header and the table of the arrays' records. -/
def groupBytes (count : ℕ) (groupCount : Int16) (groups : List Int16) (roots : List UInt16)
    (matrixBits : List UInt32) : List UInt8 :=
  storeWords16 [UInt16.ofNat count, groupCount.toUInt16] ++
    groupFormat.storeAll (groupRecords count groups roots matrixBits)

@[simp]
theorem groupRecords_length (count : ℕ) (groups : List Int16) (roots : List UInt16)
    (matrixBits : List UInt32) : (groupRecords count groups roots matrixBits).length = count := by
  simp [groupRecords]

@[simp]
theorem groupBytes_length (count : ℕ) (groupCount : Int16) (groups : List Int16)
    (roots : List UInt16) (matrixBits : List UInt32) :
    (groupBytes count groupCount groups roots matrixBits).length = 4 + 40 * count := by
  rw [groupBytes, List.length_append, storeWords16_length, groupFormat.storeAll_length,
    groupRecords_length]
  rfl

section Writer

variable {count : ℕ} {groups : Option (List Int16)} {roots : Option (List UInt16)}
  {matrixBits : Option (List UInt32)}

/-- Arrays of the announced length pass the checks of the size query. -/
theorem groupPayloadSize_eq (hcount : count ≤ 32767) (hgroups : (groups.getD []).length = count)
    (hroots : (roots.getD []).length = count) (hmatrix : (matrixBits.getD []).length = 9 * count) :
    groupPayloadSize count groups roots matrixBits = .ok (4 + 40 * count) := by
  have hnone : ∀ {α : Type} {array : Option (List α)}, array.isNone = true →
      (array.getD []).length = 0 := by
    intro α array h
    rw [Option.isNone_iff_eq_none.1 h]
    rfl
  refine if_neg ?_
  rintro (hmany | ⟨hpos, h | h | h⟩)
  · omega
  · exact hpos (hgroups.symm.trans (hnone h))
  · exact hpos (hroots.symm.trans (hnone h))
  · have := hnone h
    omega

/-- **The writer**, on arrays of the announced length. -/
theorem groupPayload_eq (groupCount : Int16) (hcount : count ≤ 32767)
    (hgroups : (groups.getD []).length = count) (hroots : (roots.getD []).length = count)
    (hmatrix : (matrixBits.getD []).length = 9 * count) {capacity : ℕ}
    (hcapacity : 4 + 40 * count ≤ capacity) :
    groupPayload count groupCount groups roots matrixBits capacity =
      .ok (groupBytes count groupCount (groups.getD []) (roots.getD []) (matrixBits.getD [])) := by
  have hread : ∀ {α : Type} {array : Option (List α)} {n : ℕ}, (array.getD []).length = n →
      readArray array n = .ok (array.getD []) := by
    intro α array n hlength
    rw [readArray, if_pos hlength.ge, ← hlength, List.take_length]
  rw [groupPayload, groupPayloadSize_eq hcount hgroups hroots hmatrix, ok_bind,
    if_neg (by omega), hread hgroups, ok_bind, hread hroots, ok_bind, hread hmatrix, ok_bind,
    groupBytes]

end Writer

/-! ### Arrays and records -/

section Arrays

variable {records : List GroupRecord}

theorem matrixBits_length (h : ∀ record ∈ records, record.matrix.length = 9) :
    (records.flatMap GroupRecord.matrix).length = 9 * records.length := by
  induction records with
  | nil => rfl
  | cons record records ih =>
      rw [List.flatMap_cons, List.length_append, h record (by simp),
        ih fun r hr => h r (by simp [hr]), List.length_cons]
      omega

/-- Word `j` of transform `i`. -/
theorem matrixBits_getD (h : ∀ record ∈ records, record.matrix.length = 9) {i j : ℕ}
    (hi : i < records.length) (hj : j < 9) :
    (records.flatMap GroupRecord.matrix).getD (9 * i + j) 0 = (records[i].matrix).getD j 0 := by
  induction records generalizing i with
  | nil => simp at hi
  | cons record records ih =>
      have hnine := h record (by simp)
      rw [List.flatMap_cons, List.getD_eq_getElem?_getD]
      cases i with
      | zero =>
          rw [Nat.mul_zero, Nat.zero_add, List.getElem?_append_left (by omega),
            List.getElem_cons_zero, List.getD_eq_getElem?_getD]
      | succ i =>
          rw [List.length_cons, Nat.add_lt_add_iff_right] at hi
          have hplace : 9 * (i + 1) + j - record.matrix.length = 9 * i + j := by omega
          rw [List.getElem?_append_right (by omega), hplace, ← List.getD_eq_getElem?_getD,
            ih (fun r hr => h r (by simp [hr])) hi, List.getElem_cons_succ]

/-- The records of the arrays that records fill. -/
theorem groupRecords_ofRecords (h : ∀ record ∈ records, record.matrix.length = 9) :
    groupRecords records.length (records.map GroupRecord.group) (records.map GroupRecord.root)
      (records.flatMap GroupRecord.matrix) = records := by
  apply List.ext_getElem
  · simp [groupRecords]
  · intro i hi hi'
    have hmatrix : ((List.range 9).map fun j =>
        (records.flatMap GroupRecord.matrix).getD (9 * i + j) 0) = records[i].matrix := by
      rw [← map_range_getD 0 (h records[i] (List.getElem_mem hi'))]
      apply List.map_congr_left
      intro j hj
      exact matrixBits_getD h hi' (List.mem_range.1 hj)
    simp only [groupRecords, List.getElem_map, List.getElem_range, hmatrix]
    simp [hi']

end Arrays

section Codec

variable {count : ℕ} {groups : List Int16} {roots : List UInt16} {matrixBits : List UInt32}

theorem groupRecords_matrix :
    ∀ record ∈ groupRecords count groups roots matrixBits, record.matrix.length = 9 := by
  intro record hrecord
  obtain ⟨i, -, rfl⟩ := List.mem_map.1 hrecord
  simp

/-- The arrays of the records of arrays. -/
theorem ofRecords_groupRecords (groupCount : Int16) (hgroups : groups.length = count)
    (hroots : roots.length = count) (hmatrix : matrixBits.length = 9 * count) :
    LoadedGroups.ofRecords groupCount (groupRecords count groups roots matrixBits) =
      ⟨count, groupCount, loadedArray count groups, loadedArray count roots,
        loadedArray count matrixBits⟩ := by
  have hlength := groupRecords_length count groups roots matrixBits
  have hg : (groupRecords count groups roots matrixBits).map GroupRecord.group = groups := by
    rw [groupRecords, List.map_map]
    exact map_range_getD 0 hgroups
  have hr : (groupRecords count groups roots matrixBits).map GroupRecord.root = roots := by
    rw [groupRecords, List.map_map]
    exact map_range_getD 0 hroots
  have hm : (groupRecords count groups roots matrixBits).flatMap GroupRecord.matrix =
      matrixBits := by
    have hflat : ((groupRecords count groups roots matrixBits).flatMap
        GroupRecord.matrix).length = _ := matrixBits_length groupRecords_matrix
    rw [hlength] at hflat
    apply List.ext_getElem (by rw [hflat, hmatrix])
    intro k hk hk'
    -- word `k` belongs to record `k / 9`
    have hrecord : k / 9 < (groupRecords count groups roots matrixBits).length := by omega
    have hword := matrixBits_getD groupRecords_matrix hrecord (Nat.mod_lt k (by omega : 0 < 9))
    rw [Nat.div_add_mod] at hword
    have hread : (groupRecords count groups roots matrixBits)[k / 9].matrix.getD (k % 9) 0 =
        matrixBits.getD k 0 := by
      have hmod : k % 9 < 9 := Nat.mod_lt k (by omega)
      simp only [groupRecords, List.getElem_map, List.getElem_range]
      rw [List.getD_eq_getElem?_getD, List.getElem?_map, List.getElem?_range hmod]
      simp only [Option.map_some, Option.getD_some, Nat.div_add_mod]
    rw [hread] at hword
    rwa [List.getD_eq_getElem _ _ hk, List.getD_eq_getElem _ _ hk'] at hword
  rw [LoadedGroups.ofRecords, hlength, hg, hr, hm]

/-- What is written loads, unless memory is refused. -/
theorem groupLoadPayload_groupBytes (groupCount : Int16) (allocated : Bool) (hcount : count ≤ 32767)
    (hgroups : groups.length = count) (hroots : roots.length = count)
    (hmatrix : matrixBits.length = 9 * count) :
    groupLoadPayload (groupBytes count groupCount groups roots matrixBits) allocated =
      if count ≠ 0 ∧ !allocated then .error (.status 2)
      else .ok ⟨count, groupCount, loadedArray count groups, loadedArray count roots,
        loadedArray count matrixBits⟩ := by
  have hword : (UInt16.ofNat count).toNat = count := by
    rw [UInt16.toNat_ofNat', Nat.mod_eq_of_lt (by omega)]
  have hzero : UInt16.ofNat count ≠ 0 ↔ count ≠ 0 := by
    rw [Ne, ← UInt16.toNat_inj, hword]
    rfl
  have htable : (groupFormat.storeAll (groupRecords count groups roots matrixBits)).length =
      40 * count := by
    rw [groupFormat.storeAll_length, groupRecords_length]
    rfl
  have hloaded : groupFormat.loadAll count
      (groupFormat.storeAll (groupRecords count groups roots matrixBits)) =
        groupRecords count groups roots matrixBits := by
    conv_lhs => arg 2; rw [← groupRecords_length count groups roots matrixBits]
    exact groupFormat.loadAll_storeAll groupRecords_matrix
  rw [groupBytes, groupLoadPayload_eq _ _ allocated (by omega) (by rw [htable, hword]), hword,
    hloaded, ofRecords_groupRecords _ hgroups hroots hmatrix]
  simp only [hzero]
  rfl

end Codec

/-- The arrays that records fill have the announced lengths, and the writer makes the bytes of the
records of them. -/
theorem groupPayload_ofRecords (count groupCount : UInt16) {records : List GroupRecord}
    (hcount : count.toNat ≤ 32767) (hrecords : records.length = count.toNat)
    (hnine : ∀ record ∈ records, record.matrix.length = 9) {capacity : ℕ}
    (hcapacity : 4 + 40 * count.toNat ≤ capacity) :
    let loaded := LoadedGroups.ofRecords groupCount.toInt16 records
    groupPayload loaded.count loaded.groupCount loaded.groups loaded.roots loaded.matrixBits
      capacity = .ok (storeWords16 [count, groupCount] ++ groupFormat.storeAll records) := by
  intro loaded
  have hempty : records.length = 0 → records = [] := List.length_eq_zero_iff.1
  have hgroups : loaded.groups.getD [] = records.map GroupRecord.group :=
    loadedArray_getD fun h => by rw [hempty h]; rfl
  have hroots : loaded.roots.getD [] = records.map GroupRecord.root :=
    loadedArray_getD fun h => by rw [hempty h]; rfl
  have hmatrix : loaded.matrixBits.getD [] = records.flatMap GroupRecord.matrix :=
    loadedArray_getD fun h => by rw [hempty h]; rfl
  have hcast : loaded.groupCount.toUInt16 = groupCount := rfl
  have hloaded : loaded.count = records.length := rfl
  rw [groupPayload_eq loaded.groupCount (by omega) (by rw [hgroups, List.length_map, hloaded])
    (by rw [hroots, List.length_map, hloaded]) (by rw [hmatrix, matrixBits_length hnine, hloaded])
    (by omega), hgroups, hroots, hmatrix, groupBytes, hloaded, groupRecords_ofRecords hnine,
    hrecords, UInt16.ofNat_toNat, hcast]

/-- **The group codec.**  Arrays of the announced lengths are written in as many bytes as the size
query says, and load back unless memory is refused; and the loader accepts no bytes but those that
the writer makes of what was loaded. -/
theorem groupPayload_codec :
    (∀ (count : ℕ) (groupCount : Int16) (groups : Option (List Int16))
        (roots : Option (List UInt16)) (matrixBits : Option (List UInt32)),
      count ≤ 32767 → (groups.getD []).length = count → (roots.getD []).length = count →
      (matrixBits.getD []).length = 9 * count →
        ∃ bytes : List UInt8,
          groupPayloadSize count groups roots matrixBits = .ok bytes.length ∧
          (∀ capacity, bytes.length ≤ capacity →
            groupPayload count groupCount groups roots matrixBits capacity = .ok bytes) ∧
          ∀ allocated, groupLoadPayload bytes allocated =
            if count ≠ 0 ∧ !allocated then .error (.status 2)
            else .ok ⟨count, groupCount, loadedArray count (groups.getD []),
              loadedArray count (roots.getD []), loadedArray count (matrixBits.getD [])⟩) ∧
    ∀ data allocated loaded, groupLoadPayload data allocated = .ok loaded →
      ∀ capacity, data.length ≤ capacity →
        groupPayload loaded.count loaded.groupCount loaded.groups loaded.roots loaded.matrixBits
          capacity = .ok data := by
  constructor
  · intro count groupCount groups roots matrixBits hcount hgroups hroots hmatrix
    refine ⟨groupBytes count groupCount (groups.getD []) (roots.getD []) (matrixBits.getD []),
      ?_, ?_, ?_⟩
    · rw [groupBytes_length]
      exact groupPayloadSize_eq hcount hgroups hroots hmatrix
    · intro capacity hcapacity
      rw [groupBytes_length] at hcapacity
      exact groupPayload_eq groupCount hcount hgroups hroots hmatrix hcapacity
    · intro allocated
      exact groupLoadPayload_groupBytes groupCount allocated hcount hgroups hroots hmatrix
  · intro data allocated loaded hload capacity hcapacity
    obtain ⟨count, groupCount, records, hcount, hrecords, hnine, rfl, rfl⟩ :=
      groupLoadPayload_eq_ok hload
    have hlength : (storeWords16 [count, groupCount] ++ groupFormat.storeAll records).length =
        4 + 40 * count.toNat := by
      rw [List.length_append, storeWords16_length, groupFormat.storeAll_length, hrecords]
      rfl
    rw [hlength] at hcapacity
    exact groupPayload_ofRecords count groupCount hcount hrecords hnine hcapacity

/-- The arrays of one capture. -/
def soloMatrix : List UInt32 := [0x3f800000, 0, 0, 0, 0x3f800000, 0, 0, 0, 0x3f800000]

theorem groupPayload_codec_solo :
    (∃ bytes : List UInt8,
      groupPayloadSize 1 (some [0]) (some [7]) (some soloMatrix) = .ok bytes.length ∧
      groupLoadPayload bytes true = .ok ⟨1, 1, some [0], some [7], some soloMatrix⟩) ∧
    groupPayload 0 2 none none none 4 = .ok [0, 0, 2, 0] := by
  obtain ⟨bytes, hsize, -, hload⟩ := groupPayload_codec.1 1 1 (some [0]) (some [7])
    (some soloMatrix) (by decide) rfl rfl rfl
  refine ⟨⟨bytes, hsize, hload true⟩, ?_⟩
  exact groupPayload_codec.2 [0, 0, 2, 0] false ⟨0, 2, none, none, none⟩ (by decide) 4 (by decide)

end Fpc
