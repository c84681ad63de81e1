/-
**Checked blocks.**

A serialized template is a header followed by blocks: a tag, a length, a payload and the CRC-32 of
everything before it.  Reading goes through bounds: a load beyond the bytes at hand is a fault of
its own, distinct from the status codes the routines return.

Main definitions:

* `Fpc.Fault` — a nonzero status, or a read outside the data;
* `Fpc.crc32` — the reflected CRC-32, bit by bit;
* `Fpc.templateValidate` — the framing check of a whole template;
* `Fpc.checkedBlock`, `Fpc.frameBlock` — checking one block, and writing one.

Main results:

* `Fpc.checkedBlock_frameBlock` — **a written block passes the check** and has its length;
* `Fpc.templateValidate_frames` — a header with a list of written blocks is a valid template.
-/

import FpcReader.Lib.Bytes
import FpcReader.Lib.Fallible
import FpcReader.Native.Views

set_option relaxedAutoImplicit false
set_option autoImplicit false

namespace Fpc

open Bytes Fallible

/-! ### Faults -/

/-- What a routine reports instead of a result. -/
inductive Fault where
  /-- A nonzero status code. -/
  | status (code : ℤ)
  /-- A read outside the bytes at hand, which the source would not notice. -/
  | outOfBounds
  deriving DecidableEq, Repr

/-! ### Loads -/

/-- The 32-bit word at an offset. -/
def loadLe32 (data : List UInt8) (offset : ℕ) : Except Fault (BitVec 32) :=
  if offset + 4 ≤ data.length then .ok (le32 (data.drop offset)) else .error .outOfBounds

/-- The 16-bit word at an offset. -/
def loadLe16 (data : List UInt8) (offset : ℕ) : Except Fault UInt16 :=
  if offset + 2 ≤ data.length then .ok (le16 (data.drop offset)) else .error .outOfBounds

/-- The bytes of a 32-bit word, as `store_le32` writes them. -/
def storeLe32 (value : ℕ) : List UInt8 := leBytes 4 value

/-- The two bytes of a 16-bit word. -/
def storeLe16 (value : UInt16) : List UInt8 := leBytes 2 value.toNat

@[simp]
theorem storeLe32_length (value : ℕ) : (storeLe32 value).length = 4 := leBytes_length 4 value

@[simp]
theorem storeLe16_length (value : UInt16) : (storeLe16 value).length = 2 :=
  leBytes_length 2 value.toNat

/-- Shifted bytes do not overlap, so `|` adds them. -/
theorem or_shift_eq {a b i : ℕ} (ha : a < 2 ^ i) : a ||| b <<< i = a + 2 ^ i * b := by
  rw [Nat.or_comm, ← Nat.shiftLeft_add_eq_or_of_lt ha, Nat.shiftLeft_eq]
  ring

/-- A 32-bit word is the little-endian number of its four bytes. -/
theorem le32_toNat (p : List UInt8) :
    (le32 p).toNat = (p.getD 0 0).toNat + 2 ^ 8 * (p.getD 1 0).toNat +
      2 ^ 16 * (p.getD 2 0).toNat + 2 ^ 24 * (p.getD 3 0).toNat := by
  have h0 := (p.getD 0 0).toNat_lt
  have h1 := (p.getD 1 0).toNat_lt
  have h2 := (p.getD 2 0).toNat_lt
  have h3 := (p.getD 3 0).toNat_lt
  have hwide : ∀ b : UInt8, (b.toBitVec.setWidth 32).toNat = b.toNat := by
    intro b
    have hb := b.toNat_lt
    rw [BitVec.toNat_setWidth, UInt8.toNat_toBitVec, Nat.mod_eq_of_lt (by omega)]
  have hbyte : ∀ b : UInt8, ∀ i, i ≤ 24 →
      (b.toBitVec.setWidth 32 <<< i).toNat = b.toNat <<< i := by
    intro b i hi
    have hb := b.toNat_lt
    have hpow : 2 ^ i ≤ 2 ^ 24 := Nat.pow_le_pow_right (by norm_num) hi
    rw [BitVec.toNat_shiftLeft, hwide, Nat.shiftLeft_eq, Nat.mod_eq_of_lt]
    nlinarith
  rw [le32, BitVec.toNat_or, BitVec.toNat_or, BitVec.toNat_or, hwide, hbyte _ 8 (by norm_num),
    hbyte _ 16 (by norm_num), hbyte _ 24 (by norm_num), or_shift_eq h0,
    or_shift_eq (i := 16) (by omega), or_shift_eq (i := 24) (by omega)]

theorem le16_toNat (p : List UInt8) :
    (le16 p).toNat = (p.getD 0 0).toNat + 2 ^ 8 * (p.getD 1 0).toNat := by
  have h0 := (p.getD 0 0).toNat_lt
  have h1 := (p.getD 1 0).toNat_lt
  have hshift : ((p.getD 1 0).toUInt16 <<< 8).toNat = (p.getD 1 0).toNat <<< 8 := by
    rw [UInt16.toNat_shiftLeft, UInt8.toNat_toUInt16, Nat.shiftLeft_eq, Nat.shiftLeft_eq]
    show (p.getD 1 0).toNat * 2 ^ 8 % 2 ^ 16 = (p.getD 1 0).toNat * 2 ^ 8
    omega
  rw [le16, UInt16.toNat_or, hshift, UInt8.toNat_toUInt16, or_shift_eq (by omega)]

/-- Loading a stored word gives it back. -/
theorem le32_storeLe32 (value : ℕ) (rest : List UInt8) (h : value < 2 ^ 32) :
    (le32 (storeLe32 value ++ rest)).toNat = value := by
  have hvalue : leValue (storeLe32 value) = value := leValue_leBytes_of_lt (by norm_num; exact h)
  rw [le32_toNat]
  simp only [storeLe32, leBytes, List.cons_append, List.getD_cons_zero, List.getD_cons_succ,
    leValue] at hvalue ⊢
  omega

theorem le16_storeLe16 (value : UInt16) (rest : List UInt8) :
    le16 (storeLe16 value ++ rest) = value := by
  have hvalue : leValue (storeLe16 value) = value.toNat :=
    leValue_leBytes_of_lt (by have := value.toNat_lt; norm_num; omega)
  apply UInt16.toNat_inj.1
  rw [le16_toNat]
  simp only [storeLe16, leBytes, List.cons_append, List.getD_cons_zero, List.getD_cons_succ,
    leValue] at hvalue ⊢
  omega

/-- A load right behind a prefix reads what follows it. -/
theorem loadLe32_append (pre : List UInt8) {v : ℕ} (rest : List UInt8) (h : v < 2 ^ 32) :
    loadLe32 (pre ++ (storeLe32 v ++ rest)) pre.length = .ok (BitVec.ofNat 32 v) := by
  rw [loadLe32, if_pos (by simp), List.drop_left]
  congr 1
  apply BitVec.eq_of_toNat_eq
  rw [le32_storeLe32 v rest h, BitVec.toNat_ofNat, Nat.mod_eq_of_lt h]

theorem loadLe16_append (pre : List UInt8) (value : UInt16) (rest : List UInt8) :
    loadLe16 (pre ++ (storeLe16 value ++ rest)) pre.length = .ok value := by
  rw [loadLe16, if_pos (by simp), List.drop_left, le16_storeLe16]

/-! ### The checksum -/

/-- One bit of the reflected CRC-32. -/
def crcBit (crc : BitVec 32) : BitVec 32 :=
  (crc >>> 1) ^^^ (0xedb88320#32 &&& (0#32 - (crc &&& 1#32)))

/-- One byte: eight bits. -/
def crcByte (crc : BitVec 32) (byte : UInt8) : BitVec 32 :=
  (List.range 8).foldl (fun crc _ => crcBit crc) (crc ^^^ byte.toBitVec.setWidth 32)

def crc32 (data : List UInt8) : BitVec 32 := ~~~(data.foldl crcByte (BitVec.allOnes 32))

/-- The checksum of the first `size` bytes. -/
def crcPrefix (data : List UInt8) (size : ℕ) : Except Fault (BitVec 32) :=
  if size ≤ data.length then .ok (crc32 (data.take size)) else .error .outOfBounds

/-! ### Blocks -/

/-- The checksum of a block of `length` bytes agrees with its last four. -/
def crcMatches (data : List UInt8) (length : ℕ) : Except Fault Bool :=
  crcPrefix data (length - 4) >>= fun crc =>
    loadLe32 data (length - 4) >>= fun stored => .ok (crc == stored)

/-- The block at the start of `data` has the given tag, a plausible length and a good checksum; its
length is returned. -/
def checkedBlock (data : List UInt8) (tag : ℕ) : Except Fault ℕ :=
  if data.length < 12 then .error (.status 140)
  else
    loadLe32 data 0 >>= fun found =>
      if found.toNat ≠ tag then .error (.status 140)
      else
        loadLe32 data 4 >>= fun bytes =>
          if bytes.toNat < 12 ∨ data.length < bytes.toNat then .error (.status 140)
          else
            crcMatches data bytes.toNat >>= fun good =>
              if good then .ok bytes.toNat else .error (.status 140)

/-- The loop over the blocks of a template, counting them; every block takes at least twelve bytes,
so a fuel of that many bytes is enough. -/
def validateBlocks : ℕ → List UInt8 → ℕ → Except Fault ℕ
  | 0, rest, count => if rest = [] then .ok count else .error (.status (-1))
  | fuel + 1, rest, count =>
      if rest = [] then .ok count
      else if rest.length < 12 then .error (.status (-1))
      else
        loadLe32 rest 4 >>= fun length =>
          if length.toNat < 12 ∨ rest.length < length.toNat then .error (.status (-1))
          else
            crcMatches rest length.toNat >>= fun good =>
              if good then validateBlocks fuel (rest.drop length.toNat) (count + 1)
              else .error (.status (-1))

/-- The version of a template and the number of its blocks. -/
def templateValidate (data : List UInt8) : Except Fault (BitVec 32 × ℕ) :=
  if data.length < 8 ∨ 2 ^ 31 - 1 < data.length then .error (.status (-1))
  else
    loadLe32 data 4 >>= fun size =>
      if size.toNat ≠ data.length then .error (.status (-1))
      else
        validateBlocks data.length (data.drop 8) 0 >>= fun blocks =>
          loadLe16 data 0 >>= fun major =>
            loadLe16 data 2 >>= fun minor =>
              .ok (major.toBitVec.setWidth 32 <<< 16 ||| minor.toBitVec.setWidth 32, blocks)

/-- A block: tag, length, payload and checksum. -/
def frameBlock (tag : ℕ) (payload : List UInt8) : List UInt8 :=
  let body := storeLe32 tag ++ (storeLe32 (payload.length + 12) ++ payload)
  body ++ storeLe32 (crc32 body).toNat

theorem frameBlock_length (tag : ℕ) (payload : List UInt8) :
    (frameBlock tag payload).length = payload.length + 12 := by
  simp only [frameBlock, List.length_append, storeLe32_length]
  omega

/-- The checksum at the end of a written block is good. -/
theorem crcMatches_frameBlock (tag : ℕ) (payload rest : List UInt8) :
    crcMatches (frameBlock tag payload ++ rest) (payload.length + 12) = .ok true := by
  set body := storeLe32 tag ++ (storeLe32 (payload.length + 12) ++ payload) with hbody
  have hlen : payload.length + 12 - 4 = body.length := by
    simp only [hbody, List.length_append, storeLe32_length]
    omega
  have hcrc : (crc32 body).toNat < 2 ^ 32 := (crc32 body).isLt
  have hframe : frameBlock tag payload ++ rest =
      body ++ (storeLe32 (crc32 body).toNat ++ rest) := by
    rw [frameBlock, ← hbody, List.append_assoc]
  rw [crcMatches, hlen, hframe, loadLe32_append body rest hcrc, crcPrefix, if_pos (by simp),
    List.take_left]
  simp

/-- The length word of a written block. -/
theorem loadLe32_frameBlock (tag : ℕ) {payload : List UInt8} (rest : List UInt8)
    (h : payload.length + 12 < 2 ^ 32) :
    loadLe32 (frameBlock tag payload ++ rest) 4 = .ok (BitVec.ofNat 32 (payload.length + 12)) := by
  have := loadLe32_append (storeLe32 tag) (v := payload.length + 12)
    (payload ++ (storeLe32 (crc32 (storeLe32 tag ++
      (storeLe32 (payload.length + 12) ++ payload))).toNat ++ rest)) h
  rw [storeLe32_length] at this
  rw [← this]
  simp only [frameBlock, List.append_assoc]

/-- **A written block passes the check.** -/
theorem checkedBlock_frameBlock (tag : ℕ) {payload : List UInt8} (rest : List UInt8)
    (htag : tag < 2 ^ 32) (h : payload.length + 12 < 2 ^ 32) :
    checkedBlock (frameBlock tag payload ++ rest) tag = .ok (payload.length + 12) := by
  have hlen : (frameBlock tag payload ++ rest).length = payload.length + 12 + rest.length := by
    rw [List.length_append, frameBlock_length]
  have hfound : loadLe32 (frameBlock tag payload ++ rest) 0 = .ok (BitVec.ofNat 32 tag) := by
    have := loadLe32_append [] (v := tag) (storeLe32 (payload.length + 12) ++ (payload ++
      (storeLe32 (crc32 (storeLe32 tag ++ (storeLe32 (payload.length + 12) ++ payload))).toNat ++
        rest))) htag
    rw [List.length_nil, List.nil_append] at this
    rw [← this]
    simp only [frameBlock, List.append_assoc]
  have htoNat : (BitVec.ofNat 32 (payload.length + 12)).toNat = payload.length + 12 := by
    rw [BitVec.toNat_ofNat, Nat.mod_eq_of_lt h]
  rw [checkedBlock, if_neg (by omega), hfound, ok_bind,
    if_neg (by rw [BitVec.toNat_ofNat, Nat.mod_eq_of_lt htag]; simp),
    loadLe32_frameBlock tag rest h, ok_bind, htoNat, if_neg (by omega), crcMatches_frameBlock]
  rfl

/-- The loop over a written block. -/
theorem validateBlocks_cons (tag : ℕ) {payload : List UInt8} (rest : List UInt8)
    (h : payload.length + 12 < 2 ^ 32) (fuel count : ℕ) :
    validateBlocks (fuel + 1) (frameBlock tag payload ++ rest) count =
      validateBlocks fuel rest (count + 1) := by
  have hlen := frameBlock_length tag payload
  have htoNat : (BitVec.ofNat 32 (payload.length + 12)).toNat = payload.length + 12 := by
    rw [BitVec.toNat_ofNat, Nat.mod_eq_of_lt h]
  have hdrop : (frameBlock tag payload ++ rest).drop (payload.length + 12) = rest :=
    List.drop_left' hlen
  have hpos : (frameBlock tag payload ++ rest).length = payload.length + 12 + rest.length := by
    rw [List.length_append, hlen]
  rw [validateBlocks, if_neg (List.ne_nil_of_length_pos (by omega)), if_neg (by omega),
    loadLe32_frameBlock tag rest h, ok_bind, htoNat, if_neg (by omega), crcMatches_frameBlock,
    ok_bind, if_pos rfl, hdrop]

/-- The loop counts written blocks. -/
theorem validateBlocks_frames {blocks : List (ℕ × List UInt8)} {fuel count : ℕ}
    (hsize : ∀ block ∈ blocks, block.2.length + 12 < 2 ^ 32) (hfuel : blocks.length ≤ fuel) :
    validateBlocks fuel (blocks.flatMap fun block => frameBlock block.1 block.2) count =
      .ok (count + blocks.length) := by
  induction blocks generalizing fuel count with
  | nil => cases fuel <;> simp [validateBlocks]
  | cons block blocks ih =>
      obtain ⟨fuel, rfl⟩ : ∃ k, fuel = k + 1 := ⟨fuel - 1, by simp at hfuel; omega⟩
      rw [List.flatMap_cons, validateBlocks_cons block.1 _ (hsize block (by simp)),
        ih (fun b hb => hsize b (by simp [hb])) (by simpa using hfuel), List.length_cons]
      congr 1
      omega

/-- A header in front of written blocks is a valid template. -/
theorem templateValidate_frames (major minor : UInt16) {blocks : List (ℕ × List UInt8)}
    {body : List UInt8} (hbody : body = blocks.flatMap fun block => frameBlock block.1 block.2)
    (hsize : body.length + 8 < 2 ^ 31) :
    templateValidate (storeLe16 major ++ (storeLe16 minor ++
      (storeLe32 (body.length + 8) ++ body))) =
        .ok (major.toBitVec.setWidth 32 <<< 16 ||| minor.toBitVec.setWidth 32, blocks.length) := by
  set data := storeLe16 major ++ (storeLe16 minor ++ (storeLe32 (body.length + 8) ++ body))
    with hdata
  have hlen : data.length = body.length + 8 := by
    simp only [hdata, List.length_append, storeLe16_length, storeLe32_length]
    omega
  have hload : loadLe32 data 4 = .ok (BitVec.ofNat 32 (body.length + 8)) := by
    have := loadLe32_append (storeLe16 major ++ storeLe16 minor) (v := body.length + 8) body
      (by omega)
    rwa [List.append_assoc] at this
  have hmajor : loadLe16 data 0 = .ok major := loadLe16_append [] major _
  have hminor : loadLe16 data 2 = .ok minor := loadLe16_append (storeLe16 major) minor _
  have hdrop : data.drop 8 = body := by
    rw [hdata, ← List.append_assoc, ← List.append_assoc]
    exact List.drop_left' rfl
  have hshort : ∀ block ∈ blocks, block.2.length + 12 ≤ body.length := by
    intro block hblock
    have hmem : frameBlock block.1 block.2 ∈
        blocks.map fun block => frameBlock block.1 block.2 := List.mem_map.2 ⟨block, hblock, rfl⟩
    rw [hbody, ← frameBlock_length block.1 block.2, List.flatMap_def]
    exact (List.sublist_flatten_of_mem hmem).length_le
  have hblocks : validateBlocks data.length body 0 = .ok blocks.length := by
    rw [hbody, validateBlocks_frames (fun block hb => by have := hshort block hb; omega),
      Nat.zero_add]
    have hcount : ∀ bs : List (ℕ × List UInt8),
        bs.length ≤ (bs.flatMap fun block => frameBlock block.1 block.2).length := by
      intro bs
      induction bs with
      | nil => simp
      | cons b bs ih =>
          rw [List.flatMap_cons, List.length_append, frameBlock_length, List.length_cons]
          omega
    have := hcount blocks
    rw [← hbody] at this
    omega
  rw [templateValidate, if_neg (by omega), hload, ok_bind,
    if_neg (by rw [BitVec.toNat_ofNat, Nat.mod_eq_of_lt (by omega), hlen]; simp), hdrop, hblocks,
    ok_bind, hmajor, ok_bind, hminor, ok_bind]

end Fpc
