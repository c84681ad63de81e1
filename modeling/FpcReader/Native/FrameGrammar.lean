/-
**The grammar of a template, and damage to it.**

The framing check of a template is a loop over lengths that the template itself supplies.  It
accepts exactly the headers followed by written blocks; and since the checksum is the remainder of
a linear register that forgets nothing, damage within four consecutive bytes of a block is noticed
wherever it leaves the length of the block alone.

Main definitions:

* `Fpc.frames`, `Fpc.TemplateOf` — blocks one after the other, and a template of them;
* `Fpc.DifferWithin` — two strings that agree outside a window;
* `Fpc.crcResidue` — the register behind a block whose checksum is good.

Main results:

* `Fpc.crcMatches_eq` — the checksum is good when the register ends with the residue;
* `Fpc.templateValidate_iff` — **exactly the templates are accepted**;
* `Fpc.crcMatches_damaged` — **damage within one word is noticed**.
-/

import FpcReader.Lib.Crc
import FpcReader.Native.Canonical

set_option relaxedAutoImplicit false
set_option autoImplicit false

namespace Fpc

open Bytes Fallible

/-! ### The register -/

/-- The polynomial of the checksum. -/
def crcPolynomial : BitVec 32 := 0xedb88320#32

theorem crcPolynomial_msb : crcPolynomial.msb = true := by decide

/-- The mask of the source is the choice on the low bit. -/
theorem crcBit_eq (r : BitVec 32) : crcBit r = Crc.bit crcPolynomial r := by
  have hlow : r &&& 1#32 = BitVec.setWidth 32 (BitVec.ofBool (r.getLsbD 0)) :=
    BitVec.and_one_eq_setWidth_ofBool_getLsbD
  unfold crcBit Crc.bit
  rw [hlow]
  cases r.getLsbD 0 with
  | false => simp
  | true =>
      have hmask : 0#32 - BitVec.setWidth 32 (BitVec.ofBool true) = BitVec.allOnes 32 := by decide
      rw [hmask, BitVec.and_allOnes, if_pos rfl, crcPolynomial]

theorem crcByte_eq (r : BitVec 32) (b : UInt8) : crcByte r b = Crc.byte crcPolynomial r b := by
  have hwide : b.toBitVec.setWidth 32 = BitVec.ofNat 32 b.toNat := by
    apply BitVec.eq_of_toNat_eq
    rw [BitVec.toNat_setWidth, BitVec.toNat_ofNat, UInt8.toNat_toBitVec]
  have hbits : ∀ n x, (List.range n).foldl (fun crc _ => crcBit crc) x =
      Crc.bits crcPolynomial n x := by
    intro n
    induction n with
    | zero => exact fun x => rfl
    | succ n ih =>
        intro x
        rw [List.range_succ, List.foldl_append, ih, List.foldl_cons, List.foldl_nil, crcBit_eq]
        exact (Crc.bits_add crcPolynomial n 1 x).symm
  rw [crcByte, hwide, hbits, Crc.byte]

theorem foldl_crcByte (r : BitVec 32) (data : List UInt8) :
    data.foldl crcByte r = Crc.run crcPolynomial r data := by
  have hbyte : crcByte = Crc.byte crcPolynomial := by
    funext r b
    exact crcByte_eq r b
  rw [hbyte, Crc.run]

/-- The register behind a block whose checksum is good. -/
def crcResidue : BitVec 32 := Crc.bits crcPolynomial 32 (BitVec.allOnes 32)

/-- **The checksum is good when the register ends with the residue.** -/
theorem crcMatches_eq {data : List UInt8} {length : ℕ} (h4 : 4 ≤ length)
    (h : length ≤ data.length) :
    crcMatches data length = .ok
      (decide (Crc.run crcPolynomial (BitVec.allOnes 32) (data.take length) = crcResidue)) := by
  set stored := (data.drop (length - 4)).take 4 with hstored
  have hlen : 4 ≤ (data.drop (length - 4)).length := by
    rw [List.length_drop]
    omega
  have hfour : stored.length = 4 := List.length_take_of_le hlen
  have hsplit : data.take length = data.take (length - 4) ++ stored := by
    rw [hstored, ← List.take_add]
    congr 1
    omega
  -- the stored word is the number of the last four bytes
  have hword : BitVec.ofNat 32 (leValue stored) = le32 (data.drop (length - 4)) := by
    have hbytes := storeLe32_le32 hlen
    have hvalue : leValue (storeLe32 (le32 (data.drop (length - 4))).toNat) =
        (le32 (data.drop (length - 4))).toNat :=
      leValue_leBytes_of_lt (by norm_num; exact (le32 _).isLt)
    rw [hstored, ← hbytes, hvalue, BitVec.ofNat_toNat, BitVec.setWidth_eq]
  have hcrc : crc32 (data.take (length - 4)) =
      Crc.run crcPolynomial (BitVec.allOnes 32) (data.take (length - 4)) ^^^ BitVec.allOnes 32 := by
    rw [crc32, foldl_crcByte, BitVec.xor_allOnes]
  have hresidue := Crc.run_residue crcPolynomial_msb
    (Crc.run crcPolynomial (BitVec.allOnes 32) (data.take (length - 4))) (BitVec.allOnes 32)
    stored (by omega)
  rw [hfour, hword, ← hcrc] at hresidue
  rw [crcMatches, crcPrefix, if_pos (by omega), ok_bind, loadLe32, if_pos (by omega), ok_bind,
    hsplit, Crc.run_append]
  refine congrArg Except.ok ?_
  rw [Bool.eq_iff_iff, beq_iff_eq, decide_eq_true_iff, crcResidue]
  exact ⟨fun heq => hresidue.2 heq.symm, fun heq => (hresidue.1 heq).symm⟩

/-! ### The grammar -/

/-- Blocks one after the other. -/
def frames (blocks : List (ℕ × List UInt8)) : List UInt8 :=
  blocks.flatMap fun block => frameBlock block.1 block.2

@[simp]
theorem frames_cons (block : ℕ × List UInt8) (blocks : List (ℕ × List UInt8)) :
    frames (block :: blocks) = frameBlock block.1 block.2 ++ frames blocks := rfl

@[simp]
theorem frames_append (first rest : List (ℕ × List UInt8)) :
    frames (first ++ rest) = frames first ++ frames rest := List.flatMap_append

/-- A template of some blocks: four bytes of version, the size of the whole, and the blocks, each
with its tag of four bytes and its payload. -/
def TemplateOf (data : List UInt8) (blocks : List (ℕ × List UInt8)) : Prop :=
  ∃ version : List UInt8, version.length = 4 ∧ data.length ≤ 2 ^ 31 - 1 ∧
    (∀ block ∈ blocks, block.1 < 2 ^ 32) ∧
    data = version ++ (storeLe32 data.length ++ frames blocks)

/-- A block of some blocks is no longer than all of them. -/
theorem length_le_frames {blocks : List (ℕ × List UInt8)} {block : ℕ × List UInt8}
    (h : block ∈ blocks) : block.2.length + 12 ≤ (frames blocks).length := by
  have hmem : frameBlock block.1 block.2 ∈
      blocks.map fun block => frameBlock block.1 block.2 := List.mem_map.2 ⟨block, h, rfl⟩
  rw [frames, ← frameBlock_length block.1 block.2, List.flatMap_def]
  exact (List.sublist_flatten_of_mem hmem).length_le

/-- The bytes in front of a block with a good checksum make it a written block. -/
theorem eq_frameBlock {data : List UInt8} {length : BitVec 32} (h12 : 12 ≤ length.toNat)
    (hle : length.toNat ≤ data.length) (hlength : loadLe32 data 4 = .ok length)
    (hgood : crcMatches data length.toNat = .ok true) :
    ∃ tag payload, tag < 2 ^ 32 ∧ payload.length + 12 = length.toNat ∧
      data.take length.toNat = frameBlock tag payload := by
  set n := length.toNat with hn
  set payload := (data.drop 8).take (n - 12) with hpayload
  have hplen : payload.length + 12 = n := by
    rw [hpayload, List.length_take, List.length_drop]
    omega
  have htag : storeLe32 (le32 data).toNat = data.take 4 := storeLe32_le32 (by omega)
  obtain ⟨-, hfield⟩ := loadLe32_eq_ok hlength
  have hbody : data.take (n - 4) =
      storeLe32 (le32 data).toNat ++ (storeLe32 (payload.length + 12) ++ payload) := by
    have hfield' : storeLe32 (payload.length + 12) = (data.drop 4).take 4 := by
      rw [hplen, hn, hfield]
    rw [htag, hfield', hpayload]
    have hsplit : n - 4 = 4 + (4 + (n - 12)) := by omega
    rw [hsplit, List.take_add, List.take_add, List.drop_drop]
  obtain ⟨crc, hcrc, hgood⟩ := bind_eq_ok.1 hgood
  obtain ⟨stored, hstored, hgood⟩ := bind_eq_ok.1 hgood
  obtain rfl : crc = stored := by simpa using hgood
  rw [crcPrefix, if_pos (by omega)] at hcrc
  obtain ⟨-, hlast⟩ := loadLe32_eq_ok hstored
  refine ⟨(le32 data).toNat, payload, (le32 data).isLt, hplen, ?_⟩
  have hsplit : data.take n = data.take (n - 4) ++ (data.drop (n - 4)).take 4 := by
    rw [← List.take_add]
    congr 1
    omega
  rw [hsplit, hlast, ← Except.ok.inj hcrc, hbody, frameBlock]

/-- What the loop accepts is a sequence of written blocks. -/
theorem validateBlocks_eq_ok {fuel count blocks : ℕ} {rest : List UInt8}
    (h : validateBlocks fuel rest count = .ok blocks) :
    ∃ written, rest = frames written ∧ (∀ block ∈ written, block.1 < 2 ^ 32) ∧
      blocks = count + written.length := by
  induction fuel generalizing rest count with
  | zero =>
      rw [validateBlocks] at h
      split_ifs at h with hrest
      exact ⟨[], hrest, by simp, by simpa using (Except.ok.inj h).symm⟩
  | succ fuel ih =>
      rw [validateBlocks] at h
      split_ifs at h with hrest h12
      · exact ⟨[], hrest, by simp, by simpa using (Except.ok.inj h).symm⟩
      obtain ⟨length, hlength, h⟩ := bind_eq_ok.1 h
      split_ifs at h with hbad
      obtain ⟨good, hgood, h⟩ := bind_eq_ok.1 h
      cases good with
      | false => simp at h
      | true =>
          rw [if_pos rfl] at h
          obtain ⟨written, hwritten, htags, hcount⟩ := ih h
          obtain ⟨tag, payload, htag, -, htake⟩ :=
            eq_frameBlock (by omega) (by omega) hlength hgood
          refine ⟨(tag, payload) :: written, ?_, ?_, ?_⟩
          · rw [frames_cons, ← htake, ← hwritten, List.take_append_drop]
          · intro block hblock
            rcases List.mem_cons.1 hblock with rfl | hblock
            · exact htag
            · exact htags block hblock
          · rw [hcount, List.length_cons]
            omega

/-- The loop counts the blocks or reports a bad one. -/
theorem validateBlocks_total (fuel count : ℕ) (rest : List UInt8) :
    (∃ blocks, validateBlocks fuel rest count = .ok blocks) ∨
      validateBlocks fuel rest count = .error (.status (-1)) := by
  induction fuel generalizing rest count with
  | zero =>
      rw [validateBlocks]
      split_ifs with h
      · exact Or.inl ⟨count, rfl⟩
      · exact Or.inr rfl
  | succ fuel ih =>
      rw [validateBlocks]
      split_ifs with h h12
      · exact Or.inl ⟨count, rfl⟩
      · exact Or.inr rfl
      rw [loadLe32, if_pos (by omega), ok_bind]
      split_ifs with hbad
      · exact Or.inr rfl
      rw [crcMatches_eq (by omega) (by omega), ok_bind]
      split_ifs with hgood
      · exact ih _ _
      · exact Or.inr rfl

theorem templateValidate_total (data : List UInt8) :
    (∃ result, templateValidate data = .ok result) ∨
      templateValidate data = .error (.status (-1)) := by
  rw [templateValidate]
  split_ifs with hsize
  · exact Or.inr rfl
  rw [loadLe32, if_pos (by omega), ok_bind]
  split_ifs with hword
  · exact Or.inr rfl
  rcases validateBlocks_total data.length 0 (data.drop 8) with ⟨blocks, h⟩ | h
  · rw [h, ok_bind, loadLe16, if_pos (by omega), ok_bind, loadLe16, if_pos (by omega), ok_bind]
    exact Or.inl ⟨_, rfl⟩
  · rw [h]
    exact Or.inr rfl

/-- **Exactly the templates are accepted.** -/
theorem templateValidate_iff (data : List UInt8) (blocks : ℕ) :
    (∃ version, templateValidate data = .ok (version, blocks)) ↔
      ∃ written, TemplateOf data written ∧ written.length = blocks := by
  constructor
  · rintro ⟨version, h⟩
    rw [templateValidate] at h
    split_ifs at h with hsize
    obtain ⟨size, hload, h⟩ := bind_eq_ok.1 h
    split_ifs at h with hword
    obtain ⟨found, hfound, h⟩ := bind_eq_ok.1 h
    obtain ⟨major, -, h⟩ := bind_eq_ok.1 h
    obtain ⟨minor, -, h⟩ := bind_eq_ok.1 h
    obtain ⟨-, rfl⟩ := Prod.mk.inj (Except.ok.inj h)
    obtain ⟨written, hwritten, htags, hcount⟩ := validateBlocks_eq_ok hfound
    obtain ⟨-, hfield⟩ := loadLe32_eq_ok hload
    refine ⟨written, ⟨data.take 4, List.length_take_of_le (by omega), by omega, htags, ?_⟩,
      by omega⟩
    rw [← not_not.1 hword, ← hfield, ← hwritten, ← List.append_assoc, ← List.take_add,
      List.take_append_drop]
  · rintro ⟨written, ⟨version, hversion, hsize, -, hdata⟩, rfl⟩
    have hlen : data.length = (frames written).length + 8 := by
      have := congrArg List.length hdata
      simp only [List.length_append, storeLe32_length] at this
      omega
    have hfour : version = storeLe16 (le16 version) ++ storeLe16 (le16 (version.drop 2)) := by
      rw [storeLe16_le16 (by omega), storeLe16_le16 (by rw [List.length_drop]; omega),
        ← List.take_add, List.take_of_length_le (by omega)]
    have hbody : frames written = written.flatMap fun block => frameBlock block.1 block.2 := rfl
    have h := templateValidate_frames (le16 version) (le16 (version.drop 2)) hbody (by omega)
    rw [← hlen, ← List.append_assoc, ← hfour, ← hdata] at h
    exact ⟨_, h⟩

/-! ### Damage -/

/-- Two strings of one length that agree outside `width` bytes from `start` on. -/
def DifferWithin (start width : ℕ) (data changed : List UInt8) : Prop :=
  changed.length = data.length ∧ ∀ i, i < start ∨ start + width ≤ i → changed[i]? = data[i]?

/-- The two strings with the window cut out. -/
theorem DifferWithin.split {start width : ℕ} {data changed : List UInt8}
    (h : DifferWithin start width data changed) :
    ∃ front a b back, data = front ++ (a ++ back) ∧ changed = front ++ (b ++ back) ∧
      a.length = b.length ∧ a.length ≤ width := by
  have hfront : changed.take start = data.take start := by
    apply List.ext_getElem?
    intro i
    simp only [List.getElem?_take]
    split_ifs with hi
    · exact h.2 i (Or.inl hi)
    · rfl
  have hback : changed.drop (start + width) = data.drop (start + width) := by
    apply List.ext_getElem?
    intro i
    rw [List.getElem?_drop, List.getElem?_drop]
    exact h.2 _ (Or.inr (by omega))
  have hcut : ∀ bytes : List UInt8, bytes = bytes.take start ++
      ((bytes.drop start).take width ++ bytes.drop (start + width)) := by
    intro bytes
    rw [← List.append_assoc, ← List.take_add, List.take_append_drop]
  refine ⟨data.take start, (data.drop start).take width, (changed.drop start).take width,
    data.drop (start + width), hcut data, ?_, ?_, ?_⟩
  · conv_lhs => rw [hcut changed, hfront, hback]
  · simp only [List.length_take, List.length_drop, h.1]
  · simp only [List.length_take]
    omega

/-- A window inside the middle of a string leaves what stands around it. -/
theorem DifferWithin.middle {start width : ℕ} {head middle tail changed : List UInt8}
    (h : DifferWithin start width (head ++ (middle ++ tail)) changed)
    (hstart : head.length ≤ start) (hend : start + width ≤ head.length + middle.length) :
    ∃ damaged, changed = head ++ (damaged ++ tail) ∧
      DifferWithin (start - head.length) width middle damaged := by
  have hlen : changed.length = head.length + (middle.length + tail.length) := by
    rw [h.1, List.length_append, List.length_append]
  have hhead : changed.take head.length = head := by
    apply List.ext_getElem?
    intro i
    rw [List.getElem?_take]
    split_ifs with hi
    · rw [h.2 i (Or.inl (by omega)), List.getElem?_append_left hi]
    · rw [List.getElem?_eq_none (by omega)]
  have htail : (changed.drop head.length).drop middle.length = tail := by
    apply List.ext_getElem?
    intro i
    rw [List.drop_drop, List.getElem?_drop, h.2 _ (Or.inr (by omega)),
      List.getElem?_append_right (by omega), List.getElem?_append_right (by omega)]
    congr 1
    omega
  refine ⟨(changed.drop head.length).take middle.length, ?_, ?_, ?_⟩
  · conv_lhs => rw [← List.take_append_drop head.length changed, hhead,
      ← List.take_append_drop middle.length (changed.drop head.length), htail]
  · rw [List.length_take, List.length_drop]
    omega
  · intro i hi
    rw [List.getElem?_take]
    split_ifs with hlt
    · rw [List.getElem?_drop, h.2 _ (by omega), List.getElem?_append_right (by omega),
        List.getElem?_append_left (by omega)]
      congr 1
      omega
    · rw [List.getElem?_eq_none (by omega)]

/-- **Damage within one word is noticed**: of two different strings of the length of a block that
differ within four bytes, at most one has a good checksum. -/
theorem crcMatches_damaged {block changed rest : List UInt8} {start width : ℕ}
    (hlong : 4 ≤ block.length) (hgood : crcMatches (block ++ rest) block.length = .ok true)
    (h : DifferWithin start width block changed) (hwidth : width ≤ 4) (hne : changed ≠ block) :
    crcMatches (changed ++ rest) block.length = .ok false := by
  obtain ⟨front, a, b, back, hblock, hchanged, hlen, ha⟩ := h.split
  rw [crcMatches_eq hlong (by rw [List.length_append]; omega), List.take_left] at hgood
  have htake : (changed ++ rest).take block.length = changed := List.take_left' h.1
  rw [crcMatches_eq hlong (by rw [List.length_append, h.1]; omega), htake]
  have hresidue := of_decide_eq_true (Except.ok.inj hgood)
  refine congrArg Except.ok (decide_eq_false ?_)
  intro hsame
  apply hne
  rw [← hresidue, hblock, hchanged] at hsame
  have hab := Crc.run_window crcPolynomial_msb (BitVec.allOnes 32) front back hlen (by omega)
    hsame.symm
  rw [hblock, hchanged, hab]

/-- A load reads four bytes. -/
theorem loadLe32_congr {data changed : List UInt8} {offset : ℕ}
    (hlen : changed.length = data.length)
    (h : ∀ i, offset ≤ i → i < offset + 4 → changed[i]? = data[i]?) :
    loadLe32 changed offset = loadLe32 data offset := by
  have hbyte : ∀ k, k < 4 → (changed.drop offset).getD k 0 = (data.drop offset).getD k 0 := by
    intro k hk
    rw [List.getD_eq_getElem?_getD, List.getD_eq_getElem?_getD, List.getElem?_drop,
      List.getElem?_drop, h (offset + k) (by omega) (by omega)]
  have hword : le32 (changed.drop offset) = le32 (data.drop offset) := by
    rw [le32, le32, hbyte 0 (by omega), hbyte 1 (by omega), hbyte 2 (by omega),
      hbyte 3 (by omega)]
  rw [loadLe32, loadLe32, hlen, hword]

/-- The loop stops at a block whose checksum is bad. -/
theorem validateBlocks_bad {before : List (ℕ × List UInt8)} {rest : List UInt8}
    {length : BitVec 32} (hbefore : ∀ block ∈ before, block.2.length + 12 < 2 ^ 32)
    (h12 : 12 ≤ length.toNat) (hle : length.toNat ≤ rest.length)
    (hload : loadLe32 rest 4 = .ok length) (hbad : crcMatches rest length.toNat = .ok false)
    (fuel count : ℕ) :
    validateBlocks fuel (frames before ++ rest) count = .error (.status (-1)) := by
  induction before generalizing fuel count with
  | nil =>
      have hne : frames [] ++ rest ≠ [] := List.ne_nil_of_length_pos (by
        rw [List.length_append]
        omega)
      cases fuel with
      | zero => rw [validateBlocks, if_neg hne]
      | succ fuel =>
          have hnil : frames [] ++ rest = rest := rfl
          rw [validateBlocks, if_neg hne, hnil, if_neg (by omega), hload, ok_bind,
            if_neg (by omega), hbad]
          rfl
  | cons block before ih =>
      rw [frames_cons, List.append_assoc]
      cases fuel with
      | zero =>
          have hlen := frameBlock_length block.1 block.2
          rw [validateBlocks, if_neg (List.ne_nil_of_length_pos (by
            rw [List.length_append]
            omega))]
      | succ fuel =>
          rw [validateBlocks_cons block.1 _ (hbefore block (by simp)),
            ih (fun b hb => hbefore b (by simp [hb]))]

/-- A written block that is damaged outside its length still shows it, and its checksum is bad. -/
theorem DifferWithin.frameBlock {tag start width : ℕ} {payload damaged : List UInt8}
    (h : DifferWithin start width (Fpc.frameBlock tag payload) damaged)
    (hlength : start + width ≤ 4 ∨ 8 ≤ start) (hwidth : width ≤ 4)
    (hne : damaged ≠ Fpc.frameBlock tag payload) (hsmall : payload.length + 12 < 2 ^ 32)
    (rest : List UInt8) :
    loadLe32 (damaged ++ rest) 4 = .ok (BitVec.ofNat 32 (payload.length + 12)) ∧
      crcMatches (damaged ++ rest) (payload.length + 12) = .ok false := by
  have hblock := frameBlock_length tag payload
  constructor
  · rw [← loadLe32_frameBlock tag rest hsmall]
    refine loadLe32_congr ?_ ?_
    · rw [List.length_append, List.length_append, h.1]
    · intro i hi hi'
      rw [List.getElem?_append_left (by rw [h.1]; omega), List.getElem?_append_left (by omega)]
      exact h.2 i (by omega)
  · have hgood := crcMatches_frameBlock tag payload rest
    rw [← hblock] at hgood ⊢
    exact crcMatches_damaged (by omega) hgood h hwidth hne

/-- Whatever its header says, a template with a bad block is rejected. -/
theorem templateValidate_bad {version body : List UInt8} {size : ℕ} (hversion : version.length = 4)
    (hsize : size = 8 + body.length)
    (hbad : ∀ fuel, validateBlocks fuel body 0 = .error (.status (-1))) :
    templateValidate (version ++ (storeLe32 size ++ body)) = .error (.status (-1)) := by
  have hlength : (version ++ (storeLe32 size ++ body)).length = size := by
    simp only [List.length_append, storeLe32_length]
    omega
  rw [templateValidate, hlength]
  split_ifs with hrange
  · rfl
  have hword : loadLe32 (version ++ (storeLe32 size ++ body)) 4 = .ok (BitVec.ofNat 32 size) := by
    rw [← hversion]
    exact loadLe32_append version body (by omega)
  have hdrop : (version ++ (storeLe32 size ++ body)).drop 8 = body := by
    rw [← List.append_assoc]
    exact List.drop_left' (by rw [List.length_append, storeLe32_length, hversion])
  rw [hword, ok_bind, hdrop, hbad]
  split_ifs
  · rfl
  · rfl

/-- A template stays one no longer when one of its blocks is damaged within four bytes that leave
its length alone. -/
theorem templateValidate_damaged {data changed : List UInt8}
    {before after : List (ℕ × List UInt8)} {block : ℕ × List UInt8} {offset start width : ℕ}
    (h : TemplateOf data (before ++ block :: after)) (hoffset : offset = 8 + (frames before).length)
    (hstart : offset ≤ start) (hend : start + width ≤ offset + (block.2.length + 12))
    (hlength : start + width ≤ offset + 4 ∨ offset + 8 ≤ start) (hwidth : width ≤ 4)
    (hdiffer : DifferWithin start width data changed) (hne : changed ≠ data) :
    templateValidate changed = .error (.status (-1)) := by
  obtain ⟨version, hversion, hsize, -, hdata⟩ := h
  have hblock := frameBlock_length block.1 block.2
  set head := version ++ (storeLe32 data.length ++ frames before) with hhead
  have hheadlen : head.length = offset := by
    simp only [hhead, List.length_append, storeLe32_length]
    omega
  have hparts : data = head ++ (frameBlock block.1 block.2 ++ frames after) := by
    conv_lhs => rw [hdata]
    simp only [hhead, frames_append, frames_cons, List.append_assoc]
  clear_value head
  have htotal : data.length =
      offset + ((frameBlock block.1 block.2).length + (frames after).length) := by
    conv_lhs => rw [hparts]
    rw [List.length_append, List.length_append, hheadlen]
  -- the damaged block between the unharmed rest
  obtain ⟨damaged, hchanged, hpiece⟩ : ∃ damaged, changed = head ++ (damaged ++ frames after) ∧
      DifferWithin (start - head.length) width (frameBlock block.1 block.2) damaged := by
    rw [hparts] at hdiffer
    exact hdiffer.middle (by omega) (by omega)
  have hdamaged : damaged ≠ frameBlock block.1 block.2 := by
    rintro rfl
    exact hne (hchanged.trans hparts.symm)
  obtain ⟨hload, hbad⟩ :=
    hpiece.frameBlock (by omega) hwidth hdamaged (by omega) (frames after)
  have htoNat : (BitVec.ofNat 32 (block.2.length + 12)).toNat = block.2.length + 12 := by
    rw [BitVec.toNat_ofNat, Nat.mod_eq_of_lt (by omega)]
  have hshort : ∀ b ∈ before, b.2.length + 12 < 2 ^ 32 := by
    intro b hb
    have := length_le_frames hb
    omega
  rw [hchanged, hhead, List.append_assoc, List.append_assoc]
  refine templateValidate_bad hversion ?_ ?_
  · rw [List.length_append, List.length_append, hpiece.1]
    omega
  · intro fuel
    refine validateBlocks_bad hshort (by omega) ?_ hload ?_ fuel 0
    · rw [List.length_append, hpiece.1]
      omega
    · rw [htoNat]
      exact hbad

/-- **The framing check accepts its grammar, and notices short damage.**  It always comes to a
result; a string is accepted with a number of blocks exactly when it is a template of that many; and
an accepted string that is changed within at most four consecutive bytes of one block, its length
field excepted, is rejected. -/
theorem templateValidate_grammar (data : List UInt8) :
    ((∃ result, templateValidate data = .ok result) ∨
      templateValidate data = .error (.status (-1))) ∧
    (∀ blocks, (∃ version, templateValidate data = .ok (version, blocks)) ↔
      ∃ written, TemplateOf data written ∧ written.length = blocks) ∧
    ∀ before block after start width changed, TemplateOf data (before ++ block :: after) →
      8 + (frames before).length ≤ start →
      start + width ≤ 8 + (frames before).length + (block.2.length + 12) →
      (start + width ≤ 8 + (frames before).length + 4 ∨
        8 + (frames before).length + 8 ≤ start) →
      width ≤ 4 → DifferWithin start width data changed → changed ≠ data →
      templateValidate changed = .error (.status (-1)) := by
  refine ⟨templateValidate_total data, templateValidate_iff data, ?_⟩
  intro before block after start width changed h hstart hend hlength hwidth hdiffer hne
  exact templateValidate_damaged h rfl hstart hend hlength hwidth hdiffer hne

/-- A template of one empty block, with the first byte of its tag changed. -/
theorem templateValidate_grammar_tag :
    templateValidate (([1, 0, 0, 0] ++ (storeLe32 20 ++ frames [(5, [])])).set 8 6) =
      .error (.status (-1)) := by
  refine (templateValidate_grammar ([1, 0, 0, 0] ++ (storeLe32 20 ++ frames [(5, [])]))).2.2
    [] (5, []) [] 8 1 _ ⟨[1, 0, 0, 0], rfl, ?_, ?_, ?_⟩ ?_ ?_ ?_ ?_ ⟨List.length_set, ?_⟩ ?_
  · decide +kernel
  · simp
  · decide +kernel
  · exact le_rfl
  · exact Nat.le_of_ble_eq_true rfl
  · exact Or.inl (Nat.le_of_ble_eq_true rfl)
  · norm_num
  · intro i hi
    rw [List.getElem?_set_ne (by omega)]
  · decide +kernel

end Fpc
