/-
**Packed coverage masks.**

The reader keeps the covered area of a capture as a bit mask: rows of 32-bit words, the bits of a
row starting at a word boundary.  Masks of single captures are united into the mask of a finger,
and the number of its bits decides how far an enrollment has come.  This module shows that the word
operations are the set operations they stand for.

Main definitions:

* `Fpc.maskBit` — bit `(x, y)` of a mask;
* `Fpc.countPackedMask` — the bit count, a word at a time;
* `Fpc.unionPackedMask` — ORing one mask into a window of another;
* `Fpc.covered` — the points of a mask as a finite set.

Main results:

* `Fpc.popcount32_eq` — the sideways count is the number of set bits;
* `Fpc.unionPackedMask_bits` — what a union changes, bit by bit;
* `Fpc.countPackedMask_eq` — **the count is the number of covered points**;
* `Fpc.packedMask_sets` — **masks behave as sets**.
-/

import FpcReader.Lib.BitCount
import FpcReader.Lib.PackedBits
import FpcReader.Lib.Scans
import FpcReader.Native.Descriptor

set_option relaxedAutoImplicit false
set_option autoImplicit false

namespace Fpc

open PackedBits

/-! ### The source's functions -/

/-- Bit `(x, y)` of a mask. -/
def maskBit (words : List (BitVec 32)) (strideBits x y : ℕ) : Bool :=
  bitAt words (y * strideBits + x)

/-- The word at `x` of row `y`, without what lies past the width. -/
def maskedWord (words : List (BitVec 32)) (width strideBits y x : ℕ) : BitVec 32 :=
  let value := words.getD (y * (strideBits / 32) + x / 32) 0
  let remaining := width - x
  if remaining < 32 then value &&& ((1#32 <<< remaining) - 1#32) else value

/-- The number of set bits of a mask, added up in 32 bits. -/
def countPackedMask (words : List (BitVec 32)) (width height strideBits : ℕ) : Option ℕ :=
  if width = 0 ∨ 2 ^ 64 - 1 - 31 < width ∨ strideBits ≠ (width + 31) / 32 * 32 ∨
      (2 ^ 64 - 1) / (strideBits / 32) < height ∨ 2 ^ 32 - 1 < width ∨
      (2 ^ 32 - 1) / width < height then none
  else
    -- the guard keeps the area, and so the total, below the modulus
    some ((List.range height).foldl (fun total y =>
      (List.range ((width + 31) / 32)).foldl (fun total k =>
        (total + popcount32 (maskedWord words width strideBits y (32 * k))) % 2 ^ 32) total) 0)

/-- The inner loop of the union: row `y` of the source is ORed into row `y + offsetY`. -/
def unionRow (strideBits : ℕ) (source : List (BitVec 32))
    (sourceWidth sourceStrideBits offsetX offsetY : ℕ) (destination : List (BitVec 32)) (y : ℕ) :
    List (BitVec 32) :=
  (List.range sourceWidth).foldl (fun destination x =>
    let src := y * sourceStrideBits + x
    let dst := (y + offsetY) * strideBits + x + offsetX
    putBit destination dst (takeBit source src)) destination

/-- ORing a mask into the window of another that starts at the offset. -/
def unionPackedMask (destination : List (BitVec 32)) (width height strideBits : ℕ)
    (source : List (BitVec 32)) (sourceWidth sourceHeight sourceStrideBits : ℕ)
    (offsetX offsetY : ℕ) : Option (List (BitVec 32)) :=
  if width = 0 ∨ sourceWidth = 0 ∨ strideBits % 32 ≠ 0 ∨ sourceStrideBits % 32 ≠ 0 ∨
      strideBits < width ∨ sourceStrideBits < sourceWidth ∨ width < offsetX ∨ height < offsetY ∨
      width - offsetX < sourceWidth ∨ height - offsetY < sourceHeight ∨ strideBits = 0 ∨
      sourceStrideBits = 0 ∨ (2 ^ 64 - 1) / strideBits < height ∨
      (2 ^ 64 - 1) / sourceStrideBits < sourceHeight then none
  else
    some ((List.range sourceHeight).foldl
      (unionRow strideBits source sourceWidth sourceStrideBits offsetX offsetY) destination)

/-! ### The bit count -/

/-- **The sideways count is the number of set bits.** -/
theorem popcount32_eq (value : BitVec 32) :
    popcount32 value = ∑ i ∈ Finset.range 32, (value.getLsbD i).toNat := by
  have hside : popcount32 value = BitCount.sideways value.toNat := by
    have hpairs : (value - ((value >>> 1) &&& 0x55555555#32)).toNat =
        value.toNat - (value.toNat / 2 ^ 1 &&& 0x55555555) := by
      have hle : (value >>> 1) &&& 0x55555555#32 ≤ value := by
        rw [BitVec.le_def, BitVec.toNat_and, BitVec.toNat_ushiftRight, Nat.shiftRight_eq_div_pow]
        exact Nat.and_le_left.trans (Nat.div_le_self _ _)
      rw [BitVec.toNat_sub_of_le hle, BitVec.toNat_and, BitVec.toNat_ushiftRight,
        Nat.shiftRight_eq_div_pow]
      rfl
    -- neither of the two additions carries out of the word
    have hnibbles : ∀ v : BitVec 32,
        ((v &&& 0x33333333#32) + ((v >>> 2) &&& 0x33333333#32)).toNat =
          (v.toNat &&& 0x33333333) + (v.toNat / 2 ^ 2 &&& 0x33333333) := by
      intro v
      have h1 : v.toNat &&& 0x33333333 ≤ 0x33333333 := Nat.and_le_right
      have h2 : v.toNat / 2 ^ 2 &&& 0x33333333 ≤ 0x33333333 := Nat.and_le_right
      rw [BitVec.toNat_add, BitVec.toNat_and, BitVec.toNat_and, BitVec.toNat_ushiftRight,
        Nat.shiftRight_eq_div_pow]
      exact Nat.mod_eq_of_lt (lt_of_le_of_lt (Nat.add_le_add h1 h2) (by norm_num))
    have hcollect : ∀ v : BitVec 32, v.toNat ≤ 0x66666666 →
        ((((v + (v >>> 4)) &&& 0x0f0f0f0f#32) * 0x01010101#32) >>> 24).toNat =
          ((v.toNat + v.toNat / 2 ^ 4) &&& 0x0f0f0f0f) * 0x01010101 % 2 ^ 32 / 2 ^ 24 := by
      intro v hv
      have hsum : (v + v >>> 4).toNat = v.toNat + v.toNat / 2 ^ 4 := by
        rw [BitVec.toNat_add, BitVec.toNat_ushiftRight, Nat.shiftRight_eq_div_pow]
        exact Nat.mod_eq_of_lt (by omega)
      rw [BitVec.toNat_ushiftRight, BitVec.toNat_mul, BitVec.toNat_and, hsum,
        Nat.shiftRight_eq_div_pow]
      rfl
    have hbound : ∀ n : ℕ, (n &&& 0x33333333) + (n / 2 ^ 2 &&& 0x33333333) ≤ 0x66666666 := by
      intro n
      have h1 : n &&& 0x33333333 ≤ 0x33333333 := Nat.and_le_right
      have h2 : n / 2 ^ 2 &&& 0x33333333 ≤ 0x33333333 := Nat.and_le_right
      omega
    rw [popcount32, hcollect _ (by rw [hnibbles]; exact hbound _), hnibbles, hpairs]
    rfl
  rw [hside, BitCount.sideways_eq value.isLt]
  rfl

/-! ### What a union changes -/

/-- The point `(x, y)` lies in the window of the given size at the given offset. -/
def InWindow (windowWidth windowHeight offsetX offsetY x y : ℕ) : Prop :=
  offsetX ≤ x ∧ x < offsetX + windowWidth ∧ offsetY ≤ y ∧ y < offsetY + windowHeight

instance (windowWidth windowHeight offsetX offsetY x y : ℕ) :
    Decidable (InWindow windowWidth windowHeight offsetX offsetY x y) :=
  inferInstanceAs (Decidable (_ ∧ _ ∧ _ ∧ _))

section Union

variable {destination destination' source : List (BitVec 32)}
variable {width height strideBits sourceWidth sourceHeight sourceStrideBits offsetX offsetY : ℕ}

/-- The position `j` of the destination is where the union puts a set bit of row `y`. -/
def unionHits (strideBits : ℕ) (source : List (BitVec 32))
    (sourceWidth sourceStrideBits offsetX offsetY y j : ℕ) : Bool :=
  (List.range sourceWidth).any fun x =>
    decide (j = (y + offsetY) * strideBits + x + offsetX) &&
      bitAt source (y * sourceStrideBits + x)

theorem unionRow_bits (hwidth : sourceWidth + offsetX ≤ strideBits) {y : ℕ}
    (hy : y + offsetY < height) {words : List (BitVec 32)}
    (hend : height * strideBits ≤ words.length * 32) :
    (unionRow strideBits source sourceWidth sourceStrideBits offsetX offsetY words y).length =
        words.length ∧
      ∀ j, bitAt (unionRow strideBits source sourceWidth sourceStrideBits offsetX offsetY words y)
          j = (bitAt words j ||
            unionHits strideBits source sourceWidth sourceStrideBits offsetX offsetY y j) := by
  refine bitAt_foldl (n := words.length) ?_ rfl
  intro current x hx hlen
  have hx := List.mem_range.1 hx
  have hlt := grid_lt (s := strideBits) (x := x + offsetX) (by omega) hy
  refine ⟨by rw [putBit_length, hlen], fun j => ?_⟩
  refine bitAt_putBit (by norm_num) ?_ (isBit_takeBit source _) j
  rw [Nat.div_lt_iff_lt_mul (by norm_num), hlen]
  omega

/-- **What a union changes, bit by bit.** -/
theorem unionPackedMask_bits
    (h : unionPackedMask destination width height strideBits source sourceWidth sourceHeight
      sourceStrideBits offsetX offsetY = some destination')
    (hlen : height * (strideBits / 32) ≤ destination.length) :
    destination'.length = destination.length ∧
      ∀ x y, x < strideBits →
        (maskBit destination' strideBits x y = true ↔
          maskBit destination strideBits x y = true ∨
            (InWindow sourceWidth sourceHeight offsetX offsetY x y ∧
              maskBit source sourceStrideBits (x - offsetX) (y - offsetY) = true)) := by
  rw [unionPackedMask] at h
  split_ifs at h with hguard
  push Not at hguard
  obtain ⟨-, -, hstride, -, hwidth, -, hox, hoy, hsw, hsh, -, -, -, -⟩ := hguard
  have hend : height * strideBits ≤ destination.length * 32 := by
    calc height * strideBits = height * (strideBits / 32) * 32 := by
          rw [Nat.mul_assoc, Nat.div_mul_cancel (Nat.dvd_of_mod_eq_zero hstride)]
      _ ≤ destination.length * 32 := Nat.mul_le_mul_right 32 hlen
  have hstep : ∀ words : List (BitVec 32), ∀ y ∈ List.range sourceHeight,
      words.length = destination.length →
      (unionRow strideBits source sourceWidth sourceStrideBits offsetX offsetY words y).length =
          destination.length ∧
        ∀ j, bitAt (unionRow strideBits source sourceWidth sourceStrideBits offsetX offsetY words y)
            j = (bitAt words j ||
              unionHits strideBits source sourceWidth sourceStrideBits offsetX offsetY y j) := by
    intro words y hy hwords
    have hy := List.mem_range.1 hy
    rw [← hwords] at hend ⊢
    exact unionRow_bits (by omega) (by omega : y + offsetY < height) hend
  obtain ⟨hl, hb⟩ := bitAt_foldl hstep rfl
  obtain rfl := Option.some.inj h
  refine ⟨hl, fun x y hx => ?_⟩
  rw [maskBit, hb, Bool.or_eq_true, maskBit, List.any_eq_true]
  refine or_congr_right ?_
  constructor
  · rintro ⟨v, hv, hv'⟩
    rw [unionHits] at hv'
    obtain ⟨u, hu, hu'⟩ := List.any_eq_true.1 hv'
    simp only [List.mem_range, Bool.and_eq_true, decide_eq_true_eq] at hu hv hu'
    obtain ⟨hpos, hbit⟩ := hu'
    have hin : u + offsetX < strideBits := by omega
    -- the window ends within the row, so the bit addresses of two points differ
    obtain ⟨rfl, rfl⟩ := grid_inj hx hin (hpos.trans (Nat.add_assoc _ _ _))
    refine ⟨⟨by omega, by omega, by omega, by omega⟩, ?_⟩
    rw [Nat.add_sub_cancel, Nat.add_sub_cancel]
    exact hbit
  · rintro ⟨⟨h1, h2, h3, h4⟩, hbit⟩
    refine ⟨y - offsetY, List.mem_range.2 (by omega), List.any_eq_true.2
      ⟨x - offsetX, List.mem_range.2 (by omega), ?_⟩⟩
    simp only [Bool.and_eq_true, decide_eq_true_eq]
    refine ⟨?_, hbit⟩
    rw [Nat.sub_add_cancel h3, Nat.add_assoc, Nat.sub_add_cancel h1]

/-- A second union with the same mask and window changes nothing. -/
theorem unionPackedMask_idem
    (h : unionPackedMask destination width height strideBits source sourceWidth sourceHeight
      sourceStrideBits offsetX offsetY = some destination')
    (hlen : height * (strideBits / 32) ≤ destination.length) :
    unionPackedMask destination' width height strideBits source sourceWidth sourceHeight
      sourceStrideBits offsetX offsetY = some destination' := by
  obtain ⟨hl, hb⟩ := unionPackedMask_bits h hlen
  obtain ⟨again, hagain⟩ : ∃ again, unionPackedMask destination' width height strideBits source
      sourceWidth sourceHeight sourceStrideBits offsetX offsetY = some again := by
    rw [unionPackedMask] at h ⊢
    split_ifs at h ⊢
    exact ⟨_, rfl⟩
  have hpos : 0 < strideBits := by
    rw [unionPackedMask] at h
    split_ifs at h
    omega
  obtain ⟨hl', hb'⟩ := unionPackedMask_bits hagain (hl ▸ hlen)
  rw [hagain]
  congr 1
  refine ext_bitAt hl' ?_
  intro j hj
  have hj' : j / strideBits * strideBits + j % strideBits = j := by
    rw [Nat.mul_comm, Nat.div_add_mod]
  have hx := Nat.mod_lt j hpos
  have hfirst := hb (j % strideBits) (j / strideBits) hx
  have hsecond := hb' (j % strideBits) (j / strideBits) hx
  simp only [maskBit, hj'] at hfirst hsecond
  rw [Bool.eq_iff_iff, hsecond, hfirst]
  tauto

end Union

/-! ### The count of a mask -/

/-- The points of a mask, as a finite set. -/
def covered (words : List (BitVec 32)) (width height strideBits : ℕ) : Finset (ℕ × ℕ) :=
  (Finset.range width ×ˢ Finset.range height).filter fun p =>
    maskBit words strideBits p.1 p.2 = true

theorem getLsbD_lowMask {r : ℕ} (hr : r < 32) (i : ℕ) :
    ((1#32 <<< r) - 1#32).getLsbD i = decide (i < r) := by
  have hpow : (1#32 <<< r).toNat = 2 ^ r := by
    rw [BitVec.toNat_shiftLeft, Nat.shiftLeft_eq]
    have hlt : 2 ^ r < 2 ^ 32 := Nat.pow_lt_pow_right (by norm_num) hr
    simpa using Nat.mod_eq_of_lt hlt
  have hle : 1#32 ≤ 1#32 <<< r := by
    rw [BitVec.le_def, hpow]
    exact Nat.one_le_two_pow
  rw [BitVec.getLsbD, BitVec.toNat_sub_of_le hle, hpow]
  exact Nat.testBit_two_pow_sub_one r i

/-- The bits of a word that the count looks at are the points of its row within the width. -/
theorem getLsbD_maskedWord {words : List (BitVec 32)} {width strideBits y k i : ℕ}
    (hstride : strideBits % 32 = 0) (hk : 32 * k < width) (hi : i < 32) :
    (maskedWord words width strideBits y (32 * k)).getLsbD i =
      (decide (32 * k + i < width) && maskBit words strideBits (32 * k + i) y) := by
  have hword : maskBit words strideBits (32 * k + i) y =
      (words.getD (y * (strideBits / 32) + 32 * k / 32) 0).getLsbD i := by
    have hpos : y * strideBits + (32 * k + i) = 32 * (y * (strideBits / 32) + k) + i := by
      have hdiv : strideBits / 32 * 32 = strideBits :=
        Nat.div_mul_cancel (Nat.dvd_of_mod_eq_zero hstride)
      calc y * strideBits + (32 * k + i) = y * (strideBits / 32 * 32) + (32 * k + i) := by
            rw [hdiv]
        _ = 32 * (y * (strideBits / 32) + k) + i := by ring
    rw [maskBit, bitAt, hpos, Nat.mul_add_div (by norm_num), Nat.div_eq_of_lt hi, Nat.mul_add_mod,
      Nat.mod_eq_of_lt hi, Nat.mul_div_cancel_left k (by norm_num), Nat.add_zero]
    rfl
  rw [hword, maskedWord]
  split_ifs with hrem
  · rw [BitVec.getLsbD_and, getLsbD_lowMask hrem, Bool.and_comm]
    congr 2
    exact propext ⟨fun h => by omega, fun h => by omega⟩
  · have hin : 32 * k + i < width := by omega
    simp [hin]

/-- Adding up modulo a bound, step after step, is adding up and reducing once. -/
theorem foldl_add_mod {m : ℕ} (f : ℕ → ℕ) (n : ℕ) {total : ℕ} (htotal : total < m) :
    (List.range n).foldl (fun total k => (total + f k) % m) total =
      (total + ∑ k ∈ Finset.range n, f k) % m := by
  induction n with
  | zero => simp [Nat.mod_eq_of_lt htotal]
  | succ n ih =>
      rw [Scans.foldl_range_succ, ih, Finset.sum_range_succ, Nat.mod_add_mod, Nat.add_assoc]

/-- A sum over blocks of a fixed length, cut off at the width, is the sum up to the width. -/
theorem sum_blocks (f : ℕ → ℕ) (width n : ℕ) :
    ∑ k ∈ Finset.range n, ∑ i ∈ Finset.range 32,
        (if 32 * k + i < width then f (32 * k + i) else 0) =
      ∑ x ∈ Finset.range (32 * n), if x < width then f x else 0 := by
  induction n with
  | zero => simp
  | succ n ih => rw [Finset.sum_range_succ, ih, Nat.mul_succ, Finset.sum_range_add]

/-- The words of a row count the points of the row. -/
theorem sum_row {words : List (BitVec 32)} {width strideBits y : ℕ}
    (hstride : strideBits % 32 = 0) :
    ∑ k ∈ Finset.range ((width + 31) / 32),
        popcount32 (maskedWord words width strideBits y (32 * k)) =
      ∑ x ∈ Finset.range width, (maskBit words strideBits x y).toNat := by
  calc ∑ k ∈ Finset.range ((width + 31) / 32),
        popcount32 (maskedWord words width strideBits y (32 * k))
      = ∑ k ∈ Finset.range ((width + 31) / 32), ∑ i ∈ Finset.range 32,
          (if 32 * k + i < width then (maskBit words strideBits (32 * k + i) y).toNat else 0) := by
        refine Finset.sum_congr rfl ?_
        intro k hk
        have hk := Finset.mem_range.1 hk
        rw [popcount32_eq]
        refine Finset.sum_congr rfl ?_
        intro i hi
        rw [getLsbD_maskedWord hstride (by omega) (Finset.mem_range.1 hi)]
        split_ifs with hin <;> simp [hin]
    _ = ∑ x ∈ Finset.range (32 * ((width + 31) / 32)),
          (if x < width then (maskBit words strideBits x y).toNat else 0) :=
        sum_blocks (fun x => (maskBit words strideBits x y).toNat) width _
    _ = ∑ x ∈ Finset.range width, (maskBit words strideBits x y).toNat := by
        rw [← Finset.sum_filter]
        refine Finset.sum_congr ?_ fun _ _ => rfl
        ext x
        simp only [Finset.mem_filter, Finset.mem_range]
        omega

/-- **The count is the number of covered points**, whatever the padding bits hold: an accepted
mask has fewer than `2 ^ 32` points, so the 32-bit total does not wrap. -/
theorem countPackedMask_eq {words : List (BitVec 32)} {width height strideBits n : ℕ}
    (h : countPackedMask words width height strideBits = some n) :
    n = (covered words width height strideBits).card := by
  rw [countPackedMask] at h
  split_ifs at h with hguard
  push Not at hguard
  obtain ⟨hzero, -, hstride, -, -, hsize⟩ := hguard
  have haligned : strideBits % 32 = 0 := by omega
  have hcard : (covered words width height strideBits).card =
      ∑ y ∈ Finset.range height, ∑ k ∈ Finset.range ((width + 31) / 32),
        popcount32 (maskedWord words width strideBits y (32 * k)) := by
    rw [covered, Finset.card_filter, Finset.sum_product_right]
    refine Finset.sum_congr rfl ?_
    intro y _
    rw [sum_row haligned]
    refine Finset.sum_congr rfl ?_
    intro x _
    cases maskBit words strideBits x y <;> rfl
  have hle : (covered words width height strideBits).card < 2 ^ 32 := by
    calc (covered words width height strideBits).card
        ≤ (Finset.range width ×ˢ Finset.range height).card := Finset.card_filter_le _ _
      _ = height * width := by simp [Nat.mul_comm]
      _ ≤ (2 ^ 32 - 1) / width * width := Nat.mul_le_mul_right width hsize
      _ ≤ 2 ^ 32 - 1 := Nat.div_mul_le_self _ _
      _ < 2 ^ 32 := by norm_num
  have hrows : ∀ m, (List.range m).foldl (fun total y =>
      (List.range ((width + 31) / 32)).foldl (fun total k =>
        (total + popcount32 (maskedWord words width strideBits y (32 * k))) % 2 ^ 32) total) 0 =
      (∑ y ∈ Finset.range m, ∑ k ∈ Finset.range ((width + 31) / 32),
        popcount32 (maskedWord words width strideBits y (32 * k))) % 2 ^ 32 := by
    intro m
    induction m with
    | zero => simp
    | succ m ih =>
        rw [Scans.foldl_range_succ, ih, foldl_add_mod _ _ (Nat.mod_lt _ (by norm_num)),
          Finset.sum_range_succ, Nat.mod_add_mod]
  rw [← Option.some.inj h, hrows, ← hcard, Nat.mod_eq_of_lt hle]

/-- **Masks behave as sets.**  After an accepted union a bit is set iff it was set before or the
window covers it and the source bit is set; nothing outside the window changes, the padding of the
rows included; doing it again changes nothing; and the count of any mask of this shape, if its
points can be counted in 32 bits at all, is the number of its points. -/
theorem packedMask_sets
    (destination destination' source : List (BitVec 32))
    (width height strideBits sourceWidth sourceHeight sourceStrideBits offsetX offsetY : ℕ)
    (hminimal : strideBits = (width + 31) / 32 * 32)
    (hlen : destination.length = height * (strideBits / 32))
    (h : unionPackedMask destination width height strideBits source sourceWidth sourceHeight
      sourceStrideBits offsetX offsetY = some destination') :
    destination'.length = destination.length ∧
      (∀ x y, x < strideBits →
        (maskBit destination' strideBits x y = true ↔
          maskBit destination strideBits x y = true ∨
            (InWindow sourceWidth sourceHeight offsetX offsetY x y ∧
              maskBit source sourceStrideBits (x - offsetX) (y - offsetY) = true))) ∧
      (∀ x y, x < strideBits → ¬InWindow sourceWidth sourceHeight offsetX offsetY x y →
        maskBit destination' strideBits x y = maskBit destination strideBits x y) ∧
      unionPackedMask destination' width height strideBits source sourceWidth sourceHeight
        sourceStrideBits offsetX offsetY = some destination' ∧
      (width ≤ 2 ^ 32 - 1 → height ≤ (2 ^ 32 - 1) / width →
        ∀ words, countPackedMask words width height strideBits =
          some (covered words width height strideBits).card) := by
  obtain ⟨hl, hb⟩ := unionPackedMask_bits h hlen.ge
  refine ⟨hl, hb, ?_, unionPackedMask_idem h hlen.ge, ?_⟩
  · intro x y hx hout
    rw [Bool.eq_iff_iff, hb x y hx]
    simp [hout]
  · intro hwidth hheight words
    have hpos : width ≠ 0 := by
      rw [unionPackedMask] at h
      split_ifs at h
      omega
    have hrows : height ≤ (2 ^ 64 - 1) / (strideBits / 32) := by
      have hwords : strideBits / 32 ≤ 2 ^ 32 := by omega
      have hone : 0 < strideBits / 32 := by omega
      have hfew : height ≤ 2 ^ 32 - 1 := hheight.trans (Nat.div_le_self _ _)
      rw [Nat.le_div_iff_mul_le hone]
      calc height * (strideBits / 32) ≤ (2 ^ 32 - 1) * 2 ^ 32 := Nat.mul_le_mul hfew hwords
        _ ≤ 2 ^ 64 - 1 := by norm_num
    have hguard : ¬(width = 0 ∨ 2 ^ 64 - 1 - 31 < width ∨ strideBits ≠ (width + 31) / 32 * 32 ∨
        (2 ^ 64 - 1) / (strideBits / 32) < height ∨ 2 ^ 32 - 1 < width ∨
        (2 ^ 32 - 1) / width < height) := by
      push Not
      exact ⟨hpos, by omega, hminimal, hrows, hwidth, hheight⟩
    obtain ⟨n, hn⟩ : ∃ n, countPackedMask words width height strideBits = some n :=
      ⟨_, by rw [countPackedMask, if_neg hguard]⟩
    rw [hn, countPackedMask_eq hn]

/-- A three by two mask united with a two by one mask across its right edge: one bit is new, one was
there already, and the padding bit of the first row is neither changed nor counted. -/
theorem packedMask_sets_edge :
    unionPackedMask [0x80000002#32, 0x5#32] 3 2 32 [0x3#32] 2 1 32 1 1 =
        some [0x80000002#32, 0x7#32] ∧
      countPackedMask [0x80000002#32, 0x7#32] 3 2 32 =
        some (covered [0x80000002#32, 0x7#32] 3 2 32).card := by
  have hunion : unionPackedMask [0x80000002#32, 0x5#32] 3 2 32 [0x3#32] 2 1 32 1 1 =
      some [0x80000002#32, 0x7#32] := by decide
  obtain ⟨-, -, -, -, hcount⟩ := packedMask_sets _ _ _ _ _ _ _ _ _ _ _ (by norm_num) (by rfl)
    hunion
  exact ⟨hunion, hcount (by norm_num) (by norm_num) _⟩

end Fpc
