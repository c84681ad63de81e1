/-
**Warping a packed mask.**

Before the mask of a capture is united into the mask of a finger it is moved to where the capture
lies on the finger.  The warp walks over the destination with coordinates in Q20 that are advanced
by wrapping additions, reads the nearest source bit, and assembles the destination a word at a time.

A single-precision coefficient is a rational number here: multiplying it by `2 ^ 20` is exact, and a
value that is not finite fails the range check that follows.

Main definitions:

* `Fpc.q20` — a coefficient as a Q20 word;
* `Fpc.warpPackedMask` — the two loops;
* `Fpc.warpBit` — the bit that is read for a position.

Main results:

* `Fpc.warpRow_run` — what one row of the destination holds while it is being assembled;
* `Fpc.warpPackedMask_bits` — every bit of the destination, for every affine map;
* `Fpc.warpPackedMask_translation` — **an integer translation is an exact shift**.
-/

import FpcReader.Lib.Words
import FpcReader.Native.Masks
import Mathlib.Data.Fin.VecNotation
import Mathlib.Tactic.FinCases

set_option relaxedAutoImplicit false
set_option autoImplicit false

namespace Fpc

open PackedBits Words

/-- A coefficient scaled to Q20 and truncated, if the result fits a signed word. -/
def q20 (coefficient : ℚ) : Option (BitVec 32) :=
  let value := coefficient * 1048576
  if -2147483648 ≤ value ∧ value < 2147483648 then some (word 32 (value.num.tdiv value.den))
  else none

/-- The bit read for the position `(vx, vy)`: the nearest source bit, or the low bit of
`outside`. -/
def warpBit (source : List (BitVec 32)) (sourceWidth sourceHeight sourceStrideBits : ℕ)
    (outside : UInt8) (vx vy : BitVec 32) : BitVec 32 :=
  let sx := shiftFloor vx.toInt 20
  let sy := shiftFloor vy.toInt 20
  if 0 ≤ sx ∧ 0 ≤ sy ∧ sx.toNat < sourceWidth ∧ sy.toNat < sourceHeight then
    takeBit source (sy.toNat * sourceStrideBits + sx.toNat)
  else BitVec.ofNat 32 outside.toNat &&& 1#32

/-- The variables of the inner loop. -/
structure WarpRow where
  vx : BitVec 32
  vy : BitVec 32
  word : BitVec 32
  destination : List (BitVec 32)

/-- One pixel of a row: the word under construction is written out with every bit. -/
def warpPixel (bit : BitVec 32 → BitVec 32 → BitVec 32) (q0 q3 : BitVec 32) (base : ℕ)
    (s : WarpRow) (x : ℕ) : WarpRow :=
  let word := (if x % 32 = 0 then 0#32 else s.word) ||| bit s.vx s.vy <<< (x % 32)
  { vx := s.vx + q0, vy := s.vy + q3, word,
    destination := s.destination.set (base + x / 32) word }

/-- The inner loop. -/
def warpRow (bit : BitVec 32 → BitVec 32 → BitVec 32) (q0 q3 : BitVec 32) (base width : ℕ)
    (rowX rowY : BitVec 32) (destination : List (BitVec 32)) : WarpRow :=
  (List.range width).foldl (warpPixel bit q0 q3 base) ⟨rowX, rowY, 0#32, destination⟩

/-- The variables of the outer loop. -/
structure WarpRows where
  rowX : BitVec 32
  rowY : BitVec 32
  destination : List (BitVec 32)

/-- One row, and the step to the start of the next. -/
def warpNextRow (bit : BitVec 32 → BitVec 32 → BitVec 32) (q0 q1 q3 q4 : BitVec 32)
    (strideBits width : ℕ) (s : WarpRows) (y : ℕ) : WarpRows :=
  { rowX := s.rowX + q1, rowY := s.rowY + q4,
    destination :=
      (warpRow bit q0 q3 (y * (strideBits / 32)) width s.rowX s.rowY s.destination).destination }

/-- Six coefficients, numbered from zero. -/
local instance sixCoefficients : NeZero 6 := ⟨by decide⟩

/-- The warp. -/
def warpPackedMask (source : List (BitVec 32))
    (sourceWidth sourceHeight sourceStrideBits : ℕ) (destination : List (BitVec 32))
    (width height strideBits : ℕ) (affine : Fin 6 → ℚ) (outside : UInt8) :
    Option (List (BitVec 32)) :=
  if width = 0 ∨ sourceWidth = 0 ∨ sourceStrideBits % 32 ≠ 0 ∨ strideBits % 32 ≠ 0 ∨
      sourceStrideBits < sourceWidth ∨ strideBits < width ∨ strideBits = 0 ∨
      sourceStrideBits = 0 ∨ (2 ^ 64 - 1) / strideBits < height ∨
      (2 ^ 64 - 1) / sourceStrideBits < sourceHeight then none
  else do
    let q0 ← q20 (affine 0)
    let q1 ← q20 (affine 1)
    let q2 ← q20 (affine 2)
    let q3 ← q20 (affine 3)
    let q4 ← q20 (affine 4)
    let q5 ← q20 (affine 5)
    let bit := warpBit source sourceWidth sourceHeight sourceStrideBits outside
    -- half a pixel is added once, so that the shift in `warpBit` rounds to the nearest
    return ((List.range height).foldl (warpNextRow bit q0 q1 q3 q4 strideBits width)
      ⟨q2 + 0x80000#32, q5 + 0x80000#32, destination⟩).destination

/-! ### One row -/

/-- Storing a word sets all its bits and no others. -/
theorem bitAt_set {words : List (BitVec 32)} {k : ℕ} (hk : k < words.length) (v : BitVec 32)
    (j : ℕ) :
    bitAt (words.set k v) j = if j / 32 = k then v.getLsbD (j % 32) else bitAt words j := by
  rw [bitAt, List.getD_eq_getElem?_getD]
  split_ifs with h
  · rw [h, List.getElem?_set_self hk, Option.getD_some]
  · rw [List.getElem?_set_ne (Ne.symm h), ← List.getD_eq_getElem?_getD, bitAt]

/-- The end of the last word that holds one of the first `n` bits of a row. -/
def wordEnd (n : ℕ) : ℕ := (n + 31) / 32 * 32

/-- A row after `n` pixels: the coordinates have advanced `n` times, the first `n` bits hold what
`value` says, the rest of the word begun is clear, and nothing else has changed. -/
structure RowUpTo (value : ℕ → Bool) (q0 q3 rowX rowY : BitVec 32) (base n : ℕ)
    (before : List (BitVec 32)) (s : WarpRow) : Prop where
  vx : s.vx = rowX + BitVec.ofNat 32 n * q0
  vy : s.vy = rowY + BitVec.ofNat 32 n * q3
  word : n % 32 ≠ 0 →
    ∀ i < 32, s.word.getLsbD i = (decide (i < n % 32) && value (n - n % 32 + i))
  length : s.destination.length = before.length
  bits : ∀ j, bitAt s.destination j =
    if 32 * base ≤ j ∧ j < 32 * base + n then value (j - 32 * base)
    else if 32 * base ≤ j ∧ j < 32 * base + wordEnd n then false
    else bitAt before j

section Row

variable {bit : BitVec 32 → BitVec 32 → BitVec 32} {value : ℕ → Bool}
variable {q0 q3 rowX rowY : BitVec 32} {base : ℕ} {before : List (BitVec 32)}

/-- The word that is being assembled holds the bits of its pixels so far. -/
theorem RowUpTo.warpPixel_word {n : ℕ} {s : WarpRow}
    (h : RowUpTo value q0 q3 rowX rowY base n before s)
    (hbit : IsBit (bit (rowX + BitVec.ofNat 32 n * q0) (rowY + BitVec.ofNat 32 n * q3)) (value n))
    {i : ℕ} (hi : i < 32) :
    (warpPixel bit q0 q3 base s n).word.getLsbD i =
      (decide (i ≤ n % 32) && value (n - n % 32 + i)) := by
  have hmod : n % 32 ≤ n := Nat.mod_le _ _
  have hlow := hbit.shiftLeft (s := n % 32) hi
  dsimp only [warpPixel]
  rw [BitVec.getLsbD_or, h.vx, h.vy, hlow]
  by_cases hz : n % 32 = 0
  · rw [if_pos hz, hz]
    by_cases hi0 : i = 0
    · simp [hi0]
    · simp [hi0]
  · rw [if_neg hz, h.word hz i hi]
    rcases Nat.lt_trichotomy i (n % 32) with hlt | heq | hgt
    · simp [hlt, hlt.ne, hlt.le]
    · have hn : n - n % 32 + n % 32 = n := Nat.sub_add_cancel hmod
      simp [heq, hn]
    · simp [hgt.not_gt, hgt.ne', hgt.not_ge]

/-- One pixel. -/
theorem RowUpTo.next {n : ℕ} {s : WarpRow} (h : RowUpTo value q0 q3 rowX rowY base n before s)
    (hbit : IsBit (bit (rowX + BitVec.ofNat 32 n * q0) (rowY + BitVec.ofNat 32 n * q3)) (value n))
    (hfits : base + n / 32 < before.length) :
    RowUpTo value q0 q3 rowX rowY base (n + 1) before (warpPixel bit q0 q3 base s n) := by
  refine ⟨by rw [← word_advance, ← h.vx]; rfl, by rw [← word_advance, ← h.vy]; rfl, ?_, ?_, ?_⟩
  · intro hz i hi
    have h1 : (n + 1) % 32 = n % 32 + 1 := by omega
    have h2 : n + 1 - (n + 1) % 32 = n - n % 32 := by omega
    rw [h.warpPixel_word hbit hi, h1, ← h1, h2, h1]
    congr 2
    exact propext (Nat.lt_succ_iff).symm
  · rw [← h.length]
    exact List.length_set
  · intro j
    have hset : bitAt (warpPixel bit q0 q3 base s n).destination j =
        if j / 32 = base + n / 32 then (warpPixel bit q0 q3 base s n).word.getLsbD (j % 32)
        else bitAt s.destination j := bitAt_set (h.length ▸ hfits) _ j
    rw [hset]
    by_cases hj : j / 32 = base + n / 32
    · rw [if_pos hj, h.warpPixel_word hbit (Nat.mod_lt _ (by norm_num))]
      have hpos : j - 32 * base = n - n % 32 + j % 32 := by omega
      by_cases hle : j % 32 ≤ n % 32
      · rw [if_pos ⟨by omega, by omega⟩, hpos]
        simp [hle]
      · rw [if_neg (by omega), if_pos ⟨by omega, by unfold wordEnd; omega⟩]
        simp [hle]
    · -- another word: both descriptions agree there
      rw [if_neg hj, h.bits j]
      have hn : (32 * base ≤ j ∧ j < 32 * base + (n + 1)) ↔
          (32 * base ≤ j ∧ j < 32 * base + n) := by omega
      have hend : (32 * base ≤ j ∧ j < 32 * base + wordEnd (n + 1)) ↔
          (32 * base ≤ j ∧ j < 32 * base + wordEnd n) := by
        unfold wordEnd
        omega
      simp only [hn, hend]

/-- **What a row holds** once the inner loop has run `n` times. -/
theorem warpRow_run (n : ℕ)
    (hbit : ∀ x < n,
      IsBit (bit (rowX + BitVec.ofNat 32 x * q0) (rowY + BitVec.ofNat 32 x * q3)) (value x))
    (hfits : ∀ x < n, base + x / 32 < before.length) :
    RowUpTo value q0 q3 rowX rowY base n before
      (warpRow bit q0 q3 base n rowX rowY before) := by
  induction n with
  | zero =>
      refine ⟨by simp [warpRow], by simp [warpRow], by simp, rfl, fun j => ?_⟩
      have h1 : ¬(32 * base ≤ j ∧ j < 32 * base + 0) := by omega
      have h2 : ¬(32 * base ≤ j ∧ j < 32 * base + wordEnd 0) := by
        unfold wordEnd
        omega
      rw [if_neg h1, if_neg h2]
      rfl
  | succ n ih =>
      have hn := ih (fun x hx => hbit x (by omega)) (fun x hx => hfits x (by omega))
      rw [warpRow, Scans.foldl_range_succ]
      exact hn.next (hbit n (by omega)) (hfits n (by omega))

end Row

/-! ### All rows -/

/-- The value of the bit read for the position `(vx, vy)`. -/
def warpValue (source : List (BitVec 32)) (sourceWidth sourceHeight sourceStrideBits : ℕ)
    (outside : UInt8) (vx vy : BitVec 32) : Bool :=
  let sx := shiftFloor vx.toInt 20
  let sy := shiftFloor vy.toInt 20
  if 0 ≤ sx ∧ 0 ≤ sy ∧ sx.toNat < sourceWidth ∧ sy.toNat < sourceHeight then
    maskBit source sourceStrideBits sx.toNat sy.toNat
  else outside.toNat.testBit 0

theorem isBit_warpBit (source : List (BitVec 32))
    (sourceWidth sourceHeight sourceStrideBits : ℕ) (outside : UInt8) (vx vy : BitVec 32) :
    IsBit (warpBit source sourceWidth sourceHeight sourceStrideBits outside vx vy)
      (warpValue source sourceWidth sourceHeight sourceStrideBits outside vx vy) := by
  rw [warpBit, warpValue]
  split_ifs with h
  · exact isBit_takeBit _ _
  · have hbit := isBit_and_one (BitVec.ofNat 32 outside.toNat)
    have hlow : (BitVec.ofNat 32 outside.toNat).getLsbD 0 = outside.toNat.testBit 0 := by
      rw [BitVec.getLsbD_ofNat]
      rfl
    rwa [hlow] at hbit

/-- The sizes of a mask that the mask functions accept. -/
structure MaskShape (width height strideBits : ℕ) : Prop where
  nonempty : 0 < width
  aligned : strideBits % 32 = 0
  wide : width ≤ strideBits
  addressable : height ≤ (2 ^ 64 - 1) / strideBits

/-- What the destination holds after `n` rows. -/
structure RowsUpTo (value : ℕ → ℕ → Bool) (q1 q4 x0 y0 : BitVec 32) (width strideBits n : ℕ)
    (before : List (BitVec 32)) (s : WarpRows) : Prop where
  rowX : s.rowX = x0 + BitVec.ofNat 32 n * q1
  rowY : s.rowY = y0 + BitVec.ofNat 32 n * q4
  length : s.destination.length = before.length
  bits : ∀ x y, x < strideBits → maskBit s.destination strideBits x y =
    if y < n then
      if x < width then value x y
      else if x < wordEnd width then false
      else maskBit before strideBits x y
    else maskBit before strideBits x y

section Rows

variable {bit : BitVec 32 → BitVec 32 → BitVec 32} {value : ℕ → ℕ → Bool}
variable {q0 q1 q3 q4 x0 y0 : BitVec 32} {width height strideBits : ℕ} {before : List (BitVec 32)}

/-- One row. -/
theorem RowsUpTo.next {n : ℕ} {s : WarpRows}
    (h : RowsUpTo value q1 q4 x0 y0 width strideBits n before s)
    (hshape : MaskShape width height strideBits) (hn : n < height)
    (hlen : height * (strideBits / 32) ≤ before.length)
    (hbit : ∀ x, IsBit (bit (x0 + BitVec.ofNat 32 n * q1 + BitVec.ofNat 32 x * q0)
      (y0 + BitVec.ofNat 32 n * q4 + BitVec.ofNat 32 x * q3)) (value x n)) :
    RowsUpTo value q1 q4 x0 y0 width strideBits (n + 1) before
      (warpNextRow bit q0 q1 q3 q4 strideBits width s n) := by
  have haligned := hshape.aligned
  have hwide := hshape.wide
  have hbase : 32 * (n * (strideBits / 32)) = n * strideBits := by
    rw [Nat.mul_left_comm, Nat.mul_div_cancel' (Nat.dvd_of_mod_eq_zero haligned)]
  have hrow : RowUpTo (fun x => value x n) q0 q3 s.rowX s.rowY (n * (strideBits / 32)) width
      s.destination
      (warpRow bit q0 q3 (n * (strideBits / 32)) width s.rowX s.rowY s.destination) := by
    refine warpRow_run width (fun x _ => ?_) (fun x hx => ?_)
    · rw [h.rowX, h.rowY]
      exact hbit x
    · rw [h.length]
      exact lt_of_lt_of_le (grid_lt (by omega) hn) hlen
  refine ⟨by rw [← word_advance, ← h.rowX]; rfl, by rw [← word_advance, ← h.rowY]; rfl,
    hrow.length.trans h.length, ?_⟩
  intro x y hx
  have hend : wordEnd width ≤ strideBits := by
    unfold wordEnd
    omega
  have hbits := hrow.bits (y * strideBits + x)
  rw [hbase] at hbits
  have hold := h.bits x y hx
  rw [maskBit] at hold
  rw [maskBit]
  dsimp only [warpNextRow]
  rw [hbits, hold]
  -- rows before this one have been written, rows behind it have not
  rcases Nat.lt_trichotomy y n with hlt | rfl | hgt
  · have hrows : y * strideBits + strideBits ≤ n * strideBits := by
      rw [← Nat.succ_mul]
      exact Nat.mul_le_mul_right _ hlt
    rw [if_neg (by omega), if_neg (by omega), if_pos hlt, if_pos (by omega : y < n + 1)]
  · have hsub : y * strideBits + x - y * strideBits = x := by omega
    have h1 : (y * strideBits ≤ y * strideBits + x ∧
        y * strideBits + x < y * strideBits + width) ↔ x < width := by omega
    have h2 : (y * strideBits ≤ y * strideBits + x ∧
        y * strideBits + x < y * strideBits + wordEnd width) ↔ x < wordEnd width := by omega
    simp only [h1, h2, hsub, lt_irrefl, if_false, Nat.lt_succ_self, if_true]
  · have hrows : n * strideBits + strideBits ≤ y * strideBits := by
      rw [← Nat.succ_mul]
      exact Nat.mul_le_mul_right _ hgt
    rw [if_neg (by omega), if_neg (by omega), if_neg (by omega), if_neg (by omega : ¬y < n + 1)]

/-- All rows. -/
theorem warpRows_run (hshape : MaskShape width height strideBits) (n : ℕ) (hn : n ≤ height)
    (hlen : height * (strideBits / 32) ≤ before.length)
    (hbit : ∀ x y, IsBit (bit (x0 + BitVec.ofNat 32 y * q1 + BitVec.ofNat 32 x * q0)
      (y0 + BitVec.ofNat 32 y * q4 + BitVec.ofNat 32 x * q3)) (value x y)) :
    RowsUpTo value q1 q4 x0 y0 width strideBits n before
      ((List.range n).foldl (warpNextRow bit q0 q1 q3 q4 strideBits width) ⟨x0, y0, before⟩) := by
  induction n with
  | zero => exact ⟨by simp, by simp, rfl, fun x y _ => by simp⟩
  | succ n ih =>
      rw [Scans.foldl_range_succ]
      exact (ih (by omega)).next hshape hn hlen fun x => hbit x n

end Rows

section Warp

variable (source destination : List (BitVec 32))
variable (sourceWidth sourceHeight sourceStrideBits width height strideBits : ℕ)
variable (affine : Fin 6 → ℚ) (outside : UInt8)

/-- **Every bit of the destination**, for every affine map whose coefficients fit: the walk visits
the wrapped position of each point, and the words it writes hold the bits read there and zeros. -/
theorem warpPackedMask_bits (hsource : MaskShape sourceWidth sourceHeight sourceStrideBits)
    (hshape : MaskShape width height strideBits)
    (hlen : height * (strideBits / 32) ≤ destination.length)
    {q : Fin 6 → BitVec 32} (hq : ∀ i, q20 (affine i) = some (q i)) :
    ∃ destination', warpPackedMask source sourceWidth sourceHeight sourceStrideBits destination
        width height strideBits affine outside = some destination' ∧
      destination'.length = destination.length ∧
      ∀ x y, x < strideBits → maskBit destination' strideBits x y =
        if y < height then
          if x < width then
            warpValue source sourceWidth sourceHeight sourceStrideBits outside
              (q 2 + 0x80000#32 + BitVec.ofNat 32 y * q 1 + BitVec.ofNat 32 x * q 0)
              (q 5 + 0x80000#32 + BitVec.ofNat 32 y * q 4 + BitVec.ofNat 32 x * q 3)
          else if x < wordEnd width then false
          else maskBit destination strideBits x y
        else maskBit destination strideBits x y := by
  have h1 := hsource.nonempty
  have h2 := hsource.aligned
  have h3 := hsource.wide
  have h4 := hsource.addressable
  have h5 := hshape.nonempty
  have h6 := hshape.aligned
  have h7 := hshape.wide
  have h8 := hshape.addressable
  have hguard : ¬(width = 0 ∨ sourceWidth = 0 ∨ sourceStrideBits % 32 ≠ 0 ∨ strideBits % 32 ≠ 0 ∨
      sourceStrideBits < sourceWidth ∨ strideBits < width ∨ strideBits = 0 ∨
      sourceStrideBits = 0 ∨ (2 ^ 64 - 1) / strideBits < height ∨
      (2 ^ 64 - 1) / sourceStrideBits < sourceHeight) := by
    push Not
    exact ⟨by omega, by omega, h2, h6, h3, h7, by omega, by omega, h8, h4⟩
  have hrows : RowsUpTo (fun x y => warpValue source sourceWidth sourceHeight sourceStrideBits
        outside (q 2 + 0x80000#32 + BitVec.ofNat 32 y * q 1 + BitVec.ofNat 32 x * q 0)
        (q 5 + 0x80000#32 + BitVec.ofNat 32 y * q 4 + BitVec.ofNat 32 x * q 3))
      (q 1) (q 4) (q 2 + 0x80000#32) (q 5 + 0x80000#32) width strideBits height destination
      ((List.range height).foldl (warpNextRow
        (warpBit source sourceWidth sourceHeight sourceStrideBits outside)
        (q 0) (q 1) (q 3) (q 4) strideBits width)
        ⟨q 2 + 0x80000#32, q 5 + 0x80000#32, destination⟩) :=
    warpRows_run hshape height le_rfl hlen fun x y =>
      isBit_warpBit source sourceWidth sourceHeight sourceStrideBits outside _ _
  refine ⟨_, ?_, hrows.length, hrows.bits⟩
  rw [warpPackedMask, if_neg hguard]
  simp only [hq, Option.bind_eq_bind, Option.bind_some]
  rfl

end Warp

/-! ### Integer translations -/

/-- An integer coefficient that fits is scaled exactly. -/
theorem q20_intCast {n : ℤ} (hlo : -2048 ≤ n) (hhi : n < 2048) :
    q20 n = some (word 32 (n * 2 ^ 20)) := by
  have hvalue : (n : ℚ) * 1048576 = ((n * 1048576 : ℤ) : ℚ) := by push_cast; ring
  have hrange : (-2147483648 : ℚ) ≤ ((n * 1048576 : ℤ) : ℚ) ∧
      ((n * 1048576 : ℤ) : ℚ) < 2147483648 := by
    constructor
    · exact_mod_cast (by omega : (-2147483648 : ℤ) ≤ n * 1048576)
    · exact_mod_cast (by omega : n * 1048576 < 2147483648)
  rw [q20, hvalue, if_pos hrange, Rat.num_intCast, Rat.den_intCast, Nat.cast_one, Int.tdiv_one]
  norm_num

/-- The position the walk has reached at `k` on an axis moved by `t`, read back and rounded to the
nearest pixel: no wrapped sum leaves the signed range. -/
theorem shiftFloor_position {t : ℤ} {k : ℕ} (hlo : -1023 ≤ t) (hhi : t ≤ 1023) (hk : k < 1024)
    (other : ℕ) :
    shiftFloor (word 32 (t * 2 ^ 20) + 0x80000#32 + BitVec.ofNat 32 other * word 32 (0 * 2 ^ 20) +
        BitVec.ofNat 32 k * word 32 (1 * 2 ^ 20)).toInt 20 = k + t := by
  have hnat : ∀ m : ℕ, BitVec.ofNat 32 m = word 32 (m : ℤ) := fun m =>
    (BitVec.ofInt_natCast 32 m).symm
  have hhalf : (0x80000#32 : BitVec 32) = word 32 (2 ^ 19) := rfl
  rw [hnat k, hnat other, hhalf, word_mul, word_mul, word_add, word_add, word_add,
    toInt_word (by norm_num) (by norm_num; omega) (by norm_num; omega), shiftFloor_eq]
  norm_num
  omega

/-- **Warping by an integer translation is an exact shift**: the warp succeeds, every point of the
destination is the translated source bit or, outside the source, the low bit of `outside`, the bits
of a row's last word beyond the width are clear, and nothing else changes. -/
theorem warpPackedMask_translation (source destination : List (BitVec 32))
    (sourceWidth sourceHeight sourceStrideBits width height strideBits : ℕ) (tx ty : ℤ)
    (outside : UInt8) (hsource : MaskShape sourceWidth sourceHeight sourceStrideBits)
    (hshape : MaskShape width height strideBits) (hwidth : width ≤ 1024) (hheight : height ≤ 1024)
    (hlen : height * (strideBits / 32) ≤ destination.length) (htx : |tx| ≤ 1023)
    (hty : |ty| ≤ 1023) :
    ∃ destination', warpPackedMask source sourceWidth sourceHeight sourceStrideBits destination
        width height strideBits ![1, 0, tx, 0, 1, ty] outside = some destination' ∧
      destination'.length = destination.length ∧
      (∀ x y, x < width → y < height → maskBit destination' strideBits x y =
        if 0 ≤ x + tx ∧ 0 ≤ y + ty ∧ x + tx < sourceWidth ∧ y + ty < sourceHeight then
          maskBit source sourceStrideBits (x + tx).toNat (y + ty).toNat
        else outside.toNat.testBit 0) ∧
      (∀ x y, width ≤ x → x < wordEnd width → y < height →
        maskBit destination' strideBits x y = false) ∧
      (∀ x y, wordEnd width ≤ x → x < strideBits →
        maskBit destination' strideBits x y = maskBit destination strideBits x y) := by
  obtain ⟨htx1, htx2⟩ := abs_le.1 htx
  obtain ⟨hty1, hty2⟩ := abs_le.1 hty
  have hq : ∀ i, q20 ((![1, 0, tx, 0, 1, ty] : Fin 6 → ℚ) i) =
      some ((![word 32 (1 * 2 ^ 20), word 32 (0 * 2 ^ 20), word 32 (tx * 2 ^ 20),
        word 32 (0 * 2 ^ 20), word 32 (1 * 2 ^ 20), word 32 (ty * 2 ^ 20)] : Fin 6 → BitVec 32) i)
      := by
    have h0 := q20_intCast (n := 0) (by norm_num) (by norm_num)
    have h1 := q20_intCast (n := 1) (by norm_num) (by norm_num)
    rw [Int.cast_zero] at h0
    rw [Int.cast_one] at h1
    have hx := q20_intCast (n := tx) (by omega) (by omega)
    have hy := q20_intCast (n := ty) (by omega) (by omega)
    intro i
    fin_cases i
    · exact h1
    · exact h0
    · exact hx
    · exact h0
    · exact h1
    · exact hy
  obtain ⟨destination', hrun, hl, hbits⟩ := warpPackedMask_bits source destination sourceWidth
    sourceHeight sourceStrideBits width height strideBits _ outside hsource hshape hlen hq
  have hend : width ≤ wordEnd width ∧ wordEnd width ≤ strideBits := by
    have haligned := hshape.aligned
    have hwide := hshape.wide
    unfold wordEnd
    omega
  have hcomm : ∀ a b c : BitVec 32, a + b + c = a + c + b := by
    intro a b c
    rw [BitVec.add_assoc, BitVec.add_comm b, BitVec.add_assoc]
  refine ⟨destination', hrun, hl, ?_, ?_, ?_⟩
  · intro x y hx hy
    rw [hbits x y (by omega), if_pos hy, if_pos hx]
    simp only [Matrix.cons_val]
    rw [warpValue, shiftFloor_position htx1 htx2 (by omega) y, hcomm (word 32 _ + _),
      shiftFloor_position hty1 hty2 (by omega) x]
    have hiff : ∀ (z : ℤ) (n : ℕ), 0 ≤ z → (z.toNat < n ↔ z < n) := by
      intro z n hz
      omega
    refine if_congr ?_ rfl rfl
    constructor
    · rintro ⟨h1, h2, h3, h4⟩
      exact ⟨h1, h2, (hiff _ _ h1).1 h3, (hiff _ _ h2).1 h4⟩
    · rintro ⟨h1, h2, h3, h4⟩
      exact ⟨h1, h2, (hiff _ _ h1).2 h3, (hiff _ _ h2).2 h4⟩
  · intro x y hx hx' hy
    rw [hbits x y (by omega), if_pos hy, if_neg (by omega), if_pos hx']
  · intro x y hx hx'
    rw [hbits x y hx', if_neg (by omega : ¬x < width), if_neg (by omega : ¬x < wordEnd width),
      ite_self]

/-- A three by one mask moved by one to the left: the last point falls outside. -/
theorem warpPackedMask_translation_left :
    ∃ destination', warpPackedMask [0x6#32] 3 1 32 [0xffffffff#32] 3 1 32 ![1, 0, 1, 0, 1, 0] 0 =
        some destination' ∧ maskBit destination' 32 0 0 = true ∧
      maskBit destination' 32 2 0 = false ∧ maskBit destination' 32 3 0 = false := by
  obtain ⟨destination', hrun, -, hbits, hpad, -⟩ := warpPackedMask_translation [0x6#32]
    [0xffffffff#32] 3 1 32 3 1 32 1 0 0 ⟨by norm_num, by norm_num, by norm_num, by norm_num⟩
    ⟨by norm_num, by norm_num, by norm_num, by norm_num⟩ (by norm_num) (by norm_num) (by simp)
    (by norm_num) (by norm_num)
  refine ⟨destination', by simpa using hrun, ?_, ?_, hpad 3 0 (by norm_num) (by decide)
    (by norm_num)⟩
  · exact (hbits 0 0 (by norm_num) (by norm_num)).trans (by decide)
  · exact (hbits 2 0 (by norm_num) (by norm_num)).trans (by decide)

end Fpc
