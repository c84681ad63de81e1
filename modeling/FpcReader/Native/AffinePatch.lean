/-
**Sampling a patch through an affine map.**

A descriptor is computed on a patch that is read from the image through a Q15 affine map.  The
coordinates are advanced by wrapping additions and read back as signed numbers, so they may leave
the image and come back; the function therefore walks over all positions twice, the first time only
to check that each has its four neighbours, and writes on the second walk.

Main definitions:

* `Fpc.bilinear` — one pixel in 32-bit arithmetic;
* `Fpc.samplePass` — one walk over the patch, checking or writing;
* `Fpc.sampleAffineQ15` — the function: its status and the patch it leaves.

Main results:

* `Fpc.bilinear_eq` — the 32-bit arithmetic of a pixel is exact, and the pixel is at most the
  largest of its neighbours;
* `Fpc.samplePass_run` — a walk stops exactly when some position lacks a neighbour;
* `Fpc.sampleAffineQ15_all_or_nothing` — **sampling is all or nothing**.
-/

import FpcReader.Lib.Loops
import FpcReader.Lib.PackedBits
import FpcReader.Lib.Words
import Mathlib.Data.Fin.VecNotation
import Mathlib.Tactic.Ring

set_option relaxedAutoImplicit false
set_option autoImplicit false

namespace Fpc

open Words

/-! ### The source's functions -/

/-- The position `(qx, qy)` has its four neighbours inside the image. -/
def hasNeighbors (width height : ℕ) (qx qy : BitVec 32) : Bool :=
  let ix := shiftFloor qx.toInt 15
  let iy := shiftFloor qy.toInt 15
  !(decide (ix < 0) || decide (iy < 0) || decide (width - 1 ≤ ix.toNat) ||
    decide (height - 1 ≤ iy.toNat))

/-- The address of the pixel a position lies in. -/
def pixelAddress (stride : ℕ) (qx qy : BitVec 32) : ℕ :=
  (shiftFloor qy.toInt 15).toNat * stride + (shiftFloor qx.toInt 15).toNat

/-- The value of the pixel at an address. -/
def sourceAt (source : List UInt8) (address : ℕ) : ℕ := (source.getD address 0).toNat

/-- The pixel at an address of the image. -/
def pixelAt (source : List UInt8) (address : ℕ) : BitVec 32 :=
  BitVec.ofNat 32 (sourceAt source address)

/-- One pixel of the patch, in 32-bit arithmetic. -/
def bilinear (source : List UInt8) (stride : ℕ) (qx qy : BitVec 32) : UInt8 :=
  let fx := qx &&& 0x7fff#32
  let fy := qy &&& 0x7fff#32
  let w00 := ((32768#32 - fx) * (32768#32 - fy)) >>> 15
  let w10 := (fx * (32768#32 - fy)) >>> 15
  let w01 := ((32768#32 - fx) * fy) >>> 15
  let w11 := (fx * fy) >>> 15
  let pixel := pixelAddress stride qx qy
  UInt8.ofNat ((pixelAt source pixel * w00 + pixelAt source (pixel + 1) * w10 +
    pixelAt source (pixel + stride) * w01 + pixelAt source (pixel + stride + 1) * w11) >>> 15).toNat

/-- The variables of the inner loop. -/
structure SampleRow where
  qx : BitVec 32
  qy : BitVec 32
  patch : List UInt8

/-- One position: it stops the walk when a neighbour is missing, and is written on the second
walk. -/
def samplePixel (pass : Bool) (source : List UInt8) (width height stride : ℕ) (a0 a3 : BitVec 32)
    (base : ℕ) (s : SampleRow) (px : ℕ) : Except (List UInt8) SampleRow :=
  if hasNeighbors width height s.qx s.qy then
    .ok { qx := s.qx + a0, qy := s.qy + a3,
          patch := if pass then s.patch.set (base + px) (bilinear source stride s.qx s.qy)
            else s.patch }
  else .error s.patch

/-- The variables of the outer loop. -/
structure SampleRows where
  rowX : BitVec 32
  rowY : BitVec 32
  patch : List UInt8

/-- One row of the patch. -/
def sampleNextRow (pass : Bool) (source : List UInt8) (width height stride patchWidth : ℕ)
    (affine : Fin 6 → BitVec 32) (s : SampleRows) (py : ℕ) : Except (List UInt8) SampleRows := do
  let row ← (List.range patchWidth).foldlM
    (samplePixel pass source width height stride (affine 0) (affine 3) (py * patchWidth))
    ⟨s.rowX, s.rowY, s.patch⟩
  return { rowX := s.rowX + affine 1, rowY := s.rowY + affine 4, patch := row.patch }

/-- One walk over the patch. -/
def samplePass (pass : Bool) (source : List UInt8) (width height stride : ℕ)
    (patch : List UInt8) (patchWidth patchHeight : ℕ) (affine : Fin 6 → BitVec 32) :
    Except (List UInt8) SampleRows :=
  (List.range patchHeight).foldlM
    (sampleNextRow pass source width height stride patchWidth affine) ⟨affine 2, affine 5, patch⟩

/-- The function: its status, and the patch as it leaves it. -/
def sampleAffineQ15 (source : List UInt8) (width height stride : ℕ) (patch : List UInt8)
    (patchWidth patchHeight : ℕ) (affine : Fin 6 → BitVec 32) : ℤ × List UInt8 :=
  if width < 2 ∨ height < 2 ∨ stride < width ∨ patchWidth = 0 ∨ patchHeight = 0 ∨
      (2 ^ 64 - 1) / stride < height ∨ (2 ^ 64 - 1) / patchWidth < patchHeight then (-1, patch)
  else
    -- the first walk only looks for missing neighbours, the second one writes
    let walks := do
      let first ← samplePass false source width height stride patch patchWidth patchHeight affine
      samplePass true source width height stride first.patch patchWidth patchHeight affine
    match walks with
    | .ok last => (0, last.patch)
    | .error left => (-1, left)

/-! ### One pixel -/

/-- A weight of the interpolation. -/
def weight (a b : ℕ) : ℕ := a * b / 2 ^ 15

/-- The weighted sum of the four neighbours, for the fractions `fx` and `fy`. -/
def bilinearSum (p00 p10 p01 p11 fx fy : ℕ) : ℕ :=
  p00 * weight (32768 - fx) (32768 - fy) + p10 * weight fx (32768 - fy) +
    p01 * weight (32768 - fx) fy + p11 * weight fx fy

/-- The truncated weights add up to at most one. -/
theorem weight_sum_le {fx fy : ℕ} (hx : fx ≤ 32768) (hy : fy ≤ 32768) :
    weight (32768 - fx) (32768 - fy) + weight fx (32768 - fy) + weight (32768 - fx) fy +
      weight fx fy ≤ 32768 := by
  have hprod : (32768 - fx) * (32768 - fy) + fx * (32768 - fy) + (32768 - fx) * fy + fx * fy =
      32768 * 32768 := by
    calc (32768 - fx) * (32768 - fy) + fx * (32768 - fy) + (32768 - fx) * fy + fx * fy
        = (32768 - fx + fx) * (32768 - fy + fy) := by ring
      _ = 32768 * 32768 := by rw [Nat.sub_add_cancel hx, Nat.sub_add_cancel hy]
  have h1 := Nat.div_mul_le_self ((32768 - fx) * (32768 - fy)) (2 ^ 15)
  have h2 := Nat.div_mul_le_self (fx * (32768 - fy)) (2 ^ 15)
  have h3 := Nat.div_mul_le_self ((32768 - fx) * fy) (2 ^ 15)
  have h4 := Nat.div_mul_le_self (fx * fy) (2 ^ 15)
  simp only [weight]
  omega

/-- The weighted sum is at most the largest neighbour at full weight. -/
theorem bilinearSum_le {p00 p10 p01 p11 fx fy m : ℕ} (hx : fx ≤ 32768) (hy : fy ≤ 32768)
    (h00 : p00 ≤ m) (h10 : p10 ≤ m) (h01 : p01 ≤ m) (h11 : p11 ≤ m) :
    bilinearSum p00 p10 p01 p11 fx fy ≤ m * 32768 := by
  calc bilinearSum p00 p10 p01 p11 fx fy
      ≤ m * weight (32768 - fx) (32768 - fy) + m * weight fx (32768 - fy) +
          m * weight (32768 - fx) fy + m * weight fx fy := by
        rw [bilinearSum]
        gcongr
    _ = m * (weight (32768 - fx) (32768 - fy) + weight fx (32768 - fy) +
          weight (32768 - fx) fy + weight fx fy) := by ring
    _ ≤ m * 32768 := Nat.mul_le_mul_left m (weight_sum_le hx hy)

/-- The fraction of a Q15 coordinate. -/
def fraction (q : BitVec 32) : ℕ := q.toNat % 32768

theorem fraction_lt (q : BitVec 32) : fraction q < 32768 := Nat.mod_lt _ (by norm_num)

theorem toNat_fraction (q : BitVec 32) : (q &&& 0x7fff#32).toNat = fraction q := by
  rw [BitVec.toNat_and]
  exact Nat.and_two_pow_sub_one_eq_mod q.toNat 15

theorem toNat_complement (q : BitVec 32) :
    (32768#32 - (q &&& 0x7fff#32)).toNat = 32768 - fraction q := by
  have hlt := fraction_lt q
  have hle : q &&& 0x7fff#32 ≤ 32768#32 := by
    rw [BitVec.le_def, toNat_fraction]
    exact hlt.le
  rw [BitVec.toNat_sub_of_le hle, toNat_fraction]
  rfl

/-- No product of two Q15 factors leaves the word. -/
theorem toNat_weight {a b : BitVec 32} (ha : a.toNat ≤ 32768) (hb : b.toNat ≤ 32768) :
    ((a * b) >>> 15).toNat = weight a.toNat b.toNat := by
  have hle : a.toNat * b.toNat ≤ 32768 * 32768 := Nat.mul_le_mul ha hb
  rw [BitVec.toNat_ushiftRight, BitVec.toNat_mul, Nat.mod_eq_of_lt (by omega),
    Nat.shiftRight_eq_div_pow, weight]

theorem toNat_pixelAt (source : List UInt8) (address : ℕ) :
    (pixelAt source address).toNat = sourceAt source address := by
  have hlt : sourceAt source address < 256 := UInt8.toNat_lt _
  rw [pixelAt, BitVec.toNat_ofNat, Nat.mod_eq_of_lt (by omega)]

/-- The largest of the four neighbours of an address. -/
def neighborMax (source : List UInt8) (stride address : ℕ) : ℕ :=
  max (max (sourceAt source address) (sourceAt source (address + 1)))
    (max (sourceAt source (address + stride)) (sourceAt source (address + stride + 1)))

/-- The weighted sum of the four neighbours of an address. -/
def neighborSum (source : List UInt8) (stride address fx fy : ℕ) : ℕ :=
  bilinearSum (sourceAt source address) (sourceAt source (address + 1))
    (sourceAt source (address + stride)) (sourceAt source (address + stride + 1)) fx fy

theorem neighborSum_le (source : List UInt8) (stride address : ℕ) {fx fy : ℕ}
    (hx : fx ≤ 32768) (hy : fy ≤ 32768) :
    neighborSum source stride address fx fy ≤ neighborMax source stride address * 32768 :=
  bilinearSum_le hx hy (le_max_of_le_left (le_max_left _ _))
    (le_max_of_le_left (le_max_right _ _)) (le_max_of_le_right (le_max_left _ _))
    (le_max_of_le_right (le_max_right _ _))

theorem neighborMax_lt (source : List UInt8) (stride address : ℕ) :
    neighborMax source stride address < 256 := by
  have h : ∀ a, sourceAt source a < 256 := fun a => UInt8.toNat_lt _
  exact max_lt (max_lt (h _) (h _)) (max_lt (h _) (h _))

/-- Four summands whose sum fits a word, reduced at every step. -/
theorem sum_mod_exact {a b c d : ℕ} (h : a + b + c + d < 2 ^ 32) :
    (((a % 2 ^ 32 + b % 2 ^ 32) % 2 ^ 32 + c % 2 ^ 32) % 2 ^ 32 + d % 2 ^ 32) % 2 ^ 32 =
      a + b + c + d := by
  simp only [Nat.mod_add_mod, Nat.add_mod_mod]
  exact Nat.mod_eq_of_lt h

/-- **The arithmetic of a pixel is exact**: no product and no sum leaves 32 bits, and the pixel is
the truncated bilinear value. -/
theorem bilinear_eq (source : List UInt8) (stride : ℕ) (qx qy : BitVec 32) :
    neighborSum source stride (pixelAddress stride qx qy) (fraction qx) (fraction qy) < 2 ^ 32 ∧
      (bilinear source stride qx qy).toNat =
        neighborSum source stride (pixelAddress stride qx qy) (fraction qx) (fraction qy) /
          2 ^ 15 ∧
      (bilinear source stride qx qy).toNat ≤
        neighborMax source stride (pixelAddress stride qx qy) := by
  set address := pixelAddress stride qx qy with haddress
  have hfx := fraction_lt qx
  have hfy := fraction_lt qy
  have hsum := neighborSum_le source stride address hfx.le hfy.le
  have hmax := neighborMax_lt source stride address
  have hlt : neighborSum source stride address (fraction qx) (fraction qy) < 2 ^ 32 := by omega
  have hword : (bilinear source stride qx qy).toNat =
      neighborSum source stride address (fraction qx) (fraction qy) / 2 ^ 15 % 256 := by
    rw [bilinear, ← haddress, UInt8.toNat_ofNat', BitVec.toNat_ushiftRight,
      Nat.shiftRight_eq_div_pow]
    rw [BitVec.toNat_add, BitVec.toNat_add, BitVec.toNat_add, BitVec.toNat_mul, BitVec.toNat_mul,
      BitVec.toNat_mul, BitVec.toNat_mul]
    rw [toNat_weight, toNat_weight, toNat_weight, toNat_weight]
    · simp only [toNat_pixelAt, toNat_complement, toNat_fraction]
      rw [neighborSum, bilinearSum] at hlt ⊢
      rw [sum_mod_exact hlt]
    all_goals
      simp only [toNat_complement, toNat_fraction]
      omega
  refine ⟨by omega, ?_, ?_⟩
  · rw [hword]
    omega
  · rw [hword]
    omega

/-! ### One walk -/

/-- The horizontal coordinate of position `(px, py)`. -/
def positionX (affine : Fin 6 → BitVec 32) (px py : ℕ) : BitVec 32 :=
  affine 2 + BitVec.ofNat 32 py * affine 1 + BitVec.ofNat 32 px * affine 0

/-- The vertical coordinate of position `(px, py)`. -/
def positionY (affine : Fin 6 → BitVec 32) (px py : ℕ) : BitVec 32 :=
  affine 5 + BitVec.ofNat 32 py * affine 4 + BitVec.ofNat 32 px * affine 3

/-- A patch whose first `m` pixels have been walked over: nothing has been written on the first
walk, and exactly these pixels on the second. -/
structure PatchUpTo (pass : Bool) (before : List UInt8) (value : ℕ → UInt8) (m : ℕ)
    (patch : List UInt8) : Prop where
  length : patch.length = before.length
  checked : pass = false → patch = before
  written : pass = true → ∀ j, patch.getD j 0 = if j < m then value j else before.getD j 0

theorem PatchUpTo.next {pass : Bool} {before patch : List UInt8} {value : ℕ → UInt8} {m : ℕ}
    (h : PatchUpTo pass before value m patch) (hm : m < before.length) :
    PatchUpTo pass before value (m + 1)
      (if pass then patch.set m (value m) else patch) := by
  cases pass with
  | false =>
      refine ⟨h.length, h.checked, fun hpass => ?_⟩
      cases hpass
  | true =>
      refine ⟨by simp [h.length], fun hpass => ?_, fun _ j => ?_⟩
      · cases hpass
      · rw [if_pos rfl, List.getD_eq_getElem?_getD, List.getElem?_set]
        rcases Nat.lt_trichotomy j m with hlt | rfl | hgt
        · rw [if_neg (by omega), ← List.getD_eq_getElem?_getD, h.written rfl, if_pos hlt,
            if_pos (by omega)]
        · rw [if_pos rfl, if_pos (h.length ▸ hm), if_pos (by omega)]
          rfl
        · rw [if_neg (by omega), ← List.getD_eq_getElem?_getD, h.written rfl,
            if_neg (by omega), if_neg (by omega)]

section Walk

variable (pass : Bool) (source : List UInt8) (width height stride : ℕ)
variable (affine : Fin 6 → BitVec 32) {patchWidth patchHeight : ℕ} {before : List UInt8}

/-- What the second walk writes at pixel `j` of the patch. -/
def patchValue (source : List UInt8) (stride patchWidth : ℕ) (affine : Fin 6 → BitVec 32)
    (j : ℕ) : UInt8 :=
  bilinear source stride (positionX affine (j % patchWidth) (j / patchWidth))
    (positionY affine (j % patchWidth) (j / patchWidth))

/-- Position `(px, py)` of the patch has its four neighbours inside the image: the pixel it falls
in and the next one in both directions exist. -/
def PositionInside (width height : ℕ) (affine : Fin 6 → BitVec 32) (px py : ℕ) : Prop :=
  0 ≤ (positionX affine px py).toInt / 2 ^ 15 ∧ 0 ≤ (positionY affine px py).toInt / 2 ^ 15 ∧
    (positionX affine px py).toInt / 2 ^ 15 + 1 < width ∧
    (positionY affine px py).toInt / 2 ^ 15 + 1 < height

instance (width height : ℕ) (affine : Fin 6 → BitVec 32) (px py : ℕ) :
    Decidable (PositionInside width height affine px py) :=
  inferInstanceAs (Decidable (_ ∧ _ ∧ _ ∧ _))

/-- The check of the source, with its unsigned bounds, is that position check. -/
theorem hasNeighbors_iff (width height : ℕ) (affine : Fin 6 → BitVec 32) (px py : ℕ) :
    hasNeighbors width height (positionX affine px py) (positionY affine px py) = true ↔
      PositionInside width height affine px py := by
  rw [PositionInside, hasNeighbors]
  simp only [shiftFloor_eq, Bool.not_eq_true', Bool.or_eq_false_iff, decide_eq_false_iff_not]
  omega

/-- The variables of the inner loop before position `(px, py)`. -/
structure AtPosition (pass : Bool) (source : List UInt8) (stride patchWidth : ℕ)
    (affine : Fin 6 → BitVec 32) (before : List UInt8) (py px : ℕ) (s : SampleRow) : Prop where
  qx : s.qx = positionX affine px py
  qy : s.qy = positionY affine px py
  patch : PatchUpTo pass before (patchValue source stride patchWidth affine)
    (py * patchWidth + px) s.patch

/-- One position of a walk: it stops the walk exactly when a neighbour is missing. -/
theorem samplePixel_run {py px : ℕ} {s : SampleRow} (hpy : py < patchHeight)
    (hpx : px < patchWidth) (hlen : patchHeight * patchWidth ≤ before.length)
    (h : AtPosition pass source stride patchWidth affine before py px s) :
    (PositionInside width height affine px py ∧
        ∃ t, samplePixel pass source width height stride (affine 0) (affine 3) (py * patchWidth) s
            px = .ok t ∧
          AtPosition pass source stride patchWidth affine before py (px + 1) t) ∨
      (¬PositionInside width height affine px py ∧
        ∃ left, samplePixel pass source width height stride (affine 0) (affine 3)
          (py * patchWidth) s px = .error left ∧ (pass = false → left = before)) := by
  rw [samplePixel, h.qx, h.qy]
  by_cases hin : hasNeighbors width height (positionX affine px py) (positionY affine px py) = true
  · refine Or.inl ⟨(hasNeighbors_iff _ _ _ _ _).1 hin, _, if_pos hin,
      ⟨word_advance _ _ _, word_advance _ _ _, ?_⟩⟩
    have hlt := PackedBits.grid_lt hpx hpy
    have hpos : 0 < patchWidth := by omega
    have hvalue : patchValue source stride patchWidth affine (py * patchWidth + px) =
        bilinear source stride (positionX affine px py) (positionY affine px py) := by
      rw [patchValue, Nat.mul_comm, Nat.mul_add_mod, Nat.mod_eq_of_lt hpx, Nat.mul_add_div hpos,
        Nat.div_eq_of_lt hpx, Nat.add_zero]
    have hnext := h.patch.next (by omega)
    rw [hvalue] at hnext
    exact hnext
  · exact Or.inr ⟨fun h => hin ((hasNeighbors_iff _ _ _ _ _).2 h), s.patch, if_neg hin,
      h.patch.checked⟩

/-- The variables of the outer loop before row `py`. -/
structure AtRow (pass : Bool) (source : List UInt8) (stride patchWidth : ℕ)
    (affine : Fin 6 → BitVec 32) (before : List UInt8) (py : ℕ) (s : SampleRows) : Prop where
  rowX : s.rowX = affine 2 + BitVec.ofNat 32 py * affine 1
  rowY : s.rowY = affine 5 + BitVec.ofNat 32 py * affine 4
  patch : PatchUpTo pass before (patchValue source stride patchWidth affine) (py * patchWidth)
    s.patch

/-- One row of a walk. -/
theorem sampleNextRow_run {py : ℕ} {s : SampleRows} (hpy : py < patchHeight)
    (hlen : patchHeight * patchWidth ≤ before.length)
    (h : AtRow pass source stride patchWidth affine before py s) :
    ((∀ px < patchWidth, PositionInside width height affine px py) ∧
        ∃ t, sampleNextRow pass source width height stride patchWidth affine s py = .ok t ∧
          AtRow pass source stride patchWidth affine before (py + 1) t) ∨
      (¬(∀ px < patchWidth, PositionInside width height affine px py) ∧
        ∃ left, sampleNextRow pass source width height stride patchWidth affine s py =
          .error left ∧ (pass = false → left = before)) := by
  have hstart : AtPosition pass source stride patchWidth affine before py 0
      ⟨s.rowX, s.rowY, s.patch⟩ :=
    ⟨by simp [positionX, h.rowX], by simp [positionY, h.rowY], h.patch⟩
  rcases Loops.foldlM_range (AtPosition pass source stride patchWidth affine before py)
    (fun px => PositionInside width height affine px py) (fun left => pass = false → left = before)
    hstart (fun px hpx t ht => samplePixel_run pass source width height stride affine hpy hpx hlen
      ht) with ⟨hgood, t, ht, hlast⟩ | ⟨hbad, left, hleft, hstop⟩
  · refine Or.inl ⟨hgood, _, by rw [sampleNextRow, ht]; rfl, ⟨?_, ?_, ?_⟩⟩
    · rw [← word_advance, ← h.rowX]
    · rw [← word_advance, ← h.rowY]
    · rw [Nat.succ_mul]
      exact hlast.patch
  · exact Or.inr ⟨hbad, left, by rw [sampleNextRow, hleft]; rfl, hstop⟩

/-- **A walk stops exactly when some position lacks a neighbour**; the first walk leaves the patch
alone either way, and the second has written every pixel when it ends. -/
theorem samplePass_run (hlen : patchHeight * patchWidth ≤ before.length) :
    ((∀ py < patchHeight, ∀ px < patchWidth, PositionInside width height affine px py) ∧
        ∃ t, samplePass pass source width height stride before patchWidth patchHeight affine =
            .ok t ∧
          PatchUpTo pass before (patchValue source stride patchWidth affine)
            (patchHeight * patchWidth) t.patch) ∨
      (¬(∀ py < patchHeight, ∀ px < patchWidth, PositionInside width height affine px py) ∧
        ∃ left, samplePass pass source width height stride before patchWidth patchHeight affine =
          .error left ∧ (pass = false → left = before)) := by
  have hstart : AtRow pass source stride patchWidth affine before 0
      ⟨affine 2, affine 5, before⟩ :=
    ⟨by simp, by simp, ⟨rfl, fun _ => rfl, fun _ j => by simp⟩⟩
  rcases Loops.foldlM_range (AtRow pass source stride patchWidth affine before)
    (fun py => ∀ px < patchWidth, PositionInside width height affine px py)
    (fun left => pass = false → left = before) hstart
    (fun py hpy t ht => sampleNextRow_run pass source width height stride affine hpy hlen ht) with
    ⟨hgood, t, ht, hlast⟩ | hbad
  · exact Or.inl ⟨hgood, t, ht, hlast.patch⟩
  · exact Or.inr hbad

end Walk

/-! ### The two walks -/

/-- The addresses read for a position inside the image lie inside the image. -/
theorem pixelAddress_lt {width height stride : ℕ} {affine : Fin 6 → BitVec 32} {px py : ℕ}
    (hstride : width ≤ stride) (h : PositionInside width height affine px py) :
    pixelAddress stride (positionX affine px py) (positionY affine px py) + stride + 1 <
      height * stride := by
  obtain ⟨hx, hy, hx', hy'⟩ := h
  rw [pixelAddress, shiftFloor_eq, shiftFloor_eq]
  have hlt := PackedBits.grid_lt (s := stride) (n := height)
    (x := ((positionX affine px py).toInt / 2 ^ 15).toNat + 1)
    (y := ((positionY affine px py).toInt / 2 ^ 15).toNat + 1) (by omega) (by omega)
  rw [Nat.succ_mul] at hlt
  omega

/-- **Sampling is all or nothing.**  The function returns zero exactly when every position of the
patch has its four neighbours inside the image.  Then every pixel it reads lies inside the image, no
weight or sum leaves 32 bits, and every pixel of the patch is the truncated bilinear value, which is
at most the largest of its four neighbours.  Otherwise it returns `-1` and the patch is
unchanged. -/
theorem sampleAffineQ15_all_or_nothing (source : List UInt8) (width height stride : ℕ)
    (patch : List UInt8) (patchWidth patchHeight : ℕ) (affine : Fin 6 → BitVec 32)
    (hstride : width ≤ stride) (hsize : height ≤ (2 ^ 64 - 1) / stride)
    (hwidth : 0 < patchWidth) (hheight : 0 < patchHeight)
    (hpatch : patchHeight ≤ (2 ^ 64 - 1) / patchWidth)
    (hlen : patchHeight * patchWidth ≤ patch.length) :
    ((sampleAffineQ15 source width height stride patch patchWidth patchHeight affine).1 = 0 ↔
        ∀ py < patchHeight, ∀ px < patchWidth, PositionInside width height affine px py) ∧
      ((sampleAffineQ15 source width height stride patch patchWidth patchHeight affine).1 = 0 →
        ∀ py < patchHeight, ∀ px < patchWidth,
          let qx := positionX affine px py
          let qy := positionY affine px py
          let address := pixelAddress stride qx qy
          let value := neighborSum source stride address (fraction qx) (fraction qy)
          let pixel := ((sampleAffineQ15 source width height stride patch patchWidth patchHeight
            affine).2.getD (py * patchWidth + px) 0).toNat
          address + stride + 1 < height * stride ∧ value < 2 ^ 32 ∧ pixel = value / 2 ^ 15 ∧
            pixel ≤ neighborMax source stride address) ∧
      ((sampleAffineQ15 source width height stride patch patchWidth patchHeight affine).1 ≠ 0 →
        sampleAffineQ15 source width height stride patch patchWidth patchHeight affine =
          (-1, patch)) := by
  by_cases hsmall : width < 2 ∨ height < 2
  · -- no position can have four neighbours
    have hrun : sampleAffineQ15 source width height stride patch patchWidth patchHeight affine =
        (-1, patch) := by
      rw [sampleAffineQ15, if_pos]
      tauto
    rw [hrun]
    refine ⟨⟨fun h => absurd h (by norm_num), fun h => ?_⟩, fun h => absurd h (by norm_num),
      fun _ => rfl⟩
    obtain ⟨hx, hy, hx', hy'⟩ := h 0 hheight 0 hwidth
    omega
  · have hguard : ¬(width < 2 ∨ height < 2 ∨ stride < width ∨ patchWidth = 0 ∨ patchHeight = 0 ∨
        (2 ^ 64 - 1) / stride < height ∨ (2 ^ 64 - 1) / patchWidth < patchHeight) := by
      push Not at hsmall ⊢
      exact ⟨hsmall.1, hsmall.2, hstride, hwidth.ne', hheight.ne', hsize, hpatch⟩
    -- both walks visit the same positions, so the second one cannot fail where the first did not
    rcases samplePass_run false source width height stride affine hlen with
      ⟨hgood, first, hfirst, hunwritten⟩ | ⟨hbad, left, hleft, hunchanged⟩
    · rcases samplePass_run true source width height stride affine hlen with
        ⟨-, last, hlast, hwritten⟩ | ⟨hbad, -⟩
      · have hrun : sampleAffineQ15 source width height stride patch patchWidth patchHeight
            affine = (0, last.patch) := by
          rw [sampleAffineQ15, if_neg hguard, hfirst]
          simp only [bind, Except.bind, hunwritten.checked rfl, hlast]
        rw [hrun]
        refine ⟨⟨fun _ => hgood, fun _ => rfl⟩, fun _ py hpy px hpx => ?_,
          fun h => absurd rfl h⟩
        have hlt := PackedBits.grid_lt hpx hpy
        have hpixel := hwritten.written rfl (py * patchWidth + px)
        rw [if_pos hlt, patchValue, Nat.mul_comm, Nat.mul_add_mod, Nat.mod_eq_of_lt hpx,
          Nat.mul_add_div hwidth, Nat.div_eq_of_lt hpx, Nat.add_zero] at hpixel
        obtain ⟨hfits, hvalue, hmax⟩ := bilinear_eq source stride (positionX affine px py)
          (positionY affine px py)
        dsimp only
        rw [Nat.mul_comm py, hpixel]
        exact ⟨pixelAddress_lt hstride (hgood py hpy px hpx), hfits, hvalue, hmax⟩
      · exact absurd hgood hbad
    · have hrun : sampleAffineQ15 source width height stride patch patchWidth patchHeight
          affine = (-1, patch) := by
        rw [sampleAffineQ15, if_neg hguard, hleft, hunchanged rfl]
        rfl
      rw [hrun]
      exact ⟨⟨fun h => absurd h (by norm_num), fun h => absurd h hbad⟩,
        fun h => absurd h (by norm_num), fun _ => rfl⟩

/-- A patch half way between the pixels of a row: one position is inside, the next one is not. -/
theorem sampleAffineQ15_all_or_nothing_half :
    sampleAffineQ15 [10, 20, 30, 40] 2 2 2 [7] 1 1 ![32768, 0, 16384, 0, 0, 0] = (0, [15]) ∧
      sampleAffineQ15 [10, 20, 30, 40] 2 2 2 [7, 8] 2 1 ![32768, 0, 16384, 0, 0, 0] =
        (-1, [7, 8]) := by
  have houtside : ¬ PositionInside 2 2 ![32768, 0, 16384, 0, 0, 0] 1 0 := by decide
  obtain ⟨hinside, -, hleft⟩ := sampleAffineQ15_all_or_nothing [10, 20, 30, 40] 2 2 2 [7, 8] 2 1
    ![32768, 0, 16384, 0, 0, 0] (by norm_num) (by norm_num) (by norm_num) (by norm_num)
    (by norm_num) (by norm_num)
  have hrefused := mt hinside.1 fun h => houtside (h 0 (by norm_num) 1 (by norm_num))
  exact ⟨by decide, hleft hrefused⟩

end Fpc
