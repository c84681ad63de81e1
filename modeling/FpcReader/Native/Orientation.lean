/-
**Orientations.**

An orientation is a byte, 256 to a full turn.  Blocks of four by four pixels vote for the double
angle of their gradient with vectors of about fourteen bits; the vectors are smoothed and turned
back into bytes.  At a feature, the vectors of the four cells around it are mixed.  Everything is
integer arithmetic but for the seven weights of the smoothing, which are a parameter.

Main definitions:

* `Fpc.angleVector`, `Fpc.angleFixed` — from a byte to its vector, and from a vector to its angle;
* `Fpc.interpolateOrientation` — the orientation at a place between the cells of a field;
* `Fpc.buildOrientationField` — the field of an image.

Main results:

* `Fpc.interpolateOrientation_constant` — **where the cells agree, so does what lies between them**;
* `Fpc.buildOrientationField_exact` — **no sum and no vector of a field loses a bit**;
* `Fpc.buildOrientationField_negative` — **an image and its negative have the same field**.
-/

import FpcReader.Lib.LeadingBits
import Mathlib.Tactic.Ring
import Mathlib.Tactic.Linarith
import Mathlib.Algebra.Order.Ring.Abs
import Mathlib.Algebra.BigOperators.Ring.Finset
import Mathlib.Algebra.Order.BigOperators.Group.Finset

set_option relaxedAutoImplicit false
set_option autoImplicit false

namespace Fpc

open Words LeadingBits

/-! ### Angles -/

/-- The vector of a byte, with length about 16384: cosine and sine of the angle, as polynomials of
its half. -/
def angleVector (angle : UInt8) : ℤ × ℤ :=
  let sign : ℤ := if angle < 128 then 0x5a82 else -0x5a82
  let a := shiftFloor ((angle &&& 127).toNat * 0x6488 - 0x1921e0) 6
  let b := shiftFloor (a + 1) 1
  let c := shiftFloor (shiftFloor (b * a + 0x4000) 15 + 1) 1
  let d := shiftFloor (shiftFloor (c * a + 0x4000) 15 * 0x2aab + 0x4000) 15
  let e := shiftFloor (shiftFloor (d * a + 0x4000) 15 + 2) 2
  let u := 0x4000 - c + e
  let v := b - d + shiftFloor (shiftFloor (e * a + 0x4000) 15 * 0x199a + 0x4000) 15
  let x := shiftFloor (u * 0x5a82 - v * sign + 0x4000) 15
  let y := shiftFloor (u * sign + v * 0x5a82 + 0x4000) 15
  (shiftFloor (x * x - y * y + 0x2000) 14, shiftFloor (x * y + 0x1000) 13)

/-- A vector turned into the eighth of a turn it lies in: the middle of that eighth, both
coordinates there, and the direction of the middle. -/
structure Octant where
  base : ℤ
  large : ℤ
  second : ℤ
  a : ℤ
  b : ℤ
  deriving DecidableEq, Repr

/-- The axis of a vector in the first quarter: the one on its side of the diagonal. -/
def octantOf (base large second : ℤ) : Octant :=
  if second < large then ⟨base + 0x2000, large, second, 0x30fc, -0x7642⟩
  else ⟨base, large, second, 0x7642, -0x30fc⟩

/-- A vector turned by half a turn and by a quarter, where it has to be. -/
def angleOctant (first second : ℤ) : Octant :=
  let (base, first, second) :=
    if first < 1 then (-0x7000, -first, -second) else (0x1000, first, second)
  if second < 0 then octantOf (base + 0x4000) (-second) first else octantOf base first second

/-- The angle, from the tangent of the offset from the middle of the eighth. -/
def anglePolynomial (base ratio : ℤ) : ℤ :=
  let square := shiftFloor (ratio * ratio + 0x4000) 15
  let cube := shiftFloor (square * ratio + 0x4000) 15
  let fifth := shiftFloor (cube * square + 0x4000) 15
  let seventh := shiftFloor (fifth * square + 0x4000) 15
  fifth * 0x657 - seventh * 0x1ce + ratio * 0x28bc + base * 0x8000 - cube * 0xd46

/-- The angle of a vector, 2 ^ 31 to a full turn. -/
def angleFixed (first second : ℤ) : ℤ :=
  if (first = 0 ∧ second = 0) ∨ first < -32768 ∨ 32767 < first ∨ second < -32768 ∨
      32767 < second then 0
  else
    let octant := angleOctant first second
    let denominator := word 32 (octant.a * octant.second - octant.b * octant.large)
    if denominator = 0 then 0
    else
      let shift := (leadingZeros denominator + 31) % 32
      let numerator := word 32 (octant.a * octant.large + octant.b * octant.second) <<< shift
      let divisor := shiftFloor (denominator <<< shift).toInt 15
      if divisor = 0 then 0
      else (word 32 (anglePolynomial octant.base (numerator.toInt.tdiv divisor))).toInt

/-- The angle as a number of bytes' units, rounded. -/
def angleUnits (code : ℤ) : ℤ := shiftFloor (code + 0x400000) 23

/-! ### Between the cells of a field -/

/-- An index moved into the range of a list. -/
def clampIndex (n : ℤ) (length : ℕ) : ℕ :=
  if n < 0 then 0 else if length ≤ n.toNat then length - 1 else n.toNat

/-- The weight of one of the two neighbours in one direction. -/
def cellWeight (fraction : ℤ) (d : ℕ) : ℤ := if d = 0 then 64 - fraction else fraction

/-- The four cells around a place, as offsets. -/
def cellCorners : List (ℕ × ℕ) := [(0, 0), (0, 1), (1, 0), (1, 1)]

/-- The weighted sum of a coordinate of the vectors of the four cells. -/
def cellSum (coordinate : ℤ × ℤ → ℤ) (field : List UInt8) (width height : ℕ) (qx qy : ℤ) : ℤ :=
  cellCorners.foldl
    (fun sum corner =>
      let ny := clampIndex (shiftFloor qy 6 + corner.1) height
      let nx := clampIndex (shiftFloor qx 6 + corner.2) width
      let weight := cellWeight (qx % 64) corner.2 * cellWeight (qy % 64) corner.1
      sum + coordinate (angleVector (field.getD (ny * width + nx) 0)) * weight) 0

/-- The orientation at a place, in sixteenths of a pixel; the cells are four pixels wide. -/
def interpolateOrientation (field : List UInt8) (width height : ℕ) (x_q4 y_q4 : ℤ) : Option Int8 :=
  if width = 0 ∨ height = 0 ∨ 256 < width ∨ 256 < height ∨ x_q4 < -4096 ∨ 4096 < x_q4 ∨
      y_q4 < -4096 ∨ 4096 < y_q4 then none
  else
    let qx := x_q4 - 64
    let qy := y_q4 - 64
    let code := angleFixed
      (shiftFloor (cellSum Prod.snd field width height qx qy + 0x8000) 12)
      (shiftFloor (cellSum Prod.fst field width height qx qy + 0x8000) 12)
    let value := angleUnits code
    some (Int8.ofInt (if value ≤ 127 then value else value - 256))

/-! ### The field of an image -/

/-- Seven weighted neighbours of every cell, along rows or along columns. -/
def smoothOrientation (input : List Int16) (width height : ℕ) (kernel : List Int16)
    (vertical : Bool) : List Int16 :=
  (List.range (width * height)).map fun i =>
    let y : ℤ := (i / width : ℕ)
    let x : ℤ := (i % width : ℕ)
    let sum := (List.range 7).foldl
      (fun (sum : BitVec 32) (k : ℕ) =>
        let ny := clampIndex (if vertical then y + (k - 3) else y) height
        let nx := clampIndex (if vertical then x else x + (k - 3)) width
        sum + word 32 ((input.getD (ny * width + nx) 0).toInt * (kernel.getD k 0).toInt)) 0
    Int16.ofInt (shiftFloor sum.toInt 15)

/-- The gradient at a pixel, from the two by two pixels that start there. -/
def blockGradient (image : List UInt8) (stride place : ℕ) : ℤ × ℤ :=
  let pixel := fun offset => ((image.getD (place + offset) 0).toNat : ℤ)
  (pixel 0 + pixel stride - pixel 1 - pixel (stride + 1),
    pixel 0 + pixel 1 - pixel stride - pixel (stride + 1))

/-- The vote of a gradient: a vector of twice its angle. -/
def gradientVote (g : ℤ × ℤ) : ℤ × ℤ := (g.1 * g.1 - g.2 * g.2, 2 * g.1 * g.2)

/-- The place of pixel `i` of a block. -/
def blockPlace (stride cy cx i : ℕ) : ℕ := (2 + cy * 4 + i / 4) * stride + 2 + cx * 4 + i % 4

/-- What the sixteen pixels of a block vote for. -/
def blockVector (image : List UInt8) (stride cy cx : ℕ) : ℤ × ℤ :=
  (List.range 16).foldl
    (fun ab i => ab + gradientVote (blockGradient image stride (blockPlace stride cy cx i))) (0, 0)

/-- How far both coordinates of a vector have to be shifted to have fourteen bits. -/
def blockShift (a b : ℤ) : ℕ :=
  let magnitude := (word 32 (shiftFloor a 1) ^^^ word 32 a) |||
    (word 32 (shiftFloor b 1) ^^^ word 32 b) ||| 0x2000#32
  (18 + 32 - leadingZeros magnitude) % 32

/-- The planes of the blocks' vectors. -/
def blockPlanes (image : List UInt8) (stride fw fh : ℕ) : List Int16 × List Int16 :=
  let vectors := (List.range (fw * fh)).map fun i =>
    let (a, b) := blockVector image stride (i / fw) (i % fw)
    let shift := blockShift a b
    (Int16.ofInt (shiftFloor a shift), Int16.ofInt (shiftFloor b shift))
  (vectors.map Prod.fst, vectors.map Prod.snd)

/-- The orientation field; `kernel` are the weights of the smoothing. -/
def buildOrientationField (kernel : List Int16) (allocated : Bool) (image : List UInt8)
    (width height stride fieldSize : ℕ) : Option (List UInt8) :=
  if width < 24 ∨ height < 24 ∨ 256 < width ∨ 256 < height ∨ stride < width ∨
      (2 ^ 64 - 1) / stride < height then none
  else
    let fw := (width - 4) / 4
    let fh := (height - 4) / 4
    if fieldSize < fw * fh then none
    else if !allocated then none
    else
      let (cosine, sine) := blockPlanes image stride fw fh
      let smooth := fun plane =>
        smoothOrientation (smoothOrientation plane fw fh kernel false) fw fh kernel true
      let cosine := smooth cosine
      let sine := smooth sine
      some ((List.range (fw * fh)).map fun i =>
        UInt8.ofInt (angleUnits (angleFixed (sine.getD i 0).toInt (cosine.getD i 0).toInt)))

/-! ### A byte and its vector -/

/-- What holds of every byte is checked on all of them. -/
theorem forall_byte {p : UInt8 → Prop} (h : ∀ i < 256, p (UInt8.ofNat i)) (angle : UInt8) :
    p angle := by
  have hback := h angle.toNat angle.toNat_lt
  rwa [UInt8.ofNat_toNat] at hback

/-- The vectors have fourteen bits. -/
theorem angleVector_bounds (angle : UInt8) :
    |(angleVector angle).1| ≤ 16392 ∧ |(angleVector angle).2| ≤ 16392 := by
  revert angle
  exact forall_byte (by decide +kernel)

/-- A byte comes back from its vector, also when a little has been added to both coordinates. -/
theorem angleUnits_angleVector (angle : UInt8) :
    UInt8.ofInt (angleUnits (angleFixed (angleVector angle).2 (angleVector angle).1)) = angle ∧
      (let value := angleUnits (angleFixed ((angleVector angle).2 + 8) ((angleVector angle).1 + 8))
      Int8.ofInt (if value ≤ 127 then value else value - 256) = angle.toInt8) := by
  revert angle
  exact forall_byte (by decide +kernel)

/-! ### Cells that agree -/

theorem cellWeight_sum (fraction : ℤ) :
    cellWeight fraction 0 + cellWeight fraction 1 = 64 := by
  simp [cellWeight]

/-- The weights of the four cells sum up to 4096. -/
theorem cellSum_constant {coordinate : ℤ × ℤ → ℤ} {field : List UInt8} {width height : ℕ}
    {qx qy : ℤ} {angle : UInt8}
    (hcells : ∀ corner ∈ cellCorners, field.getD (clampIndex (shiftFloor qy 6 + corner.1) height *
      width + clampIndex (shiftFloor qx 6 + corner.2) width) 0 = angle) :
    cellSum coordinate field width height qx qy = coordinate (angleVector angle) * 4096 := by
  have h00 := hcells (0, 0) (by simp [cellCorners])
  have h01 := hcells (0, 1) (by simp [cellCorners])
  have h10 := hcells (1, 0) (by simp [cellCorners])
  have h11 := hcells (1, 1) (by simp [cellCorners])
  have hx := cellWeight_sum (qx % 64)
  have hy := cellWeight_sum (qy % 64)
  rw [cellSum, cellCorners]
  simp only [List.foldl_cons, List.foldl_nil, h00, h01, h10, h11]
  calc _ = coordinate (angleVector angle) *
        ((cellWeight (qx % 64) 0 + cellWeight (qx % 64) 1) *
          (cellWeight (qy % 64) 0 + cellWeight (qy % 64) 1)) := by ring
    _ = coordinate (angleVector angle) * 4096 := by
      rw [hx, hy]
      norm_num

/-- A mix of four vectors is not longer than they are. -/
theorem cellSum_bounds {coordinate : ℤ × ℤ → ℤ}
    (hcoordinate : ∀ angle, |coordinate (angleVector angle)| ≤ 16392) (field : List UInt8)
    (width height : ℕ) (qx qy : ℤ) :
    |cellSum coordinate field width height qx qy| ≤ 16392 * 4096 := by
  have hweight : ∀ q : ℤ, 0 ≤ cellWeight (q % 64) 0 ∧ 0 ≤ cellWeight (q % 64) 1 := by
    intro q
    simp only [cellWeight, if_pos, one_ne_zero, if_false]
    omega
  have hterm : ∀ (angle : UInt8) {v w : ℤ}, 0 ≤ v → 0 ≤ w →
      |coordinate (angleVector angle) * (v * w)| ≤ 16392 * (v * w) := by
    intro angle v w hv hw
    rw [abs_mul, abs_of_nonneg (mul_nonneg hv hw)]
    exact mul_le_mul_of_nonneg_right (hcoordinate angle) (mul_nonneg hv hw)
  obtain ⟨hx₀, hx₁⟩ := hweight qx
  obtain ⟨hy₀, hy₁⟩ := hweight qy
  rw [cellSum, cellCorners]
  simp only [List.foldl_cons, List.foldl_nil, zero_add]
  refine (abs_add_le _ _).trans ((add_le_add ((abs_add_le _ _).trans (add_le_add
    ((abs_add_le _ _).trans (add_le_add (hterm _ hx₀ hy₀) (hterm _ hx₁ hy₀)))
      (hterm _ hx₀ hy₁))) (hterm _ hx₁ hy₁)).trans ?_)
  calc _ = 16392 * ((cellWeight (qx % 64) 0 + cellWeight (qx % 64) 1) *
        (cellWeight (qy % 64) 0 + cellWeight (qy % 64) 1)) := by ring
    _ ≤ 16392 * 4096 := by
      rw [cellWeight_sum, cellWeight_sum]
      norm_num

/-- **Where the cells agree, so does what lies between them.**  An orientation is computed at every
place that the source admits, and where the four cells around the place have the same byte it is
that byte: turning it into a vector, weighing four of them and turning it back loses nothing. -/
theorem interpolateOrientation_constant {field : List UInt8} {width height : ℕ} {x_q4 y_q4 : ℤ}
    {angle : UInt8} (hwidth : 0 < width ∧ width ≤ 256) (hheight : 0 < height ∧ height ≤ 256)
    (hx : -4096 ≤ x_q4 ∧ x_q4 ≤ 4096) (hy : -4096 ≤ y_q4 ∧ y_q4 ≤ 4096)
    (hcells : ∀ corner ∈ cellCorners, field.getD
      (clampIndex (shiftFloor (y_q4 - 64) 6 + corner.1) height * width +
        clampIndex (shiftFloor (x_q4 - 64) 6 + corner.2) width) 0 = angle) :
    interpolateOrientation field width height x_q4 y_q4 = some angle.toInt8 := by
  have hguard : ¬(width = 0 ∨ height = 0 ∨ 256 < width ∨ 256 < height ∨ x_q4 < -4096 ∨
      4096 < x_q4 ∨ y_q4 < -4096 ∨ 4096 < y_q4) := by omega
  have hscale : ∀ c : ℤ, shiftFloor (c * 4096 + 0x8000) 12 = c + 8 := by
    intro c
    rw [shiftFloor_eq]
    omega
  rw [interpolateOrientation, if_neg hguard]
  dsimp only
  rw [cellSum_constant hcells, cellSum_constant hcells, hscale, hscale]
  exact congrArg some (angleUnits_angleVector angle).2

theorem interpolateOrientation_constant_field :
    interpolateOrientation [200, 200, 200, 200] 2 2 70 90 = some (200 : UInt8).toInt8 :=
  interpolateOrientation_constant (by decide) (by decide) (by decide) (by decide) (by decide)

/-- There is an orientation at every place that the source admits. -/
theorem interpolateOrientation_isSome (field : List UInt8) {width height : ℕ} {x_q4 y_q4 : ℤ}
    (hwidth : 0 < width ∧ width ≤ 256) (hheight : 0 < height ∧ height ≤ 256)
    (hx : -4096 ≤ x_q4 ∧ x_q4 ≤ 4096) (hy : -4096 ≤ y_q4 ∧ y_q4 ≤ 4096) :
    ∃ angle, interpolateOrientation field width height x_q4 y_q4 = some angle := by
  rw [interpolateOrientation, if_neg (by omega)]
  exact ⟨_, rfl⟩

/-! ### Blocks -/

/-- **Both coordinates of a vector are shifted as far as fourteen bits ask for, and no further.** -/
theorem blockShift_spec {a b : ℤ} (ha : -2 ^ 31 ≤ a ∧ a < 2 ^ 31) (hb : -2 ^ 31 ≤ b ∧ b < 2 ^ 31) :
    (∀ z ∈ [a, b], -2 ^ (14 + blockShift a b) ≤ z ∧ z < 2 ^ (14 + blockShift a b)) ∧
      (blockShift a b ≠ 0 → ∃ z ∈ [a, b],
        z < -2 ^ (13 + blockShift a b) ∨ 2 ^ (13 + blockShift a b) ≤ z) := by
  have hmagnitude : ∀ k, 14 ≤ k → (((word 32 (shiftFloor a 1) ^^^ word 32 a) |||
      (word 32 (shiftFloor b 1) ^^^ word 32 b) ||| 0x2000#32).toNat < 2 ^ k ↔
        folded a < 2 ^ k ∧ folded b < 2 ^ k) := by
    intro k hk
    have hfloor : (0x2000#32).toNat < 2 ^ k :=
      lt_of_lt_of_le (by decide : (0x2000#32).toNat < 2 ^ 14) (Nat.pow_le_pow_right (by omega) hk)
    rw [BitVec.toNat_or, BitVec.toNat_or, toNat_xor_half ha.1 ha.2, toNat_xor_half hb.1 hb.2,
      ← gray_lt_iff (folded a), ← gray_lt_iff (folded b)]
    constructor
    · intro h
      exact ⟨lt_of_le_of_lt (Nat.left_le_or.trans Nat.left_le_or) h,
        lt_of_le_of_lt (Nat.right_le_or.trans Nat.left_le_or) h⟩
    · rintro ⟨h₁, h₂⟩
      exact Nat.or_lt_two_pow (Nat.or_lt_two_pow h₁ h₂) hfloor
  obtain ⟨magnitude, hdef⟩ : ∃ magnitude, magnitude = (word 32 (shiftFloor a 1) ^^^ word 32 a) |||
      (word 32 (shiftFloor b 1) ^^^ word 32 b) ||| 0x2000#32 := ⟨_, rfl⟩
  rw [← hdef] at hmagnitude
  have hge : 2 ^ 13 ≤ magnitude.toNat := by
    rw [hdef, BitVec.toNat_or]
    exact Nat.right_le_or
  have hne : magnitude ≠ 0 := by
    rintro rfl
    simp at hge
  obtain ⟨-, hlow, hhigh⟩ := leadingZeros_spec hne
  have hzeros : leadingZeros magnitude ≤ 18 := by
    by_contra hmany
    have hsmall : magnitude.toNat < 2 ^ 13 :=
      lt_of_lt_of_le hhigh (Nat.pow_le_pow_right (by omega) (by omega))
    omega
  have hshift : blockShift a b = 18 - leadingZeros magnitude := by
    rw [blockShift, ← hdef]
    omega
  rw [hshift]
  refine ⟨?_, fun hpos => ?_⟩
  · obtain ⟨hfa, hfb⟩ := (hmagnitude (32 - leadingZeros magnitude) (by omega)).1 hhigh
    rw [show 14 + (18 - leadingZeros magnitude) = 32 - leadingZeros magnitude by omega]
    intro z hz
    simp only [List.mem_cons, List.not_mem_nil, or_false] at hz
    rcases hz with rfl | rfl
    · exact (folded_lt_iff _ _).1 hfa
    · exact (folded_lt_iff _ _).1 hfb
  · rw [show 13 + (18 - leadingZeros magnitude) = 31 - leadingZeros magnitude by omega]
    by_contra hall
    push Not at hall
    have hfits : ∀ z ∈ [a, b], folded z < 2 ^ (31 - leadingZeros magnitude) :=
      fun z hz => (folded_lt_iff z _).2 (hall z hz)
    have := (hmagnitude (31 - leadingZeros magnitude) (by omega)).2
      ⟨hfits a (by simp), hfits b (by simp)⟩
    omega

/-- The vote of a gradient of bytes. -/
theorem gradientVote_bounds (image : List UInt8) (stride place : ℕ) :
    |(gradientVote (blockGradient image stride place)).1| ≤ 520200 ∧
      |(gradientVote (blockGradient image stride place)).2| ≤ 520200 := by
  have hbyte : ∀ i, (image.getD i 0).toNat ≤ 255 := fun i =>
    Nat.le_of_lt_succ (image.getD i 0).toNat_lt
  obtain ⟨g, hg⟩ : ∃ g, g = blockGradient image stride place := ⟨_, rfl⟩
  have hbounds : (-510 ≤ g.1 ∧ g.1 ≤ 510) ∧ -510 ≤ g.2 ∧ g.2 ≤ 510 := by
    have h₀ := hbyte (place + 0)
    have h₁ := hbyte (place + 1)
    have h₂ := hbyte (place + stride)
    have h₃ := hbyte (place + (stride + 1))
    rw [hg, blockGradient]
    dsimp only
    omega
  rw [← hg, gradientVote, abs_le, abs_le]
  obtain ⟨⟨h₁, h₂⟩, h₃, h₄⟩ := hbounds
  refine ⟨⟨?_, ?_⟩, ?_, ?_⟩ <;> nlinarith

/-- The votes of sixteen pixels are far from filling a word. -/
theorem blockVector_bounds (image : List UInt8) (stride cy cx : ℕ) :
    |(blockVector image stride cy cx).1| ≤ 8323200 ∧
      |(blockVector image stride cy cx).2| ≤ 8323200 := by
  have hstart : ∀ (places : List ℕ) (ab : ℤ × ℤ),
      let r := places.foldl (fun ab i => ab + gradientVote
        (blockGradient image stride (blockPlace stride cy cx i))) ab
      |r.1| ≤ |ab.1| + places.length * 520200 ∧ |r.2| ≤ |ab.2| + places.length * 520200 := by
    intro places
    induction places with
    | nil =>
        intro ab
        simp
    | cons i places ih =>
        intro ab
        obtain ⟨hrest₁, hrest₂⟩ := ih
          (ab + gradientVote (blockGradient image stride (blockPlace stride cy cx i)))
        obtain ⟨hvote₁, hvote₂⟩ := gradientVote_bounds image stride (blockPlace stride cy cx i)
        have hsum₁ := abs_add_le ab.1
          (gradientVote (blockGradient image stride (blockPlace stride cy cx i))).1
        have hsum₂ := abs_add_le ab.2
          (gradientVote (blockGradient image stride (blockPlace stride cy cx i))).2
        rw [Prod.fst_add] at hrest₁
        rw [Prod.snd_add] at hrest₂
        dsimp only
        rw [List.foldl_cons, List.length_cons]
        push_cast
        constructor <;> linarith
  obtain ⟨h₁, h₂⟩ := hstart (List.range 16) (0, 0)
  rw [List.length_range] at h₁ h₂
  norm_num at h₁ h₂
  exact ⟨h₁, h₂⟩

/-- The vector of a block, shifted to fourteen bits. -/
def blockVectorShifted (image : List UInt8) (stride cy cx : ℕ) : ℤ × ℤ :=
  let ab := blockVector image stride cy cx
  (ab.1 / 2 ^ blockShift ab.1 ab.2, ab.2 / 2 ^ blockShift ab.1 ab.2)

theorem blockVectorShifted_bounds (image : List UInt8) (stride cy cx : ℕ) :
    |(blockVectorShifted image stride cy cx).1| ≤ 16384 ∧
      |(blockVectorShifted image stride cy cx).2| ≤ 16384 := by
  obtain ⟨h₁, h₂⟩ := blockVector_bounds image stride cy cx
  obtain ⟨ab, hab⟩ : ∃ ab, ab = blockVector image stride cy cx := ⟨_, rfl⟩
  rw [← hab, abs_le] at h₁ h₂
  obtain ⟨hfits, -⟩ := blockShift_spec (a := ab.1) (b := ab.2) (by omega) (by omega)
  rw [blockVectorShifted, ← hab]
  have hscaled : ∀ z ∈ [ab.1, ab.2], |z / 2 ^ blockShift ab.1 ab.2| ≤ 16384 := by
    intro z hz
    obtain ⟨hlo, hhi⟩ := hfits z hz
    have hpos : (0 : ℤ) < 2 ^ blockShift ab.1 ab.2 := by positivity
    rw [pow_add] at hlo hhi
    rw [abs_le]
    constructor
    · rw [Int.le_ediv_iff_mul_le hpos]
      linarith
    · exact (Int.ediv_lt_of_lt_mul hpos (by linarith)).le
  exact ⟨hscaled _ (by simp), hscaled _ (by simp)⟩

/-! ### Smoothing -/

/-- The place of a cell in a list of rows. -/
theorem cell_place {fw fh y x : ℕ} (hy : y < fh) (hx : x < fw) :
    y * fw + x < fw * fh ∧ (y * fw + x) / fw = y ∧ (y * fw + x) % fw = x := by
  refine ⟨?_, ?_, ?_⟩
  · calc y * fw + x < y * fw + fw := by omega
      _ = (y + 1) * fw := by ring
      _ ≤ fh * fw := Nat.mul_le_mul_right _ hy
      _ = fw * fh := Nat.mul_comm _ _
  · rw [Nat.mul_comm, Nat.mul_add_div (by omega), Nat.div_eq_of_lt hx, Nat.add_zero]
  · rw [Nat.mul_comm, Nat.mul_add_mod, Nat.mod_eq_of_lt hx]

theorem clampIndex_lt {n : ℤ} {length : ℕ} (h : 0 < length) : clampIndex n length < length := by
  rw [clampIndex]
  split_ifs <;> omega

/-- The weight of a neighbour. -/
def tap (kernel : List Int16) (k : ℕ) : ℤ := (kernel.getD k 0).toInt

/-- Weights that are rounded from seven weights with sum 1: none is negative, and their sum is
close to 32768. -/
structure SmoothingKernel (kernel : List Int16) : Prop where
  nonneg : ∀ k, 0 ≤ tap kernel k
  sum_le : ∑ k ∈ Finset.range 7, tap kernel k ≤ 32800

/-- The smoothing of a plane of whole numbers. -/
def smoothedPlane (kernel : List Int16) (width height : ℕ) (vertical : Bool) (plane : ℕ → ℕ → ℤ)
    (y x : ℕ) : ℤ :=
  (∑ k ∈ Finset.range 7,
    plane (clampIndex (if vertical then (y : ℤ) + (k - 3) else y) height)
      (clampIndex (if vertical then (x : ℤ) else x + (k - 3)) width) * tap kernel k) / 2 ^ 15

/-- A list of words holds a plane of whole numbers, and they are small. -/
structure HoldsPlane (words : List Int16) (width height : ℕ) (bound : ℤ) (plane : ℕ → ℕ → ℤ) :
    Prop where
  toInt : ∀ y < height, ∀ x < width, (words.getD (y * width + x) 0).toInt = plane y x
  le : ∀ y < height, ∀ x < width, |plane y x| ≤ bound

/-- Adding words is adding numbers, in words. -/
theorem foldl_word (z : ℕ → ℤ) (n : ℕ) :
    (List.range n).foldl (fun (sum : BitVec 32) k => sum + word 32 (z k)) 0 =
      word 32 (∑ k ∈ Finset.range n, z k) := by
  induction n with
  | zero => rfl
  | succ n ih =>
      rw [List.range_succ, List.foldl_append, ih, Finset.sum_range_succ]
      exact word_add 32 _ _

theorem toInt_ofInt16 {z : ℤ} (hlo : -32768 ≤ z) (hhi : z < 32768) : (Int16.ofInt z).toInt = z :=
  Int16.toInt_ofInt_of_le (by omega) (by omega)

/-- **One direction of the smoothing is exact**, and the numbers stay small. -/
theorem HoldsPlane.smooth {words kernel : List Int16} {width height : ℕ} {bound : ℤ}
    {plane : ℕ → ℕ → ℤ} (h : HoldsPlane words width height bound plane)
    (hkernel : SmoothingKernel kernel) (hbound : 0 ≤ bound ∧ bound ≤ 16500) (vertical : Bool) :
    HoldsPlane (smoothOrientation words width height kernel vertical) width height (bound + 18)
      (smoothedPlane kernel width height vertical plane) := by
  have hplace : ∀ y < height, ∀ x < width,
      |∑ k ∈ Finset.range 7,
        plane (clampIndex (if vertical then (y : ℤ) + (k - 3) else y) height)
          (clampIndex (if vertical then (x : ℤ) else x + (k - 3)) width) * tap kernel k| ≤
        bound * 32800 := by
    intro y hy x hx
    calc _ ≤ ∑ k ∈ Finset.range 7, bound * tap kernel k := by
          refine (Finset.abs_sum_le_sum_abs _ _).trans (Finset.sum_le_sum fun k _ => ?_)
          rw [abs_mul, abs_of_nonneg (hkernel.nonneg k)]
          exact mul_le_mul_of_nonneg_right (h.le _ (clampIndex_lt (by omega)) _
            (clampIndex_lt (by omega))) (hkernel.nonneg k)
      _ ≤ bound * 32800 := by
          rw [← Finset.mul_sum]
          exact mul_le_mul_of_nonneg_left hkernel.sum_le hbound.1
  have hsmall : ∀ y < height, ∀ x < width,
      |smoothedPlane kernel width height vertical plane y x| ≤ bound + 18 := by
    intro y hy x hx
    have hsum := hplace y hy x hx
    rw [abs_le] at hsum ⊢
    rw [smoothedPlane]
    omega
  refine ⟨fun y hy x hx => ?_, hsmall⟩
  have hsum := hplace y hy x hx
  have hresult := hsmall y hy x hx
  obtain ⟨hcell, hy', hx'⟩ := cell_place hy hx
  rw [smoothOrientation, List.getD_eq_getElem?_getD, List.getElem?_map, List.getElem?_range hcell,
    Option.map_some, Option.getD_some]
  dsimp only
  rw [hy', hx']
  have hterms : ∀ k, (words.getD
      (clampIndex (if vertical then (y : ℤ) + (k - 3) else y) height * width +
        clampIndex (if vertical then (x : ℤ) else x + (k - 3)) width) 0).toInt =
      plane (clampIndex (if vertical then (y : ℤ) + (k - 3) else y) height)
        (clampIndex (if vertical then (x : ℤ) else x + (k - 3)) width) := fun k =>
    h.toInt _ (clampIndex_lt (by omega)) _ (clampIndex_lt (by omega))
  rw [foldl_word, toInt_word (by norm_num), shiftFloor_eq]
  · simp only [hterms]
    exact toInt_ofInt16 (by rw [abs_le] at hresult; exact le_trans (by omega) hresult.1)
      (by rw [abs_le] at hresult; exact lt_of_le_of_lt hresult.2 (by omega))
  · simp only [hterms]
    rw [abs_le] at hsum
    exact le_trans (by omega) hsum.1
  · simp only [hterms]
    rw [abs_le] at hsum
    exact lt_of_le_of_lt hsum.2 (by omega)

/-! ### The whole field -/

/-- The plane of one coordinate of the blocks' vectors. -/
theorem holdsPlane_blocks (image : List UInt8) (stride fw fh : ℕ) :
    HoldsPlane (blockPlanes image stride fw fh).1 fw fh 16384
        (fun y x => (blockVectorShifted image stride y x).1) ∧
      HoldsPlane (blockPlanes image stride fw fh).2 fw fh 16384
        (fun y x => (blockVectorShifted image stride y x).2) := by
  refine ⟨⟨fun y hy x hx => ?_, fun y _ x _ => (blockVectorShifted_bounds image stride y x).1⟩,
    ⟨fun y hy x hx => ?_, fun y _ x _ => (blockVectorShifted_bounds image stride y x).2⟩⟩
  · obtain ⟨hlt, hy', hx'⟩ := cell_place hy hx
    have hbounds := (blockVectorShifted_bounds image stride y x).1
    rw [abs_le] at hbounds
    rw [blockPlanes]
    dsimp only
    rw [List.getD_eq_getElem?_getD, List.map_map, List.getElem?_map, List.getElem?_range hlt,
      Option.map_some, Option.getD_some]
    simp only [Function.comp_apply, hy', hx', shiftFloor_eq]
    exact toInt_ofInt16 (by exact le_trans (by norm_num) hbounds.1)
      (lt_of_le_of_lt hbounds.2 (by norm_num))
  · obtain ⟨hlt, hy', hx'⟩ := cell_place hy hx
    have hbounds := (blockVectorShifted_bounds image stride y x).2
    rw [abs_le] at hbounds
    rw [blockPlanes]
    dsimp only
    rw [List.getD_eq_getElem?_getD, List.map_map, List.getElem?_map, List.getElem?_range hlt,
      Option.map_some, Option.getD_some]
    simp only [Function.comp_apply, hy', hx', shiftFloor_eq]
    exact toInt_ofInt16 (by exact le_trans (by norm_num) hbounds.1)
      (lt_of_le_of_lt hbounds.2 (by norm_num))

/-- The smoothed plane of one coordinate, in whole numbers of any size. -/
def orientationPlane (kernel : List Int16) (fw fh : ℕ) (coordinate : ℕ → ℕ → ℤ) : ℕ → ℕ → ℤ :=
  smoothedPlane kernel fw fh true (smoothedPlane kernel fw fh false coordinate)

/-- **No sum and no vector of a field loses a bit.**  A field that is built has the angle of every
cell's vector, where the vectors are those that whole numbers of any size give; they are never
longer than sixteen bits, so none is taken for the zero vector. -/
theorem buildOrientationField_exact {kernel : List Int16} (hkernel : SmoothingKernel kernel)
    {allocated : Bool} {image field : List UInt8} {width height stride fieldSize : ℕ}
    (h : buildOrientationField kernel allocated image width height stride fieldSize =
      some field) :
    let fw := (width - 4) / 4
    let fh := (height - 4) / 4
    let cosine := orientationPlane kernel fw fh fun y x => (blockVectorShifted image stride y x).1
    let sine := orientationPlane kernel fw fh fun y x => (blockVectorShifted image stride y x).2
    field.length = fw * fh ∧ ∀ y < fh, ∀ x < fw,
      |cosine y x| ≤ 16420 ∧ |sine y x| ≤ 16420 ∧
        field.getD (y * fw + x) 0 =
          UInt8.ofInt (angleUnits (angleFixed (sine y x) (cosine y x))) := by
  intro fw fh cosine sine
  rw [buildOrientationField] at h
  by_cases hguard : width < 24 ∨ height < 24 ∨ 256 < width ∨ 256 < height ∨ stride < width ∨
      (2 ^ 64 - 1) / stride < height
  · rw [if_pos hguard] at h
    cases h
  rw [if_neg hguard] at h
  dsimp only at h
  by_cases hsize : fieldSize < (width - 4) / 4 * ((height - 4) / 4)
  · rw [if_pos hsize] at h
    cases h
  rw [if_neg hsize] at h
  by_cases hrefused : (!allocated) = true
  · rw [if_pos hrefused] at h
    cases h
  rw [if_neg hrefused] at h
  obtain ⟨hcosine, hsine⟩ := holdsPlane_blocks image stride fw fh
  have hcosine' := ((hcosine.smooth hkernel (by norm_num) false).smooth hkernel (by norm_num) true)
  have hsine' := ((hsine.smooth hkernel (by norm_num) false).smooth hkernel (by norm_num) true)
  obtain rfl := Option.some.inj h
  refine ⟨by simp [fw, fh], fun y hy x hx => ⟨hcosine'.le y hy x hx, hsine'.le y hy x hx, ?_⟩⟩
  have hlt := (cell_place hy hx).1
  rw [List.getD_eq_getElem?_getD, List.getElem?_map, List.getElem?_range hlt, Option.map_some,
    Option.getD_some, hsine'.toInt y hy x hx, hcosine'.toInt y hy x hx]
  rfl

/-- Weights as the source computes them. -/
def demoKernel : List Int16 := [480, 2724, 7719, 10923, 7719, 2724, 480]

/-- An image whose gradients differ from block to block. -/
def squaresImage : List UInt8 := (List.range 576).map fun i => UInt8.ofNat (i * i % 251)

theorem buildOrientationField_exact_ramp :
    ∃ field, buildOrientationField demoKernel true squaresImage 24 24 24 25 = some field ∧
      field.length = 25 ∧ field.getD 12 0 = 102 ∧
      UInt8.ofInt (angleUnits (angleFixed
        (orientationPlane demoKernel 5 5
          (fun y x => (blockVectorShifted squaresImage 24 y x).2) 2 2)
        (orientationPlane demoKernel 5 5
          (fun y x => (blockVectorShifted squaresImage 24 y x).1) 2 2))) = 102 := by
  have hkernel : SmoothingKernel demoKernel := by
    refine ⟨fun k => ?_, by decide⟩
    by_cases hk : k < 7
    · have hall : ∀ k < 7, 0 ≤ tap demoKernel k := by decide
      exact hall k hk
    · have hnone : demoKernel[k]? = none := List.getElem?_eq_none (not_lt.1 hk)
      rw [tap, List.getD_eq_getElem?_getD, hnone]
      decide
  have hcell : (buildOrientationField demoKernel true squaresImage 24 24 24 25).map
      (fun field => field.getD 12 0) = some 102 := by decide +kernel
  obtain ⟨field, hfield, hbyte⟩ := Option.map_eq_some_iff.mp hcell
  obtain ⟨hlength, hexact⟩ := buildOrientationField_exact hkernel hfield
  obtain ⟨-, -, hvalue⟩ := hexact 2 (by norm_num) 2 (by norm_num)
  exact ⟨field, hfield, hlength, hbyte, hvalue.symm.trans hbyte⟩

/-! ### Negatives -/

/-- Every pixel of one image is as far above a level as that of the other is below it, or as far
above another one. -/
def SameShades (image other : List UInt8) (size : ℕ) : Prop :=
  ∃ sign ∈ [(1 : ℤ), -1], ∃ level : ℤ, ∀ i < size,
    ((other.getD i 0).toNat : ℤ) = level + sign * ((image.getD i 0).toNat : ℤ)

theorem SameShades.gradientVote {image other : List UInt8} {size stride place : ℕ}
    (h : SameShades image other size) (hplace : place + (stride + 1) < size)
    (hstride : 0 < stride) :
    gradientVote (blockGradient other stride place) =
      gradientVote (blockGradient image stride place) := by
  obtain ⟨sign, hsign, level, hshade⟩ := h
  have h₀ := hshade (place + 0) (by omega)
  have h₁ := hshade (place + 1) (by omega)
  have h₂ := hshade (place + stride) (by omega)
  have h₃ := hshade (place + (stride + 1)) hplace
  have hgradient : blockGradient other stride place =
      (sign * (blockGradient image stride place).1,
        sign * (blockGradient image stride place).2) := by
    rw [blockGradient, blockGradient]
    dsimp only
    rw [h₀, h₁, h₂, h₃]
    exact Prod.ext (by ring) (by ring)
  have hsquare : sign * sign = 1 := by
    simp only [List.mem_cons, List.not_mem_nil, or_false] at hsign
    rcases hsign with rfl | rfl <;> norm_num
  rw [hgradient, Fpc.gradientVote, Fpc.gradientVote]
  refine Prod.ext ?_ ?_
  · calc _ = sign * sign * ((blockGradient image stride place).1 *
          (blockGradient image stride place).1 - (blockGradient image stride place).2 *
          (blockGradient image stride place).2) := by ring
      _ = _ := by rw [hsquare, one_mul]
  · calc _ = sign * sign * (2 * (blockGradient image stride place).1 *
          (blockGradient image stride place).2) := by ring
      _ = _ := by rw [hsquare, one_mul]

/-- **An image and its negative have the same field**, and so have a darker and a brighter image
that differ by the same amount everywhere. -/
theorem buildOrientationField_negative (kernel : List Int16) (allocated : Bool)
    {image other : List UInt8} {width height stride : ℕ} (fieldSize : ℕ)
    (h : SameShades image other (stride * height)) :
    buildOrientationField kernel allocated other width height stride fieldSize =
      buildOrientationField kernel allocated image width height stride fieldSize := by
  rw [buildOrientationField, buildOrientationField]
  by_cases hguard : width < 24 ∨ height < 24 ∨ 256 < width ∨ 256 < height ∨ stride < width ∨
      (2 ^ 64 - 1) / stride < height
  · rw [if_pos hguard, if_pos hguard]
  have hplanes : blockPlanes other stride ((width - 4) / 4) ((height - 4) / 4) =
      blockPlanes image stride ((width - 4) / 4) ((height - 4) / 4) := by
    have hvectors : ∀ i ∈ List.range ((width - 4) / 4 * ((height - 4) / 4)),
        blockVector other stride (i / ((width - 4) / 4)) (i % ((width - 4) / 4)) =
          blockVector image stride (i / ((width - 4) / 4)) (i % ((width - 4) / 4)) := by
      intro i hi
      have hcell := List.mem_range.1 hi
      obtain ⟨fw, hfw⟩ : ∃ fw, fw = (width - 4) / 4 := ⟨_, rfl⟩
      rw [← hfw] at hcell ⊢
      have hfwpos : 0 < fw := by omega
      have hcy : i / fw < (height - 4) / 4 := (Nat.div_lt_iff_lt_mul hfwpos).2 (by linarith)
      have hcx : i % fw < fw := Nat.mod_lt _ hfwpos
      rw [blockVector, blockVector]
      refine List.foldl_ext _ _ _ fun ab j hj => ?_
      have hj' := List.mem_range.1 hj
      rw [h.gradientVote ?_ (by omega)]
      rw [blockPlace]
      -- the last row and the last column that a block reads lie inside the image
      have hrow : (2 + i / fw * 4 + j / 4 + 2) * stride ≤ height * stride :=
        Nat.mul_le_mul_right _ (by omega)
      have hexpand : (2 + i / fw * 4 + j / 4 + 2) * stride =
          (2 + i / fw * 4 + j / 4) * stride + 2 * stride := by ring
      have hcomm : height * stride = stride * height := Nat.mul_comm _ _
      omega
    rw [blockPlanes, blockPlanes]
    have hmap : (List.range ((width - 4) / 4 * ((height - 4) / 4))).map (fun i =>
        let (a, b) := blockVector other stride (i / ((width - 4) / 4)) (i % ((width - 4) / 4))
        let shift := blockShift a b
        (Int16.ofInt (shiftFloor a shift), Int16.ofInt (shiftFloor b shift))) =
      (List.range ((width - 4) / 4 * ((height - 4) / 4))).map (fun i =>
        let (a, b) := blockVector image stride (i / ((width - 4) / 4)) (i % ((width - 4) / 4))
        let shift := blockShift a b
        (Int16.ofInt (shiftFloor a shift), Int16.ofInt (shiftFloor b shift))) :=
      List.map_congr_left fun i hi => by rw [hvectors i hi]
    rw [hmap]
  rw [if_neg hguard, if_neg hguard]
  dsimp only
  rw [hplanes]

/-- The negative of an image. -/
theorem sameShades_negative {image : List UInt8} {size : ℕ} (h : size ≤ image.length) :
    SameShades image (image.map fun p => 255 - p) size := by
  refine ⟨-1, by decide, 255, fun i hi => ?_⟩
  have hlt : i < image.length := lt_of_lt_of_le hi h
  rw [List.getD_eq_getElem?_getD, List.getD_eq_getElem?_getD, List.getElem?_map,
    List.getElem?_eq_getElem hlt]
  have hnat : image[i].toNat ≤ 255 := Nat.le_of_lt_succ image[i].toNat_lt
  have hsub : ((255 - image[i] : UInt8).toNat : ℤ) = 255 - image[i].toNat := by
    rw [UInt8.toNat_sub_of_le _ _ (UInt8.le_iff_toNat_le.2 hnat)]
    exact Int.ofNat_sub hnat
  simp only [Option.map_some, Option.getD_some]
  rw [hsub]
  ring

theorem buildOrientationField_negative_ramp :
    let ramp := (List.range 576).map fun i => UInt8.ofNat (i * i % 251)
    buildOrientationField demoKernel true (ramp.map fun p => 255 - p) 24 24 24 25 =
      buildOrientationField demoKernel true ramp 24 24 24 25 := by
  intro ramp
  exact buildOrientationField_negative demoKernel true 25 (sameShades_negative (by simp [ramp]))

end Fpc
