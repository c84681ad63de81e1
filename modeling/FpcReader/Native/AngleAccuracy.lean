/-
**The angle of a vector, against the true one.**

The source turns a vector into the eighth of a turn around an axis at an odd multiple of 22.5
degrees, divides in sixteen bits and takes a polynomial of degree seven.  The angle it comes to is
off by the rounding of the division, by the polynomial and by the two constants for the axis; all
three together are less than a sixty-fourth of the unit in which angles are stored.

Main definitions:

* `Fpc.arctanPolynomial` — the polynomial, without its roundings.

Main results:

* `Fpc.angleOctant_turn` — how far a vector has been turned;
* `Fpc.ratio_spec` — the division neither overflows nor loses more than two units;
* `Fpc.angleFixed_accurate` — **every vector gets its angle**;
* `Fpc.interpolateOrientation_accurate` — **and so does every place between the cells of a field**.
-/

import FpcReader.Lib.Angles
import FpcReader.Native.Orientation
import Mathlib.Analysis.Real.Pi.Bounds

set_option relaxedAutoImplicit false
set_option autoImplicit false

namespace Fpc

open Words LeadingBits Angles Complex

/-! ### The eighth of a turn -/

/-- The coordinates of a vector that has been turned, and the axis of its eighth of a turn. -/
structure OctantSpec (o : Octant) : Prop where
  large : 0 ≤ o.large ∧ o.large ≤ 32768
  second : 0 ≤ o.second ∧ o.second ≤ 32768
  pos : 0 < o.large + o.second
  axis : o.second < o.large ∧ o.a = 0x30fc ∧ o.b = -0x7642 ∨
    o.large ≤ o.second ∧ o.a = 0x7642 ∧ o.b = -0x30fc

theorem octantOf_spec {base large second : ℤ} (hlarge : 0 ≤ large ∧ large ≤ 32768)
    (hsecond : 0 ≤ second ∧ second ≤ 32768) (hpos : 0 < large + second) :
    OctantSpec (octantOf base large second) := by
  rw [octantOf]
  split_ifs with h
  · exact ⟨hlarge, hsecond, hpos, .inl ⟨h, rfl, rfl⟩⟩
  · exact ⟨hlarge, hsecond, hpos, .inr ⟨not_lt.1 h, rfl, rfl⟩⟩

theorem angleOctant_spec {first second : ℤ} (hfirst : -32768 ≤ first ∧ first ≤ 32767)
    (hsecond : -32768 ≤ second ∧ second ≤ 32767) (hne : first ≠ 0 ∨ second ≠ 0) :
    OctantSpec (angleOctant first second) := by
  rw [angleOctant]
  by_cases h₁ : first < 1
  · simp only [if_pos h₁]
    split_ifs with h₂
    · exact octantOf_spec (by omega) (by omega) (by omega)
    · exact octantOf_spec (by omega) (by omega) (by omega)
  · simp only [if_neg h₁]
    split_ifs with h₂
    · exact octantOf_spec (by omega) (by omega) (by omega)
    · exact octantOf_spec (by omega) (by omega) (by omega)

/-- The direction of the axis, before the vector was turned into the first quarter. -/
noncomputable def axisAngle (o : Octant) : ℝ :=
  if o.second < o.large then 3 * Real.pi / 8 else Real.pi / 8

/-- Of a vector in the first quarter, the base tells by how much it has been turned. -/
theorem octantOf_turn (base large second : ℤ) :
    (octantOf base large second).large = large ∧ (octantOf base large second).second = second ∧
      (octantOf base large second).base * (Real.pi / 2 ^ 15) =
        (base - 0x1000) * (Real.pi / 2 ^ 15) + axisAngle (octantOf base large second) := by
  rw [octantOf]
  split_ifs with h
  · refine ⟨rfl, rfl, ?_⟩
    rw [axisAngle, if_pos h]
    push_cast
    ring
  · refine ⟨rfl, rfl, ?_⟩
    rw [axisAngle, if_neg h]
    ring

/-- A vector that is turned by a quarter, when its second coordinate is negative. -/
theorem hasAngle_quarter {x y : ℤ} {α : ℝ} (h : HasAngle ((y : ℂ) + (-x : ℤ) * I) α) :
    HasAngle ((x : ℂ) + y * I) (α + Real.pi / 2) := by
  have hturn : (x : ℂ) + y * I = ((y : ℂ) + (-x : ℤ) * I) * I := by
    push_cast
    linear_combination (x : ℂ) * I_mul_I
  rw [hturn]
  exact h.mul hasAngle_I

/-- A vector that is turned by half a turn. -/
theorem hasAngle_half {x y : ℤ} {α : ℝ} (h : HasAngle (((-x : ℤ) : ℂ) + (-y : ℤ) * I) α) :
    HasAngle ((x : ℂ) + y * I) (α + -Real.pi) := by
  have hturn : (x : ℂ) + y * I = (((-x : ℤ) : ℂ) + (-y : ℤ) * I) * (-1) := by
    push_cast
    ring
  rw [hturn]
  exact h.mul hasAngle_neg_one

/-- **How far a vector has been turned** is what the middle of its eighth says. -/
theorem angleOctant_turn (first second : ℤ) :
    ∃ τ : ℝ, (∀ α, HasAngle ((angleOctant first second).second +
        (angleOctant first second).large * I) α → HasAngle (second + first * I) (α + τ)) ∧
      (angleOctant first second).base * (Real.pi / 2 ^ 15) =
        τ + axisAngle (angleOctant first second) := by
  rw [angleOctant]
  by_cases h₁ : first < 1
  · simp only [if_pos h₁]
    split_ifs with h₂
    · obtain ⟨hlarge, hsecond, hbase⟩ := octantOf_turn (-0x7000 + 0x4000) (- -second) (-first)
      refine ⟨Real.pi / 2 + -Real.pi, fun α h => ?_, ?_⟩
      · rw [hlarge, hsecond] at h
        rw [← add_assoc]
        exact hasAngle_half (hasAngle_quarter h)
      · rw [hbase]
        push_cast
        ring
    · obtain ⟨hlarge, hsecond, hbase⟩ := octantOf_turn (-0x7000) (-first) (-second)
      refine ⟨-Real.pi, fun α h => ?_, ?_⟩
      · rw [hlarge, hsecond] at h
        exact hasAngle_half h
      · rw [hbase]
        push_cast
        ring
  · simp only [if_neg h₁]
    split_ifs with h₂
    · obtain ⟨hlarge, hsecond, hbase⟩ := octantOf_turn (0x1000 + 0x4000) (-second) first
      refine ⟨Real.pi / 2, fun α h => ?_, ?_⟩
      · rw [hlarge, hsecond] at h
        exact hasAngle_quarter h
      · rw [hbase]
        push_cast
        ring
    · obtain ⟨hlarge, hsecond, hbase⟩ := octantOf_turn 0x1000 first second
      refine ⟨0, fun α h => ?_, ?_⟩
      · rw [hlarge, hsecond] at h
        rw [add_zero]
        exact h
      · rw [hbase]
        push_cast
        ring

/-! ### The division -/

/-- The slope of a vector against its axis is at most the tangent of 22.5 degrees. -/
theorem OctantSpec.slope {o : Octant} (h : OctantSpec o) :
    let d := o.a * o.second - o.b * o.large
    let n := o.a * o.large + o.b * o.second
    0 < d ∧ d < 2 ^ 31 ∧ -(41425 * d) ≤ 100000 * n ∧ 100000 * n ≤ 41425 * d := by
  obtain ⟨hlarge, hsecond, hpos, haxis⟩ := h
  rcases haxis with ⟨horder, ha, hb⟩ | ⟨horder, ha, hb⟩
  · rw [ha, hb]
    dsimp only
    omega
  · rw [ha, hb]
    dsimp only
    omega

/-- The ratio as the source computes it. -/
def slopeRatio (d n : ℤ) : ℤ :=
  let shift := (leadingZeros (word 32 d) + 31) % 32
  (word 32 n <<< shift).toInt.tdiv (shiftFloor (word 32 d <<< shift).toInt 15)

/-- By how much the source shifts the numerator and the denominator. -/
def slopeShift (d : ℤ) : ℕ := (leadingZeros (word 32 d) + 31) % 32

/-- Neither what the source tests for zero is zero, nor do the words that it shifts overflow, and
the ratio is small. -/
structure ExactRatio (d n : ℤ) : Prop where
  denominator : word 32 d ≠ 0
  divisor : shiftFloor (word 32 d <<< slopeShift d).toInt 15 ≠ 0
  shifted_denominator : (word 32 d <<< slopeShift d).toInt = d * 2 ^ slopeShift d
  shifted_numerator : (word 32 n <<< slopeShift d).toInt = n * 2 ^ slopeShift d
  ratio_le : |slopeRatio d n| ≤ 13575

/-- **The division neither overflows nor divides by zero**, and its result is off by at most two of
its units. -/
theorem ratio_spec {d n : ℤ} (hpos : 0 < d) (hd : d < 2 ^ 31) (hlo : -(41425 * d) ≤ 100000 * n)
    (hhi : 100000 * n ≤ 41425 * d) :
    ExactRatio d n ∧ |slopeRatio d n * d - 32768 * n| ≤ 2 * d := by
  have hnat : (word 32 d).toNat = d.toNat := by
    obtain ⟨m, rfl⟩ := Int.eq_ofNat_of_zero_le hpos.le
    rw [word, BitVec.ofInt_natCast, BitVec.toNat_ofNat, Int.toNat_natCast]
    exact Nat.mod_eq_of_lt (by omega)
  have hne : word 32 d ≠ 0 := by
    intro hzero
    rw [hzero] at hnat
    simp only [BitVec.ofNat_eq_ofNat, BitVec.toNat_ofNat, Nat.zero_mod] at hnat
    omega
  obtain ⟨hlt, hlow, hhigh⟩ := leadingZeros_spec hne
  rw [hnat] at hlow hhigh
  obtain ⟨z, hz⟩ : ∃ z, z = leadingZeros (word 32 d) := ⟨_, rfl⟩
  have hz1 : 1 ≤ z := by
    by_contra hzero
    have hz0 : leadingZeros (word 32 d) = 0 := by omega
    rw [hz0] at hlow
    omega
  have hshift : (leadingZeros (word 32 d) + 31) % 32 = z - 1 := by omega
  have hslope : slopeShift d = z - 1 := hshift
  -- shifted, the divisor has its leading bit at place 30
  have hscaled : 2 ^ 30 ≤ d * 2 ^ (z - 1) ∧ d * 2 ^ (z - 1) < 2 ^ 31 := by
    have hlow' : (2 : ℤ) ^ (31 - z) ≤ d := by
      have hcast : ((2 ^ (31 - z) : ℕ) : ℤ) ≤ (d.toNat : ℤ) := by exact_mod_cast hz ▸ hlow
      push_cast at hcast
      omega
    have hhigh' : d < (2 : ℤ) ^ (32 - z) := by
      have hcast : (d.toNat : ℤ) < ((2 ^ (32 - z) : ℕ) : ℤ) := by exact_mod_cast hz ▸ hhigh
      push_cast at hcast
      omega
    have hp : (0 : ℤ) < 2 ^ (z - 1) := by positivity
    constructor
    · calc (2 : ℤ) ^ 30 = 2 ^ (31 - z) * 2 ^ (z - 1) := by
            rw [← pow_add]
            congr 1
            omega
        _ ≤ d * 2 ^ (z - 1) := mul_le_mul_of_nonneg_right hlow' hp.le
    · calc d * 2 ^ (z - 1) < 2 ^ (32 - z) * 2 ^ (z - 1) := mul_lt_mul_of_pos_right hhigh' hp
        _ = 2 ^ 31 := by
            rw [← pow_add]
            congr 1
            omega
  obtain ⟨p, hp⟩ : ∃ p : ℤ, p = 2 ^ (z - 1) := ⟨_, rfl⟩
  have hp0 : 0 < p := hp ▸ by positivity
  rw [← hp] at hscaled
  have hnlo : -(41425 * (d * p)) ≤ 100000 * (n * p) := by nlinarith
  have hnhi : 100000 * (n * p) ≤ 41425 * (d * p) := by nlinarith
  have hdshift : (word 32 d <<< slopeShift d).toInt = d * p := by
    rw [hslope, word_shiftLeft, ← hp]
    exact toInt_word (by norm_num) (by norm_num; omega) (by norm_num; omega)
  have hnshift : (word 32 n <<< slopeShift d).toInt = n * p := by
    rw [hslope, word_shiftLeft, ← hp]
    exact toInt_word (by norm_num) (by norm_num; omega) (by norm_num; omega)
  have hvalue : slopeRatio d n = (n * p).tdiv (d * p / 2 ^ 15) := by
    rw [← hnshift, ← hdshift, ← shiftFloor_eq]
    rfl
  rw [hvalue]
  obtain ⟨divisor, hdivisor⟩ : ∃ divisor, divisor = d * p / 2 ^ 15 := ⟨_, rfl⟩
  rw [← hdivisor]
  have hdpos : 2 ^ 15 ≤ divisor := by omega
  obtain ⟨ratio, hratio⟩ : ∃ ratio, ratio = (n * p).tdiv divisor := ⟨_, rfl⟩
  rw [← hratio]
  have hdivision := Int.mul_tdiv_add_tmod (n * p) divisor
  rw [← hratio] at hdivision
  have hrest : |(n * p).tmod divisor| < divisor := by
    exact abs_lt.2 ⟨Int.lt_tmod_of_pos (n * p) (by omega), Int.tmod_lt_of_pos (n * p) (by omega)⟩
  have hsmall : |ratio| ≤ 13575 := by
    have hprod : |ratio| * divisor ≤ |n * p| := by
      have hnat : ratio.natAbs * divisor.natAbs ≤ (n * p).natAbs := by
        rw [hratio, Int.natAbs_tdiv]
        exact Nat.div_mul_le_self _ _
      zify at hnat
      rwa [abs_of_pos (show 0 < divisor by omega)] at hnat
    have hslope : 100000 * |n * p| ≤ 41425 * (d * p) := by
      rcases abs_cases (n * p) with ⟨habs, -⟩ | ⟨habs, -⟩ <;> rw [habs] <;> linarith
    by_contra hlarge
    have hmul : 13576 * divisor ≤ |ratio| * divisor :=
      mul_le_mul_of_nonneg_right (by omega) (by omega)
    omega
  refine ⟨⟨hne, ?_, ?_, ?_, ?_⟩, ?_⟩
  · rw [hdshift, shiftFloor_eq, ← hdivisor]
    omega
  · rw [hdshift, hslope, hp]
  · rw [hnshift, hslope, hp]
  · rw [hvalue, ← hdivisor, ← hratio]
    exact hsmall
  obtain ⟨rest, hrest_eq⟩ : ∃ rest, rest = d * p - 32768 * divisor := ⟨_, rfl⟩
  have hrest_le : 0 ≤ rest ∧ rest ≤ 32767 := by omega
  have hcut : |ratio * rest| ≤ 13575 * 32767 := by
    rw [abs_mul, abs_of_nonneg hrest_le.1]
    exact mul_le_mul hsmall hrest_le.2 hrest_le.1 (by norm_num)
  -- what the division has cut off, and what the divisor has lost before
  have hsplit : ratio * (d * p) - 32768 * (n * p) =
      -(32768 * (n * p).tmod divisor) + ratio * rest := by
    rw [hrest_eq]
    linear_combination 32768 * hdivision
  have hscaled_le : |ratio * (d * p) - 32768 * (n * p)| ≤ 2 * (d * p) := by
    rw [hsplit]
    rw [abs_lt] at hrest
    rw [abs_le] at hcut ⊢
    omega
  have hfactor : ratio * (d * p) - 32768 * (n * p) = (ratio * d - 32768 * n) * p := by ring
  rw [hfactor, abs_mul, abs_of_pos hp0, ← mul_assoc] at hscaled_le
  exact le_of_mul_le_mul_right hscaled_le hp0

/-! ### The polynomial -/

/-- The polynomial, without its roundings. -/
noncomputable def arctanPolynomial (t : ℝ) : ℝ :=
  32768 * (10428 * t - 3398 * t ^ 3 + 1623 * t ^ 5 - 462 * t ^ 7)

theorem abs_mul_le_mul {x y a b : ℝ} (hx : |x| ≤ a) (hy : |y| ≤ b) : |x * y| ≤ a * b := by
  rw [abs_mul]
  exact mul_le_mul hx hy (abs_nonneg y) ((abs_nonneg x).trans hx)

/-- A product of two numbers of fifteen fraction bits, rounded. -/
theorem abs_rounded (z : ℤ) :
    |((shiftFloor (z + 0x4000) 15 : ℤ) : ℝ) - z / 32768| ≤ 1 / 2 := by
  rw [shiftFloor_eq]
  obtain ⟨q, hq⟩ : ∃ q, q = (z + 0x4000) / 2 ^ 15 := ⟨_, rfl⟩
  rw [← hq]
  have hlo : 2 * (q * 32768 - z) ≤ 32768 := by omega
  have hhi : -32768 ≤ 2 * (q * 32768 - z) := by omega
  have hlo' : 2 * ((q : ℝ) * 32768 - z) ≤ 32768 := by exact_mod_cast hlo
  have hhi' : -32768 ≤ 2 * ((q : ℝ) * 32768 - z) := by exact_mod_cast hhi
  rw [abs_le]
  constructor <;> linarith

/-- The roundings of the polynomial. -/
theorem anglePolynomial_close (base : ℤ) {ratio : ℤ} (h : |ratio| ≤ 13575) :
    |(anglePolynomial base ratio : ℝ) - (base * 32768 + arctanPolynomial (ratio / 32768))| ≤
      4000 := by
  obtain ⟨t, ht⟩ : ∃ t : ℝ, t = ratio / 32768 := ⟨_, rfl⟩
  have hratio : (ratio : ℝ) = 32768 * t := by rw [ht]; ring
  have ht1 : |t| ≤ 0.4143 := by
    have hcast : |(ratio : ℝ)| ≤ 13575 := by exact_mod_cast h
    rw [hratio, abs_mul, abs_of_pos (by norm_num : (0 : ℝ) < 32768)] at hcast
    linarith
  have ht2 : |t ^ 2| ≤ 0.4143 * 0.4143 := by
    rw [sq]
    exact abs_mul_le_mul ht1 ht1
  have ht3 : |t ^ 3| ≤ 0.4143 * (0.4143 * 0.4143) := by
    rw [pow_succ']
    exact abs_mul_le_mul ht1 ht2
  have ht5 : |t ^ 5| ≤ (0.4143 * 0.4143) * (0.4143 * (0.4143 * 0.4143)) := by
    rw [show t ^ 5 = t ^ 2 * t ^ 3 by ring]
    exact abs_mul_le_mul ht2 ht3
  rw [anglePolynomial, ← ht]
  obtain ⟨square, hsquare⟩ : ∃ square, square = shiftFloor (ratio * ratio + 0x4000) 15 := ⟨_, rfl⟩
  rw [← hsquare]
  obtain ⟨cube, hcube⟩ : ∃ cube, cube = shiftFloor (square * ratio + 0x4000) 15 := ⟨_, rfl⟩
  rw [← hcube]
  obtain ⟨fifth, hfifth⟩ : ∃ fifth, fifth = shiftFloor (cube * square + 0x4000) 15 := ⟨_, rfl⟩
  rw [← hfifth]
  obtain ⟨seventh, hseventh⟩ : ∃ seventh, seventh = shiftFloor (fifth * square + 0x4000) 15 :=
    ⟨_, rfl⟩
  rw [← hseventh]
  -- the error of each power, from that of the powers before it
  have herror2 : |(square : ℝ) - 32768 * t ^ 2| ≤ 0.5 := by
    have hround := abs_rounded (ratio * ratio)
    rw [← hsquare] at hround
    push_cast at hround
    rw [hratio] at hround
    calc |(square : ℝ) - 32768 * t ^ 2| = |(square : ℝ) - 32768 * t * (32768 * t) / 32768| := by
          congr 1
          ring
      _ ≤ 0.5 := hround.trans (by norm_num)
  have herror3 : |(cube : ℝ) - 32768 * t ^ 3| ≤ 0.71 := by
    have hround := abs_rounded (square * ratio)
    rw [← hcube] at hround
    push_cast at hround
    rw [hratio] at hround
    have hcarry := abs_mul_le_mul herror2 ht1
    calc |(cube : ℝ) - 32768 * t ^ 3| = |((cube : ℝ) - square * (32768 * t) / 32768) +
          (square - 32768 * t ^ 2) * t| := by
          congr 1
          ring
      _ ≤ 1 / 2 + 0.5 * 0.4143 := (abs_add_le _ _).trans (add_le_add hround hcarry)
      _ ≤ 0.71 := by norm_num
  have herror5 : |(fifth : ℝ) - 32768 * t ^ 5| ≤ 0.66 := by
    have hround := abs_rounded (cube * square)
    rw [← hfifth] at hround
    push_cast at hround
    have hcarry1 := abs_mul_le_mul herror3 ht2
    have hcarry2 := abs_mul_le_mul ht3 herror2
    have hcarry3 := abs_mul_le_mul herror3 herror2
    calc |(fifth : ℝ) - 32768 * t ^ 5| = |((fifth : ℝ) - cube * square / 32768) +
          (((cube - 32768 * t ^ 3) * t ^ 2 + t ^ 3 * (square - 32768 * t ^ 2)) +
            (cube - 32768 * t ^ 3) * (square - 32768 * t ^ 2) / 32768)| := by
          congr 1
          ring
      _ ≤ 0.66 := by
          rw [abs_le] at hround hcarry1 hcarry2 hcarry3 ⊢
          constructor <;> linarith
  have herror7 : |(seventh : ℝ) - 32768 * t ^ 7| ≤ 0.63 := by
    have hround := abs_rounded (fifth * square)
    rw [← hseventh] at hround
    push_cast at hround
    have hcarry1 := abs_mul_le_mul herror5 ht2
    have hcarry2 := abs_mul_le_mul ht5 herror2
    have hcarry3 := abs_mul_le_mul herror5 herror2
    calc |(seventh : ℝ) - 32768 * t ^ 7| = |((seventh : ℝ) - fifth * square / 32768) +
          (((fifth - 32768 * t ^ 5) * t ^ 2 + t ^ 5 * (square - 32768 * t ^ 2)) +
            (fifth - 32768 * t ^ 5) * (square - 32768 * t ^ 2) / 32768)| := by
          congr 1
          ring
      _ ≤ 0.63 := by
          rw [abs_le] at hround hcarry1 hcarry2 hcarry3 ⊢
          constructor <;> linarith
  rw [arctanPolynomial]
  push_cast
  rw [hratio]
  rw [abs_le] at herror3 herror5 herror7 ⊢
  constructor <;> linarith

/-- The polynomial against the arctangent, of which 2 ^ 30 units are half a turn. -/
theorem arctanPolynomial_close {t : ℝ} (ht : |t| ≤ 0.4143) :
    |arctanPolynomial t - 2 ^ 30 / Real.pi * Real.arctan t| ≤ 82860 := by
  have hK : 341782599 ≤ 2 ^ 30 / Real.pi ∧ 2 ^ 30 / Real.pi ≤ 341782709 := by
    have hlo := Real.pi_gt_d6
    have hhi := Real.pi_lt_d6
    constructor
    · rw [le_div_iff₀ Real.pi_pos]
      linarith
    · rw [div_le_iff₀ Real.pi_pos]
      linarith
  have hderiv : ∀ t : ℝ, HasDerivAt arctanPolynomial
      (32768 * (10428 * 1 - 3398 * (3 * t ^ 2) + 1623 * (5 * t ^ 4) - 462 * (7 * t ^ 6))) t := by
    intro t
    have h₁ := (hasDerivAt_id t).const_mul 10428
    have h₃ := (hasDerivAt_pow 3 t).const_mul 3398
    have h₅ := (hasDerivAt_pow 5 t).const_mul 1623
    have h₇ := (hasDerivAt_pow 7 t).const_mul 462
    exact (((h₁.sub h₃).add h₅).sub h₇).const_mul 32768
  have hbound : ∀ t ∈ Set.Icc (-0.4143 : ℝ) 0.4143,
      |32768 * (10428 * 1 - 3398 * (3 * t ^ 2) + 1623 * (5 * t ^ 4) - 462 * (7 * t ^ 6)) -
        2 ^ 30 / Real.pi / (1 + t ^ 2)| ≤ 200000 := by
    rintro t ⟨hlo, hhi⟩
    obtain ⟨u, hu⟩ : ∃ u, u = t ^ 2 := ⟨_, rfl⟩
    have hu0 : 0 ≤ u := hu ▸ sq_nonneg t
    have hu1 : u ≤ 0.1717 := by
      rw [hu]
      nlinarith
    have hone : 0 < 1 + u := by linarith
    -- with the denominator taken away, a polynomial of `u` remains
    have hupper : 234 * u - 2079 * u ^ 2 + 4881 * u ^ 3 - 3234 * u ^ 4 ≤ 8.4 := by
      nlinarith [mul_nonneg (show 0 ≤ 1318 - 4881 * u by linarith) (sq_nonneg (u - 0.078)),
        pow_nonneg hu0 4]
    have hlower : -3 ≤ 234 * u - 2079 * u ^ 2 + 4881 * u ^ 3 - 3234 * u ^ 4 := by
      have hfourth : u ^ 4 ≤ 0.1717 ^ 4 := pow_le_pow_left₀ hu0 hu1 4
      nlinarith [mul_nonneg hu0 (sq_nonneg (u - 0.213))]
    have hrewrite : 32768 * (10428 * 1 - 3398 * (3 * t ^ 2) + 1623 * (5 * t ^ 4) -
        462 * (7 * t ^ 6)) - 2 ^ 30 / Real.pi / (1 + t ^ 2) =
      (32768 * (10428 + (234 * u - 2079 * u ^ 2 + 4881 * u ^ 3 - 3234 * u ^ 4)) -
        2 ^ 30 / Real.pi) / (1 + u) := by
      rw [hu]
      field_simp
      ring
    rw [hrewrite, abs_div, abs_of_pos hone, div_le_iff₀ hone, abs_le]
    constructor <;> nlinarith
  have hclose := abs_sub_arctan_le hderiv (by simp [arctanPolynomial]) hbound ht
  refine hclose.trans ?_
  calc (200000 : ℝ) * |t| ≤ 200000 * 0.4143 := by linarith
    _ = 82860 := by norm_num

/-- The constants of the axis: 12540 and 30274 against sine and cosine of 22.5 degrees. -/
theorem arctan_axis : |Real.arctan (12540 / 30274) - Real.pi / 8| ≤ 0.000006 := by
  have hdouble := Real.two_mul_arctan (x := 12540 / 30274) (by norm_num) (by norm_num)
  have hnear := abs_arctan_sub_arctan_le (2 * (12540 / 30274) / (1 - (12540 / 30274) ^ 2)) 1
  rw [← hdouble, Real.arctan_one] at hnear
  have hslope : |(2 * (12540 / 30274) / (1 - (12540 / 30274) ^ 2) : ℝ) - 1| ≤ 0.000012 := by
    rw [abs_le]
    constructor <;> norm_num
  have hboth := hnear.trans hslope
  rw [abs_le] at hboth ⊢
  constructor <;> linarith

/-- How far an angle is from the middle of its eighth. -/
theorem anglePolynomial_bound (base : ℤ) {ratio : ℤ} (h : |ratio| ≤ 13575) :
    |anglePolynomial base ratio - base * 32768| ≤ 2 ^ 27 + 2 ^ 17 := by
  obtain ⟨t, ht⟩ : ∃ t : ℝ, t = ratio / 32768 := ⟨_, rfl⟩
  have hcast : |(ratio : ℝ)| ≤ 13575 := by exact_mod_cast h
  have ht1 : |t| ≤ 13575 / 32768 := by
    rw [ht, abs_div, abs_of_pos (by norm_num : (0 : ℝ) < 32768)]
    exact div_le_div_of_nonneg_right hcast (by norm_num)
  have hrounded := anglePolynomial_close base h
  rw [← ht] at hrounded
  have hpolynomial := arctanPolynomial_close (ht1.trans (by norm_num))
  have hpi := Real.pi_gt_d6
  have harctan : |Real.arctan t| ≤ Real.pi / 8 + 0.000075 := by
    have hedge : Real.arctan (13575 / 32768) ≤ Real.pi / 8 + 0.000075 := by
      have hnear := abs_arctan_sub_arctan_le (13575 / 32768) (12540 / 30274)
      have haxis := arctan_axis
      have hsmall : |(13575 / 32768 : ℝ) - 12540 / 30274| ≤ 0.000069 := by
        rw [abs_le]
        constructor <;> norm_num
      have hsum := hnear.trans hsmall
      rw [abs_le] at hsum haxis
      linarith
    rw [abs_le] at ht1 ⊢
    have hhi := Real.arctan_strictMono.monotone ht1.2
    have hlo := Real.arctan_strictMono.monotone ht1.1
    rw [Real.arctan_neg] at hlo
    constructor <;> linarith
  have hunits : |2 ^ 30 / Real.pi * Real.arctan t| ≤ 2 ^ 27 + 30000 := by
    rw [abs_mul, abs_of_pos (by positivity : 0 < 2 ^ 30 / Real.pi)]
    calc _ ≤ 2 ^ 30 / Real.pi * (Real.pi / 8 + 0.000075) :=
          mul_le_mul_of_nonneg_left harctan (by positivity)
      _ = 2 ^ 27 + 2 ^ 30 * 0.000075 / Real.pi := by
          field_simp
          ring
      _ ≤ 2 ^ 27 + 30000 := by
          rw [add_le_add_iff_left, div_le_iff₀ Real.pi_pos]
          linarith
  have hreal : |(anglePolynomial base ratio : ℝ) - base * 32768| ≤ 2 ^ 27 + 2 ^ 17 := by
    rw [abs_le] at hrounded hpolynomial hunits ⊢
    constructor <;> linarith
  exact_mod_cast hreal

/-- The axis of either eighth. -/
theorem OctantSpec.axis_close {o : Octant} (h : OctantSpec o) :
    (0 : ℝ) < o.a ∧ |Real.arctan (-o.b / o.a) - axisAngle o| ≤ 0.000006 := by
  rcases h.axis with ⟨horder, ha, hb⟩ | ⟨horder, ha, hb⟩
  · rw [axisAngle, if_pos horder, ha, hb]
    refine ⟨by norm_num, ?_⟩
    have hinv := Real.arctan_inv_of_pos (x := 12540 / 30274) (by norm_num)
    have haxis := arctan_axis
    push_cast
    rw [show -(-30274 : ℝ) / 12540 = (12540 / 30274)⁻¹ by norm_num, hinv]
    rw [abs_le] at haxis ⊢
    constructor <;> linarith
  · rw [axisAngle, if_neg (not_lt.2 horder), ha, hb]
    refine ⟨by norm_num, ?_⟩
    push_cast
    rw [show -(-12540 : ℝ) / 30274 = 12540 / 30274 by norm_num]
    exact arctan_axis

/-! ### The angle -/

/-- The angle of a turned vector is that of its axis and the arctangent of its slope. -/
theorem OctantSpec.hasAngle {o : Octant} (h : OctantSpec o) :
    HasAngle (o.second + o.large * I)
      (Real.arctan ((o.a * o.large + o.b * o.second : ℤ) / (o.a * o.second - o.b * o.large : ℤ)) +
        Real.arctan (-o.b / o.a)) := by
  have hd : (0 : ℝ) < (o.a * o.second - o.b * o.large : ℤ) := by exact_mod_cast h.slope.1
  have ha : (0 : ℝ) < o.a := h.axis_close.1
  have hturned := hasAngle_arctan hd (y := (o.a * o.large + o.b * o.second : ℤ))
  have haxis := hasAngle_arctan ha (y := -o.b)
  refine HasAngle.of_smul (c := (o.a : ℝ) ^ 2 + (o.b : ℝ) ^ 2) (by positivity) ?_
    (hturned.mul haxis)
  push_cast
  linear_combination ((o.a : ℂ) * o.b * o.large + (o.b : ℂ) ^ 2 * o.second) * I_sq

/-- What the source divides for a vector, and by what. -/
def Octant.numerator (o : Octant) : ℤ := o.a * o.large + o.b * o.second

def Octant.denominator (o : Octant) : ℤ := o.a * o.second - o.b * o.large

/-- What the function computes for a vector that is not zero. -/
theorem angleFixed_eq {first second : ℤ} (hfirst : -32768 ≤ first ∧ first ≤ 32767)
    (hsecond : -32768 ≤ second ∧ second ≤ 32767) (hne : first ≠ 0 ∨ second ≠ 0) :
    let o := angleOctant first second
    let ratio := slopeRatio o.denominator o.numerator
    ExactRatio o.denominator o.numerator ∧
      |ratio * o.denominator - 32768 * o.numerator| ≤ 2 * o.denominator ∧
      angleFixed first second = (word 32 (anglePolynomial o.base ratio)).toInt := by
  intro o ratio
  have hspec := angleOctant_spec hfirst hsecond hne
  obtain ⟨hpos, hlt, hlo, hhi⟩ := hspec.slope
  obtain ⟨hexact, hclose⟩ := ratio_spec hpos hlt hlo hhi
  refine ⟨hexact, hclose, ?_⟩
  have hguard : ¬((first = 0 ∧ second = 0) ∨ first < -32768 ∨ 32767 < first ∨ second < -32768 ∨
      32767 < second) := by omega
  rw [angleFixed, if_neg hguard]
  dsimp only
  rw [if_neg hexact.denominator]
  exact if_neg hexact.divisor

theorem angleOctant_base (first second : ℤ) :
    -0x7000 ≤ (angleOctant first second).base ∧ (angleOctant first second).base ≤ 0x7000 := by
  have haxis : ∀ base large second : ℤ, (octantOf base large second).base = base + 0x2000 ∨
      (octantOf base large second).base = base := by
    intro base large second
    rw [octantOf]
    split_ifs
    · exact .inl rfl
    · exact .inr rfl
  rw [angleOctant]
  by_cases h₁ : first < 1
  · simp only [if_pos h₁]
    split_ifs with h₂
    · have := haxis (-0x7000 + 0x4000) (- -second) (-first)
      omega
    · have := haxis (-0x7000) (-first) (-second)
      omega
  · simp only [if_neg h₁]
    split_ifs with h₂
    · have := haxis (0x1000 + 0x4000) (-second) first
      omega
    · have := haxis 0x1000 first second
      omega

/-- The unit of the stored angles against that of the computed ones. -/
theorem abs_angleUnits (code : ℤ) : |(angleUnits code : ℝ) * 2 ^ 23 - code| ≤ 2 ^ 22 := by
  rw [angleUnits, shiftFloor_eq]
  obtain ⟨q, hq⟩ : ∃ q, q = (code + 0x400000) / 2 ^ 23 := ⟨_, rfl⟩
  rw [← hq]
  have hlo : q * 2 ^ 23 - code ≤ 2 ^ 22 := by omega
  have hhi : -2 ^ 22 ≤ q * 2 ^ 23 - code := by omega
  rw [abs_le]
  exact ⟨by exact_mod_cast hhi, by exact_mod_cast hlo⟩

/-- **No word overflows**: the function computes the polynomial itself. -/
theorem angleFixed_exact {first second : ℤ} (hfirst : -32768 ≤ first ∧ first ≤ 32767)
    (hsecond : -32768 ≤ second ∧ second ≤ 32767) (hne : first ≠ 0 ∨ second ≠ 0) :
    angleFixed first second = anglePolynomial (angleOctant first second).base
      (slopeRatio (angleOctant first second).denominator
        (angleOctant first second).numerator) := by
  obtain ⟨hexact, -, hvalue⟩ := angleFixed_eq hfirst hsecond hne
  have hbound := angleOctant_base first second
  have hnear := anglePolynomial_bound (angleOctant first second).base hexact.ratio_le
  rw [abs_le] at hnear
  rw [hvalue]
  exact toInt_word (by norm_num) (by norm_num; omega) (by norm_num; omega)

/-- The angle of a vector, as it is computed. -/
theorem angle_close {first second : ℤ} (hfirst : -32768 ≤ first ∧ first ≤ 32767)
    (hsecond : -32768 ≤ second ∧ second ≤ 32767) (hne : first ≠ 0 ∨ second ≠ 0) :
    ∃ α : ℝ, HasAngle (second + first * I) α ∧
      |angleFixed first second * (Real.pi / 2 ^ 30) - α| ≤ Real.pi / 2 ^ 13 := by
  have hspec := angleOctant_spec hfirst hsecond hne
  obtain ⟨τ, hturn, hbase⟩ := angleOctant_turn first second
  obtain ⟨⟨-, -, -, -, hsmall⟩, hclose, -⟩ := angleFixed_eq hfirst hsecond hne
  have hexact := angleFixed_exact hfirst hsecond hne
  obtain ⟨o, ho⟩ : ∃ o, o = angleOctant first second := ⟨_, rfl⟩
  rw [← ho] at hspec hturn hbase hsmall hclose hexact
  have hd := hspec.slope.1
  obtain ⟨d, hd_eq⟩ : ∃ d, d = o.denominator := ⟨_, rfl⟩
  obtain ⟨n, hn_eq⟩ : ∃ n, n = o.numerator := ⟨_, rfl⟩
  have hangle := hturn _ hspec.hasAngle
  rw [← Octant.denominator, ← Octant.numerator, ← hd_eq, ← hn_eq] at hangle
  rw [← Octant.denominator, ← hd_eq] at hd
  rw [← hd_eq, ← hn_eq] at hsmall hclose hexact
  obtain ⟨ratio, hratio⟩ : ∃ ratio, ratio = slopeRatio d n := ⟨_, rfl⟩
  rw [← hratio] at hsmall hclose hexact
  obtain ⟨t, ht⟩ : ∃ t : ℝ, t = ratio / 32768 := ⟨_, rfl⟩
  have ht1 : |t| ≤ 0.4143 := by
    have hcast : |(ratio : ℝ)| ≤ 13575 := by exact_mod_cast hsmall
    rw [ht, abs_div, abs_of_pos (by norm_num : (0 : ℝ) < 32768),
      div_le_iff₀ (by norm_num : (0 : ℝ) < 32768)]
    linarith
  have hrounded := anglePolynomial_close o.base hsmall
  rw [← ht] at hrounded
  have hpolynomial := arctanPolynomial_close ht1
  have hslope : |Real.arctan t - Real.arctan (n / d)| ≤ 2 / 32768 := by
    refine (abs_arctan_sub_arctan_le _ _).trans ?_
    have hd' : (0 : ℝ) < d := by exact_mod_cast hd
    have hclose' : |(ratio : ℝ) * d - 32768 * n| ≤ 2 * d := by exact_mod_cast hclose
    have hsame : t - n / d = (ratio * d - 32768 * n) / (32768 * d) := by
      rw [ht]
      field_simp
    rw [hsame, abs_div, abs_of_pos (by positivity : (0 : ℝ) < 32768 * d),
      div_le_iff₀ (by positivity)]
    linarith
  have haxis := hspec.axis_close.2
  have hpi := Real.pi_gt_d6
  have hpi' := Real.pi_lt_d6
  obtain ⟨c, hc⟩ : ∃ c : ℝ, c = Real.pi / 2 ^ 30 := ⟨_, rfl⟩
  have hc0 : 0 < c := hc ▸ by positivity
  have hunits : ∀ z : ℝ, 2 ^ 30 / Real.pi * z * c = z := by
    intro z
    rw [hc]
    field_simp
  -- the roundings and the polynomial, in radians
  have hradians : |(anglePolynomial o.base ratio : ℝ) * c -
      (o.base * (Real.pi / 2 ^ 15) + Real.arctan t)| ≤ 86860 * c := by
    have hsum : |((anglePolynomial o.base ratio : ℝ) - (o.base * 32768 + arctanPolynomial t)) +
        (arctanPolynomial t - 2 ^ 30 / Real.pi * Real.arctan t)| ≤ 86860 := by
      refine (abs_add_le _ _).trans ?_
      linarith
    have hsame : (anglePolynomial o.base ratio : ℝ) * c -
        (o.base * (Real.pi / 2 ^ 15) + Real.arctan t) =
      (((anglePolynomial o.base ratio : ℝ) - (o.base * 32768 + arctanPolynomial t)) +
        (arctanPolynomial t - 2 ^ 30 / Real.pi * Real.arctan t)) * c := by
      have harctan := hunits (Real.arctan t)
      have hbase' : (o.base : ℝ) * (Real.pi / 2 ^ 15) = o.base * 32768 * c := by
        rw [hc]
        ring
      rw [hbase']
      linear_combination harctan
    rw [hsame, abs_mul, abs_of_pos hc0]
    exact mul_le_mul_of_nonneg_right hsum hc0.le
  refine ⟨_, hangle, ?_⟩
  rw [hexact, ← hc]
  rw [hbase] at hradians
  have hwhole : Real.pi / 2 ^ 13 = 131072 * c := by
    rw [hc]
    ring
  have hroom : 2 / 32768 + 0.000006 ≤ 44212 * c := by
    rw [hc]
    linarith
  rw [abs_le] at hradians hslope haxis ⊢
  constructor <;> linarith

/-- The angle as it is stored. -/
theorem stored_close {code : ℤ} {α : ℝ} (h : |code * (Real.pi / 2 ^ 30) - α| ≤ Real.pi / 2 ^ 13) :
    |angleUnits code * (Real.pi / 128) - α| ≤ Real.pi / 256 + Real.pi / 2 ^ 13 := by
  have hc : 0 < Real.pi / 2 ^ 30 := by positivity
  have hstored : |(angleUnits code : ℝ) * (Real.pi / 128) - code * (Real.pi / 2 ^ 30)| ≤
      Real.pi / 256 := by
    have hsame : (angleUnits code : ℝ) * (Real.pi / 128) - code * (Real.pi / 2 ^ 30) =
        (angleUnits code * 2 ^ 23 - code) * (Real.pi / 2 ^ 30) := by ring
    rw [hsame, abs_mul, abs_of_pos hc]
    calc _ ≤ 2 ^ 22 * (Real.pi / 2 ^ 30) :=
          mul_le_mul_of_nonneg_right (abs_angleUnits code) hc.le
      _ = Real.pi / 256 := by ring
  rw [abs_le] at h hstored ⊢
  constructor <;> linarith

/-- **Every vector gets its angle.**  No test for zero fires and no word overflows on the way: what
is computed is the polynomial of the ratio.  The angle that is computed, 2 ^ 31 to a full turn, and
the angle in which the vector points are closer than one 16384th of a turn; the byte that is stored
for it is the nearest one, up to a thirty-second part of its unit. -/
theorem angleFixed_accurate {first second : ℤ} (hfirst : -32768 ≤ first ∧ first ≤ 32767)
    (hsecond : -32768 ≤ second ∧ second ≤ 32767) (hne : first ≠ 0 ∨ second ≠ 0) :
    ExactRatio (angleOctant first second).denominator (angleOctant first second).numerator ∧
      angleFixed first second = anglePolynomial (angleOctant first second).base
        (slopeRatio (angleOctant first second).denominator
          (angleOctant first second).numerator) ∧
      ∃ α : ℝ, HasAngle (second + first * I) α ∧
        |angleFixed first second * (Real.pi / 2 ^ 30) - α| ≤ Real.pi / 2 ^ 13 ∧
        |angleUnits (angleFixed first second) * (Real.pi / 128) - α| ≤
          Real.pi / 256 + Real.pi / 2 ^ 13 := by
  obtain ⟨α, hangle, hclose⟩ := angle_close hfirst hsecond hne
  exact ⟨(angleFixed_eq hfirst hsecond hne).1, angleFixed_exact hfirst hsecond hne,
    α, hangle, hclose, stored_close hclose⟩

/-- A vector between the axes. -/
theorem angleFixed_accurate_up :
    (angleOctant 30000 1000).numerator = 345926000 ∧
      (angleOctant 30000 1000).denominator = 920760000 ∧ ExactRatio 920760000 345926000 ∧
      ∃ α : ℝ, HasAngle ((1000 : ℤ) + (30000 : ℤ) * I) α ∧
        |angleFixed 30000 1000 * (Real.pi / 2 ^ 30) - α| ≤ Real.pi / 2 ^ 13 := by
  obtain ⟨hexact, -, α, hangle, hclose, -⟩ := @angleFixed_accurate 30000 1000 (by norm_num)
    (by norm_num) (Or.inl (by norm_num))
  exact ⟨by decide, by decide, hexact, α, hangle, hclose⟩

/-! ### Between the cells -/

/-- The mixed vector at a place of a field, cosine and sine. -/
def cellMix (field : List UInt8) (width height : ℕ) (x_q4 y_q4 : ℤ) : ℤ × ℤ :=
  (shiftFloor (cellSum Prod.fst field width height (x_q4 - 64) (y_q4 - 64) + 0x8000) 12,
    shiftFloor (cellSum Prod.snd field width height (x_q4 - 64) (y_q4 - 64) + 0x8000) 12)

/-- The range of the stored angles. -/
theorem angleUnits_range {first second : ℤ} (hfirst : -32768 ≤ first ∧ first ≤ 32767)
    (hsecond : -32768 ≤ second ∧ second ≤ 32767) :
    -128 ≤ angleUnits (angleFixed first second) ∧ angleUnits (angleFixed first second) ≤ 128 := by
  by_cases hne : first ≠ 0 ∨ second ≠ 0
  · obtain ⟨hexact, -⟩ := angleFixed_eq hfirst hsecond hne
    have hbound := angleOctant_base first second
    have hnear := anglePolynomial_bound (angleOctant first second).base hexact.ratio_le
    rw [abs_le] at hnear
    rw [angleFixed_exact hfirst hsecond hne, angleUnits, shiftFloor_eq]
    omega
  · have hzero : angleFixed first second = 0 := by
      rw [angleFixed, if_pos]
      omega
    rw [hzero]
    decide

/-- **The orientation between the cells of a field is that of their mixed vector.**  At every place
that the source admits there is one; the mixed vector fits in sixteen bits, and when it is not zero
the orientation is the nearest byte to its angle, up to a thirty-second part of the unit. -/
theorem interpolateOrientation_accurate (field : List UInt8) {width height : ℕ} {x_q4 y_q4 : ℤ}
    (hwidth : 0 < width ∧ width ≤ 256) (hheight : 0 < height ∧ height ≤ 256)
    (hx : -4096 ≤ x_q4 ∧ x_q4 ≤ 4096) (hy : -4096 ≤ y_q4 ∧ y_q4 ≤ 4096) :
    let mix := cellMix field width height x_q4 y_q4
    |mix.1| ≤ 16400 ∧ |mix.2| ≤ 16400 ∧
      ∃ value, interpolateOrientation field width height x_q4 y_q4 = some value ∧
        (mix ≠ 0 → ∃ α : ℝ, HasAngle (mix.1 + mix.2 * I) α ∧
          |(value.toInt : ℝ) * (Real.pi / 128) - α| ≤ Real.pi / 256 + Real.pi / 2 ^ 13) := by
  intro mix
  have hcosine := cellSum_bounds (fun angle => (angleVector_bounds angle).1) field width height
    (x_q4 - 64) (y_q4 - 64)
  have hsine := cellSum_bounds (fun angle => (angleVector_bounds angle).2) field width height
    (x_q4 - 64) (y_q4 - 64)
  have hmix : |mix.1| ≤ 16400 ∧ |mix.2| ≤ 16400 := by
    simp only [mix, cellMix, shiftFloor_eq]
    rw [abs_le] at hcosine hsine
    rw [abs_le, abs_le]
    omega
  have hguard : ¬(width = 0 ∨ height = 0 ∨ 256 < width ∨ 256 < height ∨ x_q4 < -4096 ∨
      4096 < x_q4 ∨ y_q4 < -4096 ∨ 4096 < y_q4) := by omega
  have hvalue : interpolateOrientation field width height x_q4 y_q4 =
      some (Int8.ofInt (if angleUnits (angleFixed mix.2 mix.1) ≤ 127 then
        angleUnits (angleFixed mix.2 mix.1) else angleUnits (angleFixed mix.2 mix.1) - 256)) := by
    rw [interpolateOrientation, if_neg hguard]
    rfl
  refine ⟨hmix.1, hmix.2, _, hvalue, fun hne => ?_⟩
  have hfirst : -32768 ≤ mix.2 ∧ mix.2 ≤ 32767 := by
    have := hmix.2
    rw [abs_le] at this
    omega
  have hsecond : -32768 ≤ mix.1 ∧ mix.1 ≤ 32767 := by
    have := hmix.1
    rw [abs_le] at this
    omega
  have hne' : mix.2 ≠ 0 ∨ mix.1 ≠ 0 := by
    by_contra hzero
    push Not at hzero
    exact hne (Prod.ext hzero.2 hzero.1)
  obtain ⟨α, hangle, hclose⟩ := angle_close hfirst hsecond hne'
  have hstored := stored_close hclose
  have hrange := angleUnits_range hfirst hsecond
  generalize angleUnits (angleFixed mix.2 mix.1) = units at hstored hrange ⊢
  split_ifs with hwrap
  · refine ⟨α, hangle, ?_⟩
    rw [Int8.toInt_ofInt_of_le (by omega) (by omega)]
    exact hstored
  · refine ⟨α - 2 * Real.pi, hangle.sub_two_pi, ?_⟩
    rw [Int8.toInt_ofInt_of_le (by omega) (by omega)]
    have hsame : ((units - 256 : ℤ) : ℝ) * (Real.pi / 128) - (α - 2 * Real.pi) =
        units * (Real.pi / 128) - α := by
      push_cast
      ring
    rw [hsame]
    exact hstored

/-- A place in a field of two orientations. -/
theorem interpolateOrientation_accurate_two :
    interpolateOrientation [10, 40, 10, 40] 2 2 96 96 = some 25 ∧
      ∃ α : ℝ, HasAngle ((12504 : ℤ) + (8811 : ℤ) * I) α ∧
        |((25 : ℤ) : ℝ) * (Real.pi / 128) - α| ≤ Real.pi / 256 + Real.pi / 2 ^ 13 := by
  have hmix : cellMix [10, 40, 10, 40] 2 2 96 96 = (12504, 8811) := by decide +kernel
  have hvalue : interpolateOrientation [10, 40, 10, 40] 2 2 96 96 = some 25 := by decide +kernel
  obtain ⟨-, -, value, hsome, haccurate⟩ := @interpolateOrientation_accurate [10, 40, 10, 40]
    2 2 96 96 (by decide) (by decide) (by decide) (by decide)
  obtain rfl : 25 = value := Option.some.inj (hvalue.symm.trans hsome)
  rw [hmix] at haccurate
  obtain ⟨α, hangle, hclose⟩ := haccurate (by decide)
  exact ⟨hvalue, α, hangle, hclose⟩

end Fpc
