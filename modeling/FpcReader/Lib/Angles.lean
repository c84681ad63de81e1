/-
**Angles of vectors.**

A vector in the plane is a complex number.  Multiplying vectors adds their angles, and a vector in
the right half plane has the arctangent of its slope; so an angle is computed by turning a vector
near the axis and taking an arctangent there.  The arctangent in turn is compared with a polynomial
through its derivative.

Main definitions:

* `Angles.HasAngle` — a vector that is not zero points in the direction of an angle.

Main results:

* `Angles.HasAngle.mul`, `Angles.hasAngle_arctan` — products, and the right half plane;
* `Angles.abs_arctan_sub_arctan_le` — the arctangent moves no faster than its argument;
* `Angles.abs_sub_arctan_le` — **what has nearly the derivative of the arctangent is close to it**.
-/

import Mathlib

set_option relaxedAutoImplicit false
set_option autoImplicit false

namespace Angles

open Complex

/-- The vector points in the direction of the angle. -/
def HasAngle (z : ℂ) (α : ℝ) : Prop := ∃ r : ℝ, 0 < r ∧ z = r * exp (α * I)

/-- Multiplying vectors adds their angles. -/
theorem HasAngle.mul {z w : ℂ} {α β : ℝ} (hz : HasAngle z α) (hw : HasAngle w β) :
    HasAngle (z * w) (α + β) := by
  obtain ⟨r, hr, rfl⟩ := hz
  obtain ⟨s, hs, rfl⟩ := hw
  refine ⟨r * s, mul_pos hr hs, ?_⟩
  push_cast
  rw [add_mul, exp_add]
  ring

/-- A vector that is a positive multiple of another one. -/
theorem HasAngle.of_smul {z w : ℂ} {α c : ℝ} (hc : 0 < c) (h : (c : ℂ) * z = w)
    (hw : HasAngle w α) : HasAngle z α := by
  obtain ⟨r, hr, rfl⟩ := hw
  refine ⟨r / c, div_pos hr hc, ?_⟩
  have hc' : (c : ℂ) ≠ 0 := by exact_mod_cast hc.ne'
  push_cast
  field_simp
  linear_combination h

/-- In the right half plane, the angle is the arctangent of the slope. -/
theorem hasAngle_arctan {x y : ℝ} (hx : 0 < x) :
    HasAngle (x + y * I) (Real.arctan (y / x)) := by
  have hroot : 0 < √(1 + (y / x) ^ 2) := Real.sqrt_pos.2 (by positivity)
  refine ⟨x * √(1 + (y / x) ^ 2), mul_pos hx hroot, ?_⟩
  rw [exp_mul_I, ← ofReal_cos, ← ofReal_sin, Real.cos_arctan, Real.sin_arctan]
  generalize √(1 + (y / x) ^ 2) = root at hroot ⊢
  have hroot' : (root : ℂ) ≠ 0 := by exact_mod_cast hroot.ne'
  have hx' : (x : ℂ) ≠ 0 := by exact_mod_cast hx.ne'
  push_cast
  field_simp

/-- A quarter of a turn. -/
theorem hasAngle_I : HasAngle I (Real.pi / 2) := by
  refine ⟨1, one_pos, ?_⟩
  push_cast
  rw [exp_pi_div_two_mul_I]
  simp

/-- Half a turn, backwards. -/
theorem hasAngle_neg_one : HasAngle (-1) (-Real.pi) := by
  refine ⟨1, one_pos, ?_⟩
  push_cast
  rw [neg_mul, exp_neg, exp_pi_mul_I]
  norm_num

/-- An angle is the same after a full turn. -/
theorem HasAngle.sub_two_pi {z : ℂ} {α : ℝ} (h : HasAngle z α) : HasAngle z (α - 2 * Real.pi) := by
  obtain ⟨r, hr, rfl⟩ := h
  refine ⟨r, hr, ?_⟩
  push_cast
  rw [sub_mul, exp_sub, exp_two_pi_mul_I, div_one]

/-- The arctangent moves no faster than its argument. -/
theorem abs_arctan_sub_arctan_le (x y : ℝ) : |Real.arctan x - Real.arctan y| ≤ |x - y| := by
  have hbound : ∀ t ∈ (Set.univ : Set ℝ), ‖1 / (1 + t ^ 2)‖ ≤ 1 := by
    intro t _
    rw [Real.norm_eq_abs, abs_of_pos (by positivity), div_le_one (by positivity)]
    nlinarith [sq_nonneg t]
  have h := convex_univ.norm_image_sub_le_of_norm_hasDerivWithin_le
    (fun t _ => (Real.hasDerivAt_arctan t).hasDerivWithinAt) hbound (Set.mem_univ y)
    (Set.mem_univ x)
  rwa [one_mul, Real.norm_eq_abs, Real.norm_eq_abs] at h

/-- **What has nearly the derivative of the arctangent is close to it.** -/
theorem abs_sub_arctan_le {p p' : ℝ → ℝ} {K C m t : ℝ} (hp : ∀ t, HasDerivAt p (p' t) t)
    (hzero : p 0 = 0) (hbound : ∀ t ∈ Set.Icc (-m) m, |p' t - K / (1 + t ^ 2)| ≤ C)
    (ht : |t| ≤ m) : |p t - K * Real.arctan t| ≤ C * |t| := by
  have hderiv : ∀ t ∈ Set.Icc (-m) m, HasDerivWithinAt (fun t => p t - K * Real.arctan t)
      (p' t - K * (1 / (1 + t ^ 2))) (Set.Icc (-m) m) t := fun t _ =>
    ((hp t).sub ((Real.hasDerivAt_arctan t).const_mul K)).hasDerivWithinAt
  have hm : 0 ≤ m := (abs_nonneg t).trans ht
  have h := (convex_Icc (-m) m).norm_image_sub_le_of_norm_hasDerivWithin_le hderiv
    (fun t ht => by
      rw [Real.norm_eq_abs, mul_one_div]
      exact hbound t ht)
    (show (0 : ℝ) ∈ Set.Icc (-m) m from ⟨by linarith, hm⟩)
    (show t ∈ Set.Icc (-m) m from abs_le.1 ht)
  simpa [hzero] using h

end Angles
