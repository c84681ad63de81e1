/-
**Sliding windows.**

The sum over a window of fixed width is kept up to date by taking out the value that leaves and
adding the one that enters.  Near the ends of a line the window stays where it is and its sum is
repeated, which is the sum of the window at a clamped place.

Main definitions:

* `Window.total` — the sum of the values in a window;
* `Window.clamp` — the nearest place between two bounds.

Main results:

* `Window.total_succ` — **the window moved by one place**;
* `Window.total_le` — a bound on the sum from one on the values.
-/

import Mathlib.Algebra.BigOperators.Group.Finset.Basic
import Mathlib.Algebra.Order.BigOperators.Group.Finset
import Mathlib.Algebra.Order.Group.Nat

set_option relaxedAutoImplicit false
set_option autoImplicit false

namespace Window

/-- The sum of `width` values from `start` on. -/
def total (value : ℕ → ℕ) (width start : ℕ) : ℕ :=
  ∑ j ∈ Finset.range width, value (start + j)

/-- **The window moved by one place.** -/
theorem total_succ (value : ℕ → ℕ) (width start : ℕ) :
    total value width (start + 1) + value start =
      total value width start + value (start + width) := by
  have hfront := Finset.sum_range_succ' (fun j => value (start + j)) width
  have hback := Finset.sum_range_succ (fun j => value (start + j)) width
  have hshift : total value width (start + 1) =
      ∑ j ∈ Finset.range width, value (start + (j + 1)) := by
    refine Finset.sum_congr rfl ?_
    intro j _
    rw [Nat.add_right_comm, Nat.add_assoc]
  rw [hshift]
  exact hfront.symm.trans hback

/-- The value that leaves is part of the sum. -/
theorem value_le_total (value : ℕ → ℕ) {width : ℕ} (h : 0 < width) (start : ℕ) :
    value start ≤ total value width start :=
  Finset.single_le_sum (f := fun j => value (start + j)) (fun _ _ => Nat.zero_le _)
    (Finset.mem_range.2 h)

theorem total_le {value : ℕ → ℕ} {bound : ℕ} (h : ∀ k, value k ≤ bound) (width start : ℕ) :
    total value width start ≤ width * bound := by
  have := Finset.sum_le_card_nsmul (Finset.range width) (fun j => value (start + j)) bound
    fun j _ => h _
  rwa [Finset.card_range, Nat.nsmul_eq_mul] at this

/-- Sums of equal values are equal. -/
theorem total_congr {value value' : ℕ → ℕ} {width start : ℕ}
    (h : ∀ j < width, value (start + j) = value' (start + j)) :
    total value width start = total value' width start :=
  Finset.sum_congr rfl fun j hj => h j (Finset.mem_range.1 hj)

/-- The place between two bounds that is nearest to `k`. -/
def clamp (low high k : ℕ) : ℕ := max low (min k high)

theorem clamp_of_mem {low high k : ℕ} (hlow : low ≤ k) (hhigh : k ≤ high) :
    clamp low high k = k := by
  rw [clamp, Nat.min_eq_left hhigh, Nat.max_eq_right hlow]

theorem clamp_of_le {low high k : ℕ} (h : k ≤ low) : clamp low high k = low :=
  Nat.max_eq_left ((Nat.min_le_left k high).trans h)

theorem clamp_of_gt {low high k : ℕ} (hle : low ≤ high) (h : high < k) :
    clamp low high k = high := by
  unfold clamp
  omega

end Window
