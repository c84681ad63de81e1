/-
**The places of edges.**

The scores between the captures of a template stand in an array of pairs, row by row.  Two different
captures below the capacity have a place in it, in either order, and no two pairs share one.

Main definitions:

* `Fpc.place` — the place of two captures.

Main results:

* `Fpc.enrollmentPairIndex_isSome_iff`, `Fpc.enrollmentPairIndex_inj`, `Fpc.existsUnique_pair` —
  **places are one-to-one**.
-/

import FpcReader.Lib.Triangle
import FpcReader.Native.Update

set_option relaxedAutoImplicit false
set_option autoImplicit false

namespace Fpc

/-- The place of the edge of two captures, in either order. -/
def place (capacity i j : ℕ) : ℕ := Triangle.row capacity (min i j) (max i j)

theorem place_comm (capacity i j : ℕ) : place capacity i j = place capacity j i := by
  rw [place, place, Nat.min_comm, Nat.max_comm]

/-- Two different captures below the capacity have a place. -/
theorem enrollmentPairIndex_place {capacity i j : ℕ} (h2 : 2 ≤ capacity) (hmax : capacity ≤ 65535)
    (hi : i < capacity) (hj : j < capacity) (hne : i ≠ j) :
    enrollmentPairIndex capacity i j = some (place capacity i j) := by
  unfold enrollmentPairIndex
  rw [if_neg (by omega)]
  rfl

/-- Every other input is rejected. -/
theorem enrollmentPairIndex_isSome_iff (capacity i j : ℕ) :
    (enrollmentPairIndex capacity i j).isSome = true ↔
      2 ≤ capacity ∧ capacity ≤ 65535 ∧ i < capacity ∧ j < capacity ∧ i ≠ j := by
  constructor
  · intro h
    unfold enrollmentPairIndex at h
    split_ifs at h with hbad
    · exact absurd h (by simp)
    · omega
  · rintro ⟨h2, hmax, hi, hj, hne⟩
    rw [enrollmentPairIndex_place h2 hmax hi hj hne]
    rfl

theorem place_lt {capacity i j : ℕ} (hi : i < capacity) (hj : j < capacity) (hne : i ≠ j) :
    place capacity i j < Triangle.pairs capacity :=
  Triangle.row_lt (by omega) (by omega)

/-- Different edges have different places. -/
theorem place_inj {capacity i j i' j' : ℕ} (hi : i < capacity) (hj : j < capacity) (hne : i ≠ j)
    (hi' : i' < capacity) (hj' : j' < capacity) (hne' : i' ≠ j')
    (h : place capacity i j = place capacity i' j') : (i = i' ∧ j = j') ∨ (i = j' ∧ j = i') := by
  have := Triangle.row_inj (by omega) (by omega) (by omega) (by omega) h
  omega

/-- **Every place below the number of pairs is that of exactly one pair.** -/
theorem existsUnique_pair {capacity index : ℕ} (h2 : 2 ≤ capacity) (hmax : capacity ≤ 65535)
    (h : index < Triangle.pairs capacity) :
    ∃! pair : ℕ × ℕ, pair.1 < pair.2 ∧ pair.2 < capacity ∧
      enrollmentPairIndex capacity pair.1 pair.2 = some index := by
  obtain ⟨low, high, hlt, hhigh, hrow⟩ := Triangle.exists_row h
  have hplace : place capacity low high = index := by
    rw [place, Nat.min_eq_left hlt.le, Nat.max_eq_right hlt.le, hrow]
  refine ⟨(low, high), ⟨hlt, hhigh, ?_⟩, ?_⟩
  · rw [enrollmentPairIndex_place h2 hmax (by omega) hhigh hlt.ne, hplace]
  · rintro ⟨i, j⟩ ⟨hij, hj, hindex⟩
    rw [enrollmentPairIndex_place h2 hmax (hij.trans hj) hj hij.ne] at hindex
    have hsame := place_inj (hij.trans hj) hj hij.ne (hlt.trans hhigh) hhigh hlt.ne
      ((Option.some.inj hindex).trans hplace.symm)
    have : i = low ∧ j = high := by
      dsimp only at hij
      omega
    rw [this.1, this.2]

/-- The place of two captures in order. -/
theorem enrollmentPairIndex_eq {capacity earlier later : ℕ} (h : earlier < later)
    (hlater : later < capacity) (hmax : capacity ≤ 65535) :
    enrollmentPairIndex capacity earlier later = some (Triangle.row capacity earlier later) := by
  rw [enrollmentPairIndex_place (by omega) hmax (h.trans hlater) hlater h.ne, place,
    Nat.min_eq_left h.le, Nat.max_eq_right h.le]

/-- Different edges have different places. -/
theorem enrollmentPairIndex_inj {capacity i j i' j' index : ℕ}
    (h : enrollmentPairIndex capacity i j = some index)
    (h' : enrollmentPairIndex capacity i' j' = some index) :
    (i = i' ∧ j = j') ∨ (i = j' ∧ j = i') := by
  obtain ⟨h2, hmax, hi, hj, hne⟩ := (enrollmentPairIndex_isSome_iff capacity i j).1 (by rw [h]; rfl)
  obtain ⟨-, -, hi', hj', hne'⟩ := (enrollmentPairIndex_isSome_iff capacity i' j').1
    (by rw [h']; rfl)
  rw [enrollmentPairIndex_place h2 hmax hi hj hne] at h
  rw [enrollmentPairIndex_place h2 hmax hi' hj' hne'] at h'
  exact place_inj hi hj hne hi' hj' hne' (Option.some.inj (h.trans h'.symm))

end Fpc
