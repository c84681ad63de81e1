/-
**Distances up to an involution.**

Two things may look different only because one of them was turned.  The smaller of the distances to
a thing and to its turned image does not see the turn: when the turn keeps distances and turning
twice does nothing, it is a distance again, of things up to the turn.

Main definitions:

* `Orbit.Turning` — a distance and a turn that keeps it;
* `Orbit.dist` — the smaller of the two distances.

Main results:

* `Orbit.Turning.dist_comm`, `Orbit.Turning.dist_left`, `Orbit.Turning.dist_right`,
  `Orbit.Turning.dist_eq_zero`, `Orbit.Turning.dist_triangle` — **it is a distance up to turns**.
-/

import Mathlib.Data.Nat.Notation
import Mathlib.Order.Lattice
import Mathlib.Order.MinMax

set_option relaxedAutoImplicit false
set_option autoImplicit false

namespace Orbit

variable {α : Type*}

/-- The smaller of the distances to `b` and to `b` turned. -/
def dist (d : α → α → ℕ) (turn : α → α) (a b : α) : ℕ := min (d a b) (d a (turn b))

/-- A distance and an involution that keeps it. -/
structure Turning (d : α → α → ℕ) (turn : α → α) : Prop where
  eq_zero : ∀ a b, d a b = 0 ↔ a = b
  comm : ∀ a b, d a b = d b a
  triangle : ∀ a b c, d a c ≤ d a b + d b c
  turn_turn : ∀ a, turn (turn a) = a
  isometry : ∀ a b, d (turn a) (turn b) = d a b

namespace Turning

variable {d : α → α → ℕ} {turn : α → α}

/-- A turn may be moved to the other side. -/
theorem move (h : Turning d turn) (a b : α) : d (turn a) b = d a (turn b) := by
  rw [← h.isometry a (turn b), h.turn_turn]

theorem dist_comm (h : Turning d turn) (a b : α) : dist d turn a b = dist d turn b a := by
  rw [dist, dist, h.comm a b, h.comm a (turn b), h.move]

theorem dist_right (h : Turning d turn) (a b : α) : dist d turn a (turn b) = dist d turn a b := by
  rw [dist, dist, h.turn_turn, Nat.min_comm]

theorem dist_left (h : Turning d turn) (a b : α) : dist d turn (turn a) b = dist d turn a b := by
  rw [h.dist_comm, h.dist_right, h.dist_comm]

theorem dist_eq_zero (h : Turning d turn) (a b : α) :
    dist d turn a b = 0 ↔ a = b ∨ a = turn b := by
  rw [← h.eq_zero a b, ← h.eq_zero a (turn b), dist]
  omega

/-- **The way over a third one is no shorter.** -/
theorem dist_triangle (h : Turning d turn) (a b c : α) :
    dist d turn a c ≤ dist d turn a b + dist d turn b c := by
  -- turn `c` whenever `b` is
  have hplain := h.triangle a b c
  have hlast := h.triangle a b (turn c)
  have hmiddle := h.triangle a (turn b) (turn c)
  have hboth := h.triangle a (turn b) c
  rw [h.isometry] at hmiddle
  rw [h.move] at hboth
  unfold dist
  omega

end Turning

end Orbit
