/-
**Peaks of a plane.**

A peak is a place whose value is greater than those of its eight neighbours.  Peaks are collected in
one scan over the plane, which goes on without collecting once there is no room left; what it
collects are the first peaks of the scan.  No two peaks are neighbours.

Main definitions:

* `Peaks.isPeak` — is the value of a place greater than its neighbours'?
* `Peaks.raster` — the places of a plane without its border, row by row;
* `Peaks.collect` — a scan with limited room.

Main results:

* `Peaks.collect_eq` — **the first places that pass**;
* `Peaks.isPeak_apart` — **no two peaks are neighbours**;
* `Peaks.raster_sorted` — the order of the scan.
-/

import Mathlib.Data.List.Basic
import Mathlib.Data.List.Induction
import Mathlib.Data.Nat.Notation

set_option relaxedAutoImplicit false
set_option autoImplicit false

namespace Peaks

variable {α β : Type}

/-! ### Scans with limited room -/

/-- Collect what passes, while there is room. -/
def collect (capacity : ℕ) (p : α → Bool) (f : α → β) (places : List α) : List β :=
  places.foldl (fun found a =>
    if capacity ≤ found.length then found else if p a then found ++ [f a] else found) []

/-- **The first places that pass.** -/
theorem collect_eq (capacity : ℕ) (p : α → Bool) (f : α → β) (places : List α) :
    collect capacity p f places = ((places.filter p).map f).take capacity := by
  rw [collect]
  induction places using List.reverseRecOn with
  | nil => simp
  | append_singleton places a ih =>
      rw [List.foldl_append, List.foldl_cons, List.foldl_nil, ih, List.filter_append,
        List.map_append, List.take_append, List.length_take]
      by_cases hfull : capacity ≤ ((places.filter p).map f).length
      · rw [if_pos (by omega), Nat.sub_eq_zero_of_le hfull, List.take_zero, List.append_nil]
      · rw [if_neg (by omega)]
        cases hp : p a with
        | true =>
            have hroom : ([f a]).length ≤ capacity - ((places.filter p).map f).length := by
              rw [List.length_singleton]
              omega
            rw [if_pos rfl, List.filter_cons_of_pos hp, List.filter_nil, List.map_cons,
              List.map_nil, List.take_of_length_le (by omega), List.take_of_length_le hroom]
        | false =>
            rw [if_neg (by simp), List.filter_cons_of_neg (by simp [hp]), List.filter_nil,
              List.map_nil, List.take_nil, List.append_nil]

/-! ### Places -/

/-- The places of a plane of the given height and width that are not on its border, as pairs of a
row and a column. -/
def raster (border height width : ℕ) : List (ℕ × ℕ) :=
  (List.range (height - border - border)).flatMap fun y =>
    (List.range (width - border - border)).map fun x => (y + border, x + border)

theorem mem_raster {border height width : ℕ} {q : ℕ × ℕ} :
    q ∈ raster border height width ↔
      (border ≤ q.1 ∧ q.1 < height - border) ∧ border ≤ q.2 ∧ q.2 < width - border := by
  obtain ⟨y, x⟩ := q
  simp only [raster, List.mem_flatMap, List.mem_map, List.mem_range, Prod.mk.injEq]
  constructor
  · rintro ⟨dy, hy, dx, hx, rfl, rfl⟩
    omega
  · rintro ⟨⟨h₁, h₂⟩, h₃, h₄⟩
    exact ⟨y - border, by omega, x - border, by omega, by omega, by omega⟩

/-- The scan goes row by row, and from left to right in a row. -/
theorem raster_sorted (border height width : ℕ) :
    (raster border height width).Pairwise fun q r => q.1 < r.1 ∨ q.1 = r.1 ∧ q.2 < r.2 := by
  rw [raster, List.pairwise_flatMap]
  constructor
  · intro y _
    rw [List.pairwise_map]
    exact List.pairwise_lt_range.imp fun hlt => Or.inr ⟨rfl, by omega⟩
  · refine List.pairwise_lt_range.imp fun hlt q hq r hr => ?_
    obtain ⟨x, -, rfl⟩ := List.mem_map.1 hq
    obtain ⟨x', -, rfl⟩ := List.mem_map.1 hr
    left
    simp only
    omega

/-! ### Peaks -/

variable (lt : α → α → Bool) (value : ℕ → ℕ → α)

/-- Is the value of a place greater than those of its eight neighbours? -/
def isPeak (y x : ℕ) : Bool :=
  (List.range 3).all fun dy => (List.range 3).all fun dx =>
    (dy == 1 && dx == 1) || lt (value (y + dy - 1) (x + dx - 1)) (value y x)

/-- Two different places that are neighbours. -/
def Adjacent (q r : ℕ × ℕ) : Prop :=
  q ≠ r ∧ q.1 ≤ r.1 + 1 ∧ r.1 ≤ q.1 + 1 ∧ q.2 ≤ r.2 + 1 ∧ r.2 ≤ q.2 + 1

/-- A peak, in terms of its neighbours. -/
theorem isPeak_iff {y x : ℕ} (hy : 1 ≤ y) (hx : 1 ≤ x) :
    isPeak lt value y x = true ↔
      ∀ q, Adjacent q (y, x) → lt (value q.1 q.2) (value y x) = true := by
  simp only [isPeak, List.all_eq_true, List.mem_range, Bool.or_eq_true, Bool.and_eq_true,
    beq_iff_eq]
  constructor
  · rintro h ⟨y', x'⟩ ⟨hne, h₁, h₂, h₃, h₄⟩
    simp only at h₁ h₂ h₃ h₄
    have hplace := h (y' + 1 - y) (by omega) (x' + 1 - x) (by omega)
    have hrow : y + (y' + 1 - y) - 1 = y' := by omega
    have hcolumn : x + (x' + 1 - x) - 1 = x' := by omega
    rw [hrow, hcolumn] at hplace
    refine hplace.resolve_left ?_
    rintro ⟨hy', hx'⟩
    exact hne (Prod.ext (by simp only; omega) (by simp only; omega))
  · intro h dy hdy dx hdx
    by_cases hcentre : dy = 1 ∧ dx = 1
    · exact Or.inl hcentre
    · right
      refine h (y + dy - 1, x + dx - 1) ⟨?_, ?_⟩
      · rw [ne_eq, Prod.mk.injEq]
        omega
      · simp only
        omega

/-- **No two peaks are neighbours.** -/
theorem isPeak_apart (hasymm : ∀ a b, lt a b = true → lt b a = true → False) {q r : ℕ × ℕ}
    (hq : 1 ≤ q.1 ∧ 1 ≤ q.2) (hr : 1 ≤ r.1 ∧ 1 ≤ r.2) (hpq : isPeak lt value q.1 q.2 = true)
    (hpr : isPeak lt value r.1 r.2 = true) : ¬ Adjacent q r := by
  intro hadjacent
  obtain ⟨hne, h₁, h₂, h₃, h₄⟩ := hadjacent
  have hleft := (isPeak_iff lt value hr.1 hr.2).1 hpr q ⟨hne, h₁, h₂, h₃, h₄⟩
  have hright := (isPeak_iff lt value hq.1 hq.2).1 hpq r ⟨hne.symm, h₂, h₁, h₄, h₃⟩
  exact hasymm _ _ hleft hright

end Peaks
