/-
**Morphology on a grid.**

A set of cells of a grid is grown by replacing it with all cells near it, and shrunk by keeping the
cells near which there is nothing else.  Doing so by small squares again and again is doing so once
by a large square, and growing before shrinking by the same square closes small gaps.  Filling the
spans between the cells of a row, or of a column, leaves lines without gaps; shrinking a set that
has no gaps in its rows keeps it so inside a box, even when everything outside the box has been
added to the set.

Main definitions:

* `Morphology.near` — the cells whose rows and columns differ by at most `k`;
* `Morphology.rowHull`, `Morphology.columnHull` — filling spans;
* `Morphology.RowConvex` — no row has a gap.

Main results:

* `Morphology.near_comp` — **small squares make up a large one**;
* `Morphology.image_iterate`, `Morphology.core_iterate` — growing and shrinking step by step;
* `Morphology.subset_core_image` — closing loses nothing;
* `Morphology.rowConvex_core_outside` — **shrinking a set without gaps**.
-/

import Mathlib.Data.Rel
import Mathlib.Data.Set.Lattice
import Mathlib.Logic.Function.Iterate

set_option relaxedAutoImplicit false
set_option autoImplicit false

namespace Morphology

variable {h w : ℕ}

/-- A cell of a grid: its row and its column. -/
abbrev Cell (h w : ℕ) : Type := Fin h × Fin w

/-! ### Squares -/

/-- Two cells whose rows and columns differ by at most `k`. -/
def near (h w k : ℕ) : SetRel (Cell h w) (Cell h w) :=
  {pq | (pq.1.1 : ℕ) ≤ pq.2.1 + k ∧ (pq.2.1 : ℕ) ≤ pq.1.1 + k ∧
    (pq.1.2 : ℕ) ≤ pq.2.2 + k ∧ (pq.2.2 : ℕ) ≤ pq.1.2 + k}

theorem mem_near {k : ℕ} {p q : Cell h w} :
    (p, q) ∈ near h w k ↔ (p.1 : ℕ) ≤ q.1 + k ∧ (q.1 : ℕ) ≤ p.1 + k ∧
      (p.2 : ℕ) ≤ q.2 + k ∧ (q.2 : ℕ) ≤ p.2 + k := Iff.rfl

/-- A cell is near itself. -/
theorem near_refl (k : ℕ) (p : Cell h w) : (p, p) ∈ near h w k := by
  rw [mem_near]
  omega

/-- On a line: a place within `j` of one place and within `k` of another. -/
theorem exists_between {n j k : ℕ} (a b : Fin n) (hab : (a : ℕ) ≤ b + (j + k))
    (hba : (b : ℕ) ≤ a + (j + k)) :
    ∃ c : Fin n, (a : ℕ) ≤ c + j ∧ (c : ℕ) ≤ a + j ∧ (c : ℕ) ≤ b + k ∧ (b : ℕ) ≤ c + k := by
  have ha := a.isLt
  have hb := b.isLt
  rcases le_total (a : ℕ) b with hle | hle
  · -- move up by `j`, but not past `b`
    exact ⟨⟨min (a + j) b, by omega⟩, by simp only; omega, by simp only; omega,
      by simp only; omega, by simp only; omega⟩
  · exact ⟨⟨max (a - j) b, by omega⟩, by simp only; omega, by simp only; omega,
      by simp only; omega, by simp only; omega⟩

open SetRel in
/-- **Small squares make up a large one.** -/
theorem near_comp (j k : ℕ) : SetRel.comp (near h w j) (near h w k) = near h w (j + k) := by
  ext ⟨p, q⟩
  constructor
  · rintro ⟨r, hpr, hrq⟩
    rw [mem_near] at *
    omega
  · intro hpq
    obtain ⟨h₁, h₂, h₃, h₄⟩ := mem_near.1 hpq
    obtain ⟨y, hy⟩ := exists_between p.1 q.1 h₁ h₂
    obtain ⟨x, hx⟩ := exists_between p.2 q.2 h₃ h₄
    exact ⟨(y, x), mem_near.2 ⟨hy.1, hy.2.1, hx.1, hx.2.1⟩,
      mem_near.2 ⟨hy.2.2.1, hy.2.2.2, hx.2.2.1, hx.2.2.2⟩⟩

theorem near_zero_image (s : Set (Cell h w)) : (near h w 0).image s = s := by
  ext q
  constructor
  · rintro ⟨p, hp, hpq⟩
    rw [mem_near] at hpq
    have : p = q := Prod.ext (Fin.ext (by omega)) (Fin.ext (by omega))
    exact this ▸ hp
  · intro hq
    exact ⟨q, hq, near_refl 0 q⟩

theorem near_zero_core (s : Set (Cell h w)) : (near h w 0).core s = s := by
  ext p
  constructor
  · intro hp
    exact hp (near_refl 0 p)
  · intro hp q hpq
    rw [mem_near] at hpq
    have : p = q := Prod.ext (Fin.ext (by omega)) (Fin.ext (by omega))
    exact this ▸ hp

/-- Growing by single steps. -/
theorem image_iterate (k : ℕ) (s : Set (Cell h w)) :
    (near h w 1).image^[k] s = (near h w k).image s := by
  induction k generalizing s with
  | zero => exact (near_zero_image s).symm
  | succ k ih =>
      rw [Function.iterate_succ_apply, ih, ← SetRel.image_comp, near_comp, Nat.add_comm]

/-- Shrinking by single steps. -/
theorem core_iterate (k : ℕ) (s : Set (Cell h w)) :
    (near h w 1).core^[k] s = (near h w k).core s := by
  induction k generalizing s with
  | zero => exact (near_zero_core s).symm
  | succ k ih =>
      rw [Function.iterate_succ_apply, ih, ← SetRel.core_comp, near_comp]

/-- Closing loses nothing. -/
theorem subset_core_image (k : ℕ) (s : Set (Cell h w)) :
    s ⊆ (near h w k).core ((near h w k).image s) :=
  SetRel.image_core_gc.le_u_l s

/-! ### Spans -/

/-- The cells between two cells of their row. -/
def rowHull (s : Set (Cell h w)) : Set (Cell h w) :=
  {p | ∃ a b : Fin w, (p.1, a) ∈ s ∧ (p.1, b) ∈ s ∧ a ≤ p.2 ∧ p.2 ≤ b}

/-- The cells between two cells of their column. -/
def columnHull (s : Set (Cell h w)) : Set (Cell h w) :=
  {p | ∃ a b : Fin h, (a, p.2) ∈ s ∧ (b, p.2) ∈ s ∧ a ≤ p.1 ∧ p.1 ≤ b}

theorem subset_rowHull (s : Set (Cell h w)) : s ⊆ rowHull s :=
  fun p hp => ⟨p.2, p.2, hp, hp, Fin.le_refl _, Fin.le_refl _⟩

theorem subset_columnHull (s : Set (Cell h w)) : s ⊆ columnHull s :=
  fun p hp => ⟨p.1, p.1, hp, hp, Fin.le_refl _, Fin.le_refl _⟩

theorem rowHull_mono {s t : Set (Cell h w)} (hst : s ⊆ t) : rowHull s ⊆ rowHull t :=
  fun _ ⟨a, b, ha, hb, hap, hpb⟩ => ⟨a, b, hst ha, hst hb, hap, hpb⟩

theorem columnHull_mono {s t : Set (Cell h w)} (hst : s ⊆ t) : columnHull s ⊆ columnHull t :=
  fun _ ⟨a, b, ha, hb, hap, hpb⟩ => ⟨a, b, hst ha, hst hb, hap, hpb⟩

/-- No row has a gap. -/
def RowConvex (s : Set (Cell h w)) : Prop :=
  ∀ (y : Fin h) (a x b : Fin w), (y, a) ∈ s → (y, b) ∈ s → a ≤ x → x ≤ b → (y, x) ∈ s

theorem rowConvex_rowHull (s : Set (Cell h w)) : RowConvex (rowHull s) := by
  rintro y a x b ⟨c, -, hc, -, hca, -⟩ ⟨-, d, -, hd, -, hbd⟩ hax hxb
  exact ⟨c, d, hc, hd, Fin.le_trans hca hax, Fin.le_trans hxb hbd⟩

/-! ### Boxes -/

/-- The cells outside the box of the rows from `top` and the columns from `left`, up to `bottom` and
`right`. -/
def outside (top bottom left right : ℕ) : Set (Cell h w) :=
  {p | (p.1 : ℕ) < top ∨ bottom ≤ (p.1 : ℕ) ∨ (p.2 : ℕ) < left ∨ right ≤ (p.2 : ℕ)}

theorem not_mem_outside {top bottom left right : ℕ} {p : Cell h w} :
    p ∉ outside top bottom left right ↔
      top ≤ (p.1 : ℕ) ∧ (p.1 : ℕ) < bottom ∧ left ≤ (p.2 : ℕ) ∧ (p.2 : ℕ) < right := by
  rw [outside, Set.mem_ofPred_eq, not_or, not_or, not_or, not_lt, not_le, not_lt, not_le]

/-- **Shrinking a set without gaps.**  When everything outside a box is added to it, the rows of the
box have no gaps after shrinking either. -/
theorem rowConvex_core_outside {top bottom left right k : ℕ} {s : Set (Cell h w)}
    (hs : RowConvex s) {y : Fin h} {a x b : Fin w}
    (ha : (y, a) ∈ (near h w k).core (s ∪ outside top bottom left right))
    (hb : (y, b) ∈ (near h w k).core (s ∪ outside top bottom left right))
    (hax : a ≤ x) (hxb : x ≤ b) (hleft : left ≤ (a : ℕ)) (hright : (b : ℕ) < right) :
    (y, x) ∈ (near h w k).core (s ∪ outside top bottom left right) := by
  intro q hq
  by_cases houtside : q ∈ outside top bottom left right
  · exact Or.inr houtside
  left
  obtain ⟨h₁, h₂, h₃, h₄⟩ := not_mem_outside.1 houtside
  obtain ⟨hy, hy', hx, hx'⟩ := mem_near.1 hq
  have hwidth := q.2.isLt
  rw [Fin.le_def] at hax hxb
  simp only at hx hx' hy hy'
  -- in the row of `q` there is a cell of the set left of `q`, near the left cell
  have hbefore : ∃ c : Fin w, c ≤ q.2 ∧ (q.1, c) ∈ s := by
    refine ⟨⟨max left (a - k), by omega⟩, Fin.le_def.2 (by simp only; omega), ?_⟩
    refine (ha (b := (q.1, ⟨max left (a - k), by omega⟩))
      (mem_near.2 (by simp only; omega))).resolve_right ?_
    exact not_mem_outside.2 (by simp only; omega)
  -- and one right of `q`, near the right cell
  have hafter : ∃ c : Fin w, q.2 ≤ c ∧ (q.1, c) ∈ s := by
    refine ⟨⟨min (min (right - 1) (b + k)) (w - 1), by omega⟩,
      Fin.le_def.2 (by simp only; omega), ?_⟩
    refine (hb (b := (q.1, ⟨min (min (right - 1) (b + k)) (w - 1), by omega⟩))
      (mem_near.2 (by simp only; omega))).resolve_right ?_
    exact not_mem_outside.2 (by simp only; omega)
  obtain ⟨c, hc, hcs⟩ := hbefore
  obtain ⟨d, hd, hds⟩ := hafter
  exact hs q.1 c q.2 d hcs hds hc hd

end Morphology
