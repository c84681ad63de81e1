/-
**The coverage mask of a capture.**

The valid pixels of a frame are put on a larger grid, closed, made solid along the columns and the
rows, framed and shrunk.  What is left is the mask of the capture, which is also kept as packed
bits.  The small steps of the source add up to a closing by an 11 by 11 square and a shrinking by a
21 by 21 square.

Main definitions:

* `Fpc.morph` — one step of growing or shrinking, by a pass along the rows and one along the
  columns;
* `Fpc.captureGrid` — the grid before the mask is taken from it;
* `Fpc.captureMask` — the mask, the packed mask and the number of valid pixels.

Main results:

* `Fpc.cells_morph` — **a step grows or shrinks by the cells next to it**;
* `Fpc.captureMask_window` — a pixel is valid exactly when the square around it is solid;
* `Fpc.captureMask_spans` — **the valid pixels of a row are next to each other**;
* `Fpc.captureMask_packed` — the packed mask is the mask, and the count counts it.
-/

import FpcReader.Lib.Morphology
import FpcReader.Native.Masks

set_option relaxedAutoImplicit false
set_option autoImplicit false

namespace Fpc

open Morphology PackedBits

/-! ### The grid -/

/-- A cell of the grid of 100 rows and 128 columns. -/
def gridAt (grid : Array Bool) (y x : ℕ) : Bool := grid.getD (y * 128 + x) false

/-- The grid with the given cells. -/
def gridOf (f : ℕ → ℕ → Bool) : Array Bool := (Array.range 12800).map fun i => f (i / 128) (i % 128)

@[simp]
theorem gridAt_gridOf {f : ℕ → ℕ → Bool} {y x : ℕ} (hy : y < 100) (hx : x < 128) :
    gridAt (gridOf f) y x = f y x := by
  have hi : y * 128 + x < 12800 := by omega
  have hdiv : (y * 128 + x) / 128 = y := by omega
  have hmod : (y * 128 + x) % 128 = x := by omega
  simp [gridAt, gridOf, Array.getD_eq_getD_getElem?, hi, hdiv, hmod]

/-- One step: cells outside the grid do not help growing and do not hinder shrinking. -/
def morph (dilate : Bool) (grid : Array Bool) : Array Bool :=
  let temporary := gridOf fun y x =>
    let a := if x ≠ 0 then gridAt grid y (x - 1) else !dilate
    let b := if x < 127 then gridAt grid y (x + 1) else !dilate
    if dilate then gridAt grid y x || a || b else gridAt grid y x && a && b
  gridOf fun y x =>
    let a := if y ≠ 0 then gridAt temporary (y - 1) x else !dilate
    let b := if y < 99 then gridAt temporary (y + 1) x else !dilate
    if dilate then gridAt temporary y x || a || b else gridAt temporary y x && a && b

/-- The loop over a line of `n`, after `m` places: the first and the last set place so far. -/
def spanLoop (p : ℕ → Bool) (n m : ℕ) : ℕ × ℕ :=
  (List.range m).foldl (fun s i => if p i then (if s.1 = n then i else s.1, i) else s) (n, 0)

/-- The first and the last set place of a line; the first is the length of the line when there is
none. -/
def span (p : ℕ → Bool) (n : ℕ) : ℕ × ℕ := spanLoop p n n

/-- Is this place of the line in its span? -/
def inSpan (p : ℕ → Bool) (n i : ℕ) : Bool :=
  let s := span p n
  s.1 != n && decide (s.1 ≤ i) && decide (i ≤ s.2)

/-- Fill the span of every column. -/
def fillColumns (grid : Array Bool) : Array Bool :=
  gridOf fun y x => gridAt grid y x || inSpan (fun y => gridAt grid y x) 100 y

/-- Fill the span of every row. -/
def fillRows (grid : Array Bool) : Array Bool :=
  gridOf fun y x => gridAt grid y x || inSpan (fun x => gridAt grid y x) 128 x

/-- Set the cells outside the image. -/
def setFrame (grid : Array Bool) : Array Bool :=
  gridOf fun y x =>
    gridAt grid y x || decide (y < 6) || decide (94 ≤ y) || decide (x < 6) || decide (118 ≤ x)

/-- The pixels of the image, six rows and columns into the grid. -/
def gridOfMask (mask : List UInt8) : Array Bool :=
  gridOf fun y x => decide (6 ≤ y ∧ y < 94 ∧ 6 ≤ x ∧ x < 118) &&
    mask.getD ((y - 6) * 112 + (x - 6)) 0 != 0

/-- The grid that the mask is taken from. -/
def captureGrid (mask : List UInt8) : Array Bool :=
  let closed := (morph false)^[5] ((morph true)^[5] (gridOfMask mask))
  (morph false)^[10] (setFrame (fillRows (fillColumns closed)))

/-- One pixel of the closing loop: the mask byte, the packed bit and the count. -/
def maskPixel (grid : Array Bool) (state : List UInt8 × List (BitVec 32) × ℕ) (i : ℕ) :
    List UInt8 × List (BitVec 32) × ℕ :=
  let y := i / 112
  let x := i % 112
  if gridAt grid (y + 6) (x + 6) then
    (state.1.set i 255, putBit state.2.1 (y * 128 + x) 1#32, state.2.2 + 1)
  else (state.1.set i 0, state.2)

/-- The mask, the packed mask and the number of valid pixels, from the valid pixels of the frame and
the packed mask as it was. -/
def captureMask (mask : List UInt8) (packed : List (BitVec 32)) :
    List UInt8 × List (BitVec 32) × ℕ :=
  (List.range 9856).foldl (maskPixel (captureGrid mask)) (mask, packed, 0)

/-! ### One step -/

/-- The set cells of a grid. -/
def cells (grid : Array Bool) : Set (Cell 100 128) := {p | gridAt grid p.1 p.2 = true}

theorem mem_cells {grid : Array Bool} {p : Cell 100 128} :
    p ∈ cells grid ↔ gridAt grid p.1 p.2 = true := Iff.rfl

theorem mem_cells_gridOf {f : ℕ → ℕ → Bool} {p : Cell 100 128} :
    p ∈ cells (gridOf f) ↔ f p.1 p.2 = true := by
  rw [mem_cells, gridAt_gridOf p.1.isLt p.2.isLt]

/-- A place of a line and the places next to it. -/
theorem exists_next {n : ℕ} {p : ℕ → Bool} {i : ℕ} (hi : i < n) :
    (p i || (if i ≠ 0 then p (i - 1) else false) || (if i < n - 1 then p (i + 1) else false)) =
      true ↔ ∃ j, j < n ∧ p j = true ∧ j ≤ i + 1 ∧ i ≤ j + 1 := by
  constructor
  · intro h
    rw [Bool.or_eq_true, Bool.or_eq_true] at h
    rcases h with (h | h) | h
    · exact ⟨i, hi, h, by omega, by omega⟩
    · split_ifs at h with h0
      exact ⟨i - 1, by omega, h, by omega, by omega⟩
    · split_ifs at h with h0
      exact ⟨i + 1, by omega, h, by omega, by omega⟩
  · rintro ⟨j, hj, hp, hji, hij⟩
    rcases Nat.lt_trichotomy j i with hlt | rfl | hgt
    · obtain rfl : j = i - 1 := by omega
      have h0 : i ≠ 0 := by omega
      simp [h0, hp]
    · simp [hp]
    · obtain rfl : j = i + 1 := by omega
      have h0 : i < n - 1 := by omega
      simp [h0, hp]

theorem forall_next {n : ℕ} {p : ℕ → Bool} {i : ℕ} (hi : i < n) :
    (p i && (if i ≠ 0 then p (i - 1) else true) && (if i < n - 1 then p (i + 1) else true)) =
      true ↔ ∀ j, j < n → j ≤ i + 1 → i ≤ j + 1 → p j = true := by
  constructor
  · intro h j hj hji hij
    rw [Bool.and_eq_true, Bool.and_eq_true] at h
    obtain ⟨⟨hhere, hbefore⟩, hafter⟩ := h
    rcases Nat.lt_trichotomy j i with hlt | rfl | hgt
    · obtain rfl : j = i - 1 := by omega
      rwa [if_pos (by omega)] at hbefore
    · exact hhere
    · obtain rfl : j = i + 1 := by omega
      rwa [if_pos (by omega)] at hafter
  · intro h
    rw [Bool.and_eq_true, Bool.and_eq_true]
    refine ⟨⟨h i hi (by omega) (by omega), ?_⟩, ?_⟩
    · split_ifs
      · exact h (i - 1) (by omega) (by omega) (by omega)
      · rfl
    · split_ifs
      · exact h (i + 1) (by omega) (by omega) (by omega)
      · rfl

/-- **Growing** adds the cells next to a set cell. -/
theorem cells_dilate (grid : Array Bool) :
    cells (morph true grid) = (near 100 128 1).image (cells grid) := by
  ext ⟨y, x⟩
  rw [morph, mem_cells_gridOf]
  simp only [Bool.not_true, if_true]
  rw [exists_next (p := fun y => gridAt _ y x) y.isLt]
  constructor
  · rintro ⟨j, hj, hrow, hji, hij⟩
    rw [gridAt_gridOf hj x.isLt, exists_next (p := fun x => gridAt grid j x) x.isLt] at hrow
    obtain ⟨k, hk, hset, hki, hik⟩ := hrow
    exact ⟨(⟨j, hj⟩, ⟨k, hk⟩), hset, mem_near.2 ⟨hji, hij, hki, hik⟩⟩
  · rintro ⟨⟨j, k⟩, hset, hnear⟩
    obtain ⟨hji, hij, hki, hik⟩ := mem_near.1 hnear
    refine ⟨j, j.isLt, ?_, hji, hij⟩
    rw [gridAt_gridOf j.isLt x.isLt, exists_next (p := fun x => gridAt grid j x) x.isLt]
    exact ⟨k, k.isLt, hset, hki, hik⟩

/-- **Shrinking** keeps the cells next to which all are set. -/
theorem cells_erode (grid : Array Bool) :
    cells (morph false grid) = (near 100 128 1).core (cells grid) := by
  ext ⟨y, x⟩
  rw [morph, mem_cells_gridOf]
  simp only [Bool.not_false, Bool.false_eq_true, if_false]
  rw [forall_next (p := fun y => gridAt _ y x) y.isLt]
  constructor
  · rintro h ⟨j, k⟩ hnear
    obtain ⟨hij, hji, hik, hki⟩ := mem_near.1 hnear
    have hrow := h j j.isLt hji hij
    rw [gridAt_gridOf j.isLt x.isLt, forall_next (p := fun x => gridAt grid j x) x.isLt] at hrow
    exact hrow k k.isLt hki hik
  · intro h j hj hji hij
    rw [gridAt_gridOf hj x.isLt, forall_next (p := fun x => gridAt grid j x) x.isLt]
    intro k hk hki hik
    exact h (b := (⟨j, hj⟩, ⟨k, hk⟩)) (mem_near.2 ⟨hij, hji, hik, hki⟩)

/-- The steps of a loop, as one square. -/
theorem cells_dilate_iterate (grid : Array Bool) (k : ℕ) :
    cells ((morph true)^[k] grid) = (near 100 128 k).image (cells grid) := by
  rw [← image_iterate]
  induction k generalizing grid with
  | zero => rfl
  | succ k ih => rw [Function.iterate_succ_apply, ih, cells_dilate, Function.iterate_succ_apply]

theorem cells_erode_iterate (grid : Array Bool) (k : ℕ) :
    cells ((morph false)^[k] grid) = (near 100 128 k).core (cells grid) := by
  rw [← core_iterate]
  induction k generalizing grid with
  | zero => rfl
  | succ k ih => rw [Function.iterate_succ_apply, ih, cells_erode, Function.iterate_succ_apply]

/-! ### Spans -/

/-- What the loop over a line has found after `m` places. -/
theorem span_spec (p : ℕ → Bool) {n m : ℕ} (hm : m ≤ n) :
    ((spanLoop p n m).1 = n ∧ ∀ i < m, p i = false) ∨
      ((spanLoop p n m).1 < m ∧ p (spanLoop p n m).1 = true ∧
        (spanLoop p n m).2 < m ∧ p (spanLoop p n m).2 = true ∧
        ∀ i < m, p i = true → (spanLoop p n m).1 ≤ i ∧ i ≤ (spanLoop p n m).2) := by
  induction m with
  | zero => exact Or.inl ⟨rfl, by simp⟩
  | succ m ih =>
      have hstep : spanLoop p n (m + 1) = if p m then
          (if (spanLoop p n m).1 = n then m else (spanLoop p n m).1, m) else spanLoop p n m := by
        rw [spanLoop, List.range_succ, List.foldl_append]
        rfl
      have hbefore := ih (by omega)
      rw [hstep]
      generalize spanLoop p n m = s at hbefore
      cases hp : p m with
      | false =>
          rw [if_neg (by simp)]
          rcases hbefore with ⟨hnone, hall⟩ | ⟨h₁, h₂, h₃, h₄, hall⟩
          · refine Or.inl ⟨hnone, fun i hi => ?_⟩
            rcases Nat.lt_succ_iff_lt_or_eq.1 hi with hlt | rfl
            · exact hall i hlt
            · exact hp
          · refine Or.inr ⟨by omega, h₂, by omega, h₄, fun i hi hset => ?_⟩
            rcases Nat.lt_succ_iff_lt_or_eq.1 hi with hlt | rfl
            · exact hall i hlt hset
            · rw [hp] at hset
              cases hset
      | true =>
          rw [if_pos rfl]
          right
          rcases hbefore with ⟨hnone, hall⟩ | ⟨h₁, h₂, h₃, h₄, hall⟩
          · rw [if_pos hnone]
            refine ⟨by simp, hp, by simp, hp, fun i hi hset => ?_⟩
            rcases Nat.lt_succ_iff_lt_or_eq.1 hi with hlt | rfl
            · rw [hall i hlt] at hset
              cases hset
            · simp
          · rw [if_neg (by omega)]
            refine ⟨by simp only; omega, h₂, by simp, hp, fun i hi hset => ?_⟩
            rcases Nat.lt_succ_iff_lt_or_eq.1 hi with hlt | rfl
            · have := hall i hlt hset
              simp only
              omega
            · simp only
              omega

/-- A place lies in the span exactly when it lies between two set places. -/
theorem inSpan_iff (p : ℕ → Bool) {n i : ℕ} :
    inSpan p n i = true ↔ ∃ a b, a < n ∧ b < n ∧ p a = true ∧ p b = true ∧ a ≤ i ∧ i ≤ b := by
  have hspan := span_spec p (le_refl n)
  rw [inSpan, span]
  generalize spanLoop p n n = s at hspan
  simp only [Bool.and_eq_true, bne_iff_ne, ne_eq, decide_eq_true_eq]
  constructor
  · rintro ⟨⟨hne, hfirst⟩, hlast⟩
    rcases hspan with ⟨hnone, -⟩ | ⟨h₁, h₂, h₃, h₄, -⟩
    · exact absurd hnone hne
    · exact ⟨_, _, h₁, h₃, h₂, h₄, hfirst, hlast⟩
  · rintro ⟨a, b, ha, hb, hpa, hpb, hai, hib⟩
    rcases hspan with ⟨-, hall⟩ | ⟨h₁, -, -, -, hall⟩
    · rw [hall a ha] at hpa
      cases hpa
    · have hfirst := hall a ha hpa
      have hlast := hall b hb hpb
      omega

/-- Filling columns and rows. -/
theorem cells_fillColumns (grid : Array Bool) :
    cells (fillColumns grid) = columnHull (cells grid) := by
  ext ⟨y, x⟩
  rw [fillColumns, mem_cells_gridOf, Bool.or_eq_true, inSpan_iff]
  constructor
  · rintro (hset | ⟨a, b, ha, hb, hpa, hpb, hay, hyb⟩)
    · exact subset_columnHull _ hset
    · exact ⟨⟨a, ha⟩, ⟨b, hb⟩, hpa, hpb, hay, hyb⟩
  · rintro ⟨a, b, ha, hb, hay, hyb⟩
    exact Or.inr ⟨a, b, a.isLt, b.isLt, ha, hb, hay, hyb⟩

theorem cells_fillRows (grid : Array Bool) : cells (fillRows grid) = rowHull (cells grid) := by
  ext ⟨y, x⟩
  rw [fillRows, mem_cells_gridOf, Bool.or_eq_true, inSpan_iff]
  constructor
  · rintro (hset | ⟨a, b, ha, hb, hpa, hpb, hax, hxb⟩)
    · exact subset_rowHull _ hset
    · exact ⟨⟨a, ha⟩, ⟨b, hb⟩, hpa, hpb, hax, hxb⟩
  · rintro ⟨a, b, ha, hb, hax, hxb⟩
    exact Or.inr ⟨a, b, a.isLt, b.isLt, ha, hb, hax, hxb⟩

theorem cells_setFrame (grid : Array Bool) :
    cells (setFrame grid) = cells grid ∪ outside 6 94 6 118 := by
  ext ⟨y, x⟩
  rw [setFrame, mem_cells_gridOf]
  simp only [Bool.or_eq_true, decide_eq_true_eq, or_assoc]
  rfl

/-! ### The mask -/

/-- The solid part of a mask: closed, and filled along the columns and the rows. -/
def solidCells (mask : List UInt8) : Set (Cell 100 128) :=
  rowHull (columnHull ((near 100 128 5).core ((near 100 128 5).image (cells (gridOfMask mask)))))

/-- **The grid of a mask**: a cell is left exactly when all cells of the 21 by 21 square around it
are solid or outside the image. -/
theorem cells_captureGrid (mask : List UInt8) :
    cells (captureGrid mask) =
      (near 100 128 10).core (solidCells mask ∪ outside 6 94 6 118) := by
  rw [captureGrid, cells_erode_iterate, cells_setFrame, cells_fillRows, cells_fillColumns,
    cells_erode_iterate, cells_dilate_iterate, solidCells]

theorem isBit_one : IsBit 1#32 true := by
  intro i hi
  rw [BitVec.getLsbD_one]
  simp

/-- The bit of a pixel in the packed mask. -/
theorem packedPlace_iff {j m : ℕ} :
    j = m / 112 * 128 + m % 112 ↔ j % 128 < 112 ∧ j / 128 * 112 + j % 128 = m := by
  omega

/-- The loop over the pixels, after `m` of them. -/
theorem maskPixel_spec (grid : Array Bool) {mask : List UInt8} {packed : List (BitVec 32)}
    (hmask : mask.length = 9856) (hpacked : packed.length = 352) {m : ℕ} (hm : m ≤ 9856) :
    let s := (List.range m).foldl (maskPixel grid) (mask, packed, 0)
    s.1.length = 9856 ∧ s.2.1.length = 352 ∧
      (∀ i < m, s.1.getD i 0 = if gridAt grid (i / 112 + 6) (i % 112 + 6) then 255 else 0) ∧
      (∀ j, bitAt s.2.1 j = true ↔ bitAt packed j = true ∨ j % 128 < 112 ∧
        j / 128 * 112 + j % 128 < m ∧ gridAt grid (j / 128 + 6) (j % 128 + 6) = true) ∧
      s.2.2 = ((List.range m).filter fun i => gridAt grid (i / 112 + 6) (i % 112 + 6)).length := by
  induction m with
  | zero => simp [hmask, hpacked]
  | succ m ih =>
      rw [List.range_succ, List.foldl_append, List.foldl_cons, List.foldl_nil]
      have hbefore := ih (by omega)
      revert hbefore
      generalize (List.range m).foldl (maskPixel grid) (mask, packed, 0) = s
      rintro ⟨hlength, hwords, hbytes, hbits, hcount⟩
      have hbyte : ∀ value : UInt8, ∀ i < m + 1, (s.1.set m value).getD i 0 =
          if i = m then value else s.1.getD i 0 := by
        intro value i hi
        rw [List.getD_eq_getElem?_getD, List.getD_eq_getElem?_getD]
        by_cases hi' : i = m
        · rw [if_pos hi', hi', List.getElem?_set_self (by omega), Option.getD_some]
        · rw [if_neg hi', List.getElem?_set_ne (Ne.symm hi')]
      cases hset : gridAt grid (m / 112 + 6) (m % 112 + 6) with
      | true =>
          have hplace : (m / 112 * 128 + m % 112) / 32 < s.2.1.length := by omega
          simp only [maskPixel, hset, if_true]
          refine ⟨by rw [List.length_set, hlength], by rw [putBit_length, hwords], ?_, ?_, ?_⟩
          · intro i hi
            rw [hbyte 255 i hi]
            split_ifs with h₁ h₂ h₂
            · rfl
            · rw [h₁] at h₂
              exact absurd hset h₂
            · rw [hbytes i (by omega), if_pos h₂]
            · rw [hbytes i (by omega), if_neg h₂]
          · intro j
            rw [bitAt_putBit (by omega) hplace isBit_one, Bool.or_eq_true, hbits j,
              Bool.and_true, decide_eq_true_eq, packedPlace_iff]
            constructor
            · rintro ((h | ⟨h₁, h₂, h₃⟩) | ⟨h₁, h₂⟩)
              · exact Or.inl h
              · exact Or.inr ⟨h₁, by omega, h₃⟩
              · have hy : m / 112 = j / 128 := by omega
                have hx : m % 112 = j % 128 := by omega
                rw [hy, hx] at hset
                exact Or.inr ⟨h₁, by omega, hset⟩
            · rintro (h | ⟨h₁, h₂, h₃⟩)
              · exact Or.inl (Or.inl h)
              · rcases Nat.lt_succ_iff_lt_or_eq.1 h₂ with h | h
                · exact Or.inl (Or.inr ⟨h₁, h, h₃⟩)
                · exact Or.inr ⟨h₁, h⟩
          · rw [List.filter_append, List.length_append, hcount]
            simp [hset]
      | false =>
          simp only [maskPixel, hset, Bool.false_eq_true, if_false]
          refine ⟨by rw [List.length_set, hlength], hwords, ?_, ?_, ?_⟩
          · intro i hi
            rw [hbyte 0 i hi]
            split_ifs with h₁ h₂ h₂
            · rw [h₁, hset] at h₂
              cases h₂
            · rfl
            · rw [hbytes i (by omega), if_pos h₂]
            · rw [hbytes i (by omega), if_neg h₂]
          · intro j
            rw [hbits j]
            constructor
            · rintro (h | ⟨h₁, h₂, h₃⟩)
              · exact Or.inl h
              · exact Or.inr ⟨h₁, by omega, h₃⟩
            · rintro (h | ⟨h₁, h₂, h₃⟩)
              · exact Or.inl h
              · rcases Nat.lt_succ_iff_lt_or_eq.1 h₂ with h | h
                · exact Or.inr ⟨h₁, h, h₃⟩
                · have hy : m / 112 = j / 128 := by omega
                  have hx : m % 112 = j % 128 := by omega
                  rw [hy, hx, h₃] at hset
                  cases hset
          · rw [List.filter_append, hcount]
            simp [hset]

/-- What the loop over all pixels leaves behind. -/
theorem captureMask_spec {mask : List UInt8} {packed : List (BitVec 32)}
    (hmask : mask.length = 9856) (hpacked : packed.length = 352) :
    let s := captureMask mask packed
    s.1.length = 9856 ∧ s.2.1.length = 352 ∧
      (∀ i < 9856, s.1.getD i 0 =
        if gridAt (captureGrid mask) (i / 112 + 6) (i % 112 + 6) then 255 else 0) ∧
      (∀ j, bitAt s.2.1 j = true ↔ bitAt packed j = true ∨ j % 128 < 112 ∧
        j / 128 * 112 + j % 128 < 9856 ∧
          gridAt (captureGrid mask) (j / 128 + 6) (j % 128 + 6) = true) ∧
      s.2.2 = ((List.range 9856).filter fun i =>
        gridAt (captureGrid mask) (i / 112 + 6) (i % 112 + 6)).length := by
  rw [captureMask]
  exact maskPixel_spec (captureGrid mask) hmask hpacked le_rfl

section Mask

variable {mask : List UInt8} {packed : List (BitVec 32)}

/-- The byte of a pixel, from the grid. -/
theorem captureMask_getD (hmask : mask.length = 9856) (hpacked : packed.length = 352) {y x : ℕ}
    (hy : y < 88) (hx : x < 112) :
    (captureMask mask packed).1.getD (y * 112 + x) 0 =
      if gridAt (captureGrid mask) (y + 6) (x + 6) then 255 else 0 := by
  obtain ⟨-, -, hbytes, -⟩ := captureMask_spec hmask hpacked
  have hdiv : (y * 112 + x) / 112 = y := by omega
  have hmod : (y * 112 + x) % 112 = x := by omega
  have := hbytes (y * 112 + x) (by omega)
  rwa [hdiv, hmod] at this

/-- The cell of a pixel. -/
def pixelCell (y : Fin 88) (x : Fin 112) : Cell 100 128 :=
  (⟨y + 6, by omega⟩, ⟨x + 6, by omega⟩)

theorem captureMask_ne_zero (hmask : mask.length = 9856) (hpacked : packed.length = 352)
    (y : Fin 88) (x : Fin 112) :
    (captureMask mask packed).1.getD (y * 112 + x) 0 ≠ 0 ↔
      pixelCell y x ∈ (near 100 128 10).core (solidCells mask ∪ outside 6 94 6 118) := by
  rw [captureMask_getD hmask hpacked y.isLt x.isLt, ← cells_captureGrid, mem_cells, pixelCell]
  cases gridAt (captureGrid mask) (y + 6) (x + 6) <;> simp

theorem captureMask_byte (hmask : mask.length = 9856) (hpacked : packed.length = 352)
    (y : Fin 88) (x : Fin 112) :
    (captureMask mask packed).1.getD (y * 112 + x) 0 = 0 ∨
      (captureMask mask packed).1.getD (y * 112 + x) 0 = 255 := by
  rw [captureMask_getD hmask hpacked y.isLt x.isLt]
  split_ifs <;> simp

/-- Within the image, the square around a pixel is solid. -/
theorem captureMask_solid (hmask : mask.length = 9856) (hpacked : packed.length = 352)
    (y : Fin 88) (x : Fin 112) :
    (captureMask mask packed).1.getD (y * 112 + x) 0 ≠ 0 ↔
      ∀ (y' : Fin 88) (x' : Fin 112), (y : ℕ) ≤ y' + 10 → (y' : ℕ) ≤ y + 10 →
        (x : ℕ) ≤ x' + 10 → (x' : ℕ) ≤ x + 10 → pixelCell y' x' ∈ solidCells mask := by
  rw [captureMask_ne_zero hmask hpacked]
  constructor
  · intro h y' x' h₁ h₂ h₃ h₄
    refine (h (b := pixelCell y' x') (mem_near.2 ?_)).resolve_right (not_mem_outside.2 ?_)
    · simp only [pixelCell]
      omega
    · simp only [pixelCell]
      omega
  · intro h q hq
    by_cases houtside : q ∈ outside 6 94 6 118
    · exact Or.inr houtside
    · obtain ⟨h₁, h₂, h₃, h₄⟩ := not_mem_outside.1 houtside
      obtain ⟨g₁, g₂, g₃, g₄⟩ := mem_near.1 hq
      simp only [pixelCell] at g₁ g₂ g₃ g₄
      have hcell : pixelCell ⟨q.1 - 6, by omega⟩ ⟨q.2 - 6, by omega⟩ = q :=
        Prod.ext (Fin.ext (by simp only [pixelCell]; omega))
          (Fin.ext (by simp only [pixelCell]; omega))
      left
      rw [← hcell]
      exact h _ _ (by simp only; omega) (by simp only; omega) (by simp only; omega)
        (by simp only; omega)

/-- Solid pixels include the valid pixels of the frame. -/
theorem pixelCell_mem_solidCells {y : Fin 88} {x : Fin 112}
    (h : mask.getD (y * 112 + x) 0 ≠ 0) : pixelCell y x ∈ solidCells mask := by
  refine subset_rowHull _ (subset_columnHull _ (subset_core_image 5 _ ?_))
  rw [gridOfMask, mem_cells_gridOf, Bool.and_eq_true, bne_iff_ne]
  refine ⟨decide_eq_true ?_, ?_⟩
  · simp only [pixelCell]
    omega
  · simpa only [pixelCell, Nat.add_sub_cancel] using h

/-- No pixel is lost whose surroundings are valid. -/
theorem captureMask_keeps (hmask : mask.length = 9856) (hpacked : packed.length = 352)
    {y : Fin 88} {x : Fin 112}
    (h : ∀ (y' : Fin 88) (x' : Fin 112), (y : ℕ) ≤ y' + 10 → (y' : ℕ) ≤ y + 10 →
      (x : ℕ) ≤ x' + 10 → (x' : ℕ) ≤ x + 10 → mask.getD (y' * 112 + x') 0 ≠ 0) :
    (captureMask mask packed).1.getD (y * 112 + x) 0 = 255 := by
  refine (captureMask_byte hmask hpacked y x).resolve_left ?_
  refine (captureMask_solid hmask hpacked y x).2 fun y' x' h₁ h₂ h₃ h₄ => ?_
  exact pixelCell_mem_solidCells (h y' x' h₁ h₂ h₃ h₄)

/-- **The mask is what the square around a pixel says.**  Every byte is 0 or 255, and a pixel is
valid exactly when every pixel of the image at most ten rows and ten columns away is solid: in the
closing of the valid pixels of the frame by an 11 by 11 square, filled along columns and then
rows. -/
theorem captureMask_window (hmask : mask.length = 9856) (hpacked : packed.length = 352)
    (y : Fin 88) (x : Fin 112) :
    (captureMask mask packed).1.getD (y * 112 + x) 0 =
        (if (captureMask mask packed).1.getD (y * 112 + x) 0 = 0 then 0 else 255) ∧
    ((captureMask mask packed).1.getD (y * 112 + x) 0 ≠ 0 ↔
      ∀ (y' : Fin 88) (x' : Fin 112), (y : ℕ) ≤ y' + 10 → (y' : ℕ) ≤ y + 10 →
        (x : ℕ) ≤ x' + 10 → (x' : ℕ) ≤ x + 10 → pixelCell y' x' ∈ solidCells mask) := by
  refine ⟨?_, captureMask_solid hmask hpacked y x⟩
  rcases captureMask_byte hmask hpacked y x with h | h
  · rw [if_pos h, h]
  · rw [if_neg (by rw [h]; decide), h]

/-- A frame without a defect. -/
def fullMask : List UInt8 := List.replicate 9856 255

/-- No packed bit is set yet. -/
def noBits : List (BitVec 32) := List.replicate 352 0#32

theorem fullMask_length : fullMask.length = 9856 := List.length_replicate

theorem noBits_length : noBits.length = 352 := List.length_replicate

theorem fullMask_valid (y : Fin 88) (x : Fin 112) : fullMask.getD (y * 112 + x) 0 ≠ 0 := by
  have hplace : (y : ℕ) * 112 + x < 9856 := by omega
  rw [fullMask, List.getD_eq_getElem?_getD, List.getElem?_replicate, if_pos hplace]
  decide

/-- A frame with one defect. -/
def spottedMask : List UInt8 := fullMask.set 4530 0

theorem spottedMask_length : spottedMask.length = 9856 :=
  List.length_set.trans fullMask_length

theorem spottedMask_getD (i : ℕ) :
    spottedMask.getD i 0 = if i = 4530 then 0 else fullMask.getD i 0 := by
  have hin : 4530 < fullMask.length := by
    rw [fullMask_length]
    norm_num
  exact Scans.getD_set hin 0 0 i

/-- Away from the defect the mask is set. -/
theorem captureMask_spotted {x : Fin 112} (hx : (x : ℕ) + 10 < 50 ∨ 60 < (x : ℕ)) :
    (captureMask spottedMask noBits).1.getD ((40 : Fin 88) * 112 + x) 0 = 255 := by
  refine captureMask_keeps spottedMask_length noBits_length fun y' x' _ _ h₁ h₂ => ?_
  rw [spottedMask_getD, if_neg (by omega)]
  exact fullMask_valid y' x'

theorem captureMask_window_spotted :
    spottedMask.getD (40 * 112 + 50) 0 = 0 ∧
      ∀ (y' : Fin 88) (x' : Fin 112), ((40 : Fin 88) : ℕ) ≤ y' + 10 →
        (y' : ℕ) ≤ (40 : Fin 88) + 10 → ((20 : Fin 112) : ℕ) ≤ x' + 10 →
        (x' : ℕ) ≤ (20 : Fin 112) + 10 → pixelCell y' x' ∈ solidCells spottedMask := by
  refine ⟨spottedMask_getD _, ?_⟩
  have hkept := captureMask_spotted (x := 20) (Or.inl (by decide))
  exact (captureMask_window spottedMask_length noBits_length 40 20).2.1 (by rw [hkept]; decide)

/-- **The valid pixels of a row are next to each other.** -/
theorem captureMask_spans (hmask : mask.length = 9856) (hpacked : packed.length = 352)
    {y a x b : ℕ} (hy : y < 88) (hax : a ≤ x) (hxb : x ≤ b) (hb : b < 112)
    (hleft : (captureMask mask packed).1.getD (y * 112 + a) 0 ≠ 0)
    (hright : (captureMask mask packed).1.getD (y * 112 + b) 0 ≠ 0) :
    (captureMask mask packed).1.getD (y * 112 + x) 0 = 255 := by
  have hcore := captureMask_ne_zero hmask hpacked ⟨y, hy⟩ ⟨x, by omega⟩
  have hconvex : RowConvex (solidCells mask) := rowConvex_rowHull _
  have hvalid := hcore.2 (rowConvex_core_outside hconvex
    ((captureMask_ne_zero hmask hpacked ⟨y, hy⟩ ⟨a, by omega⟩).1 hleft)
    ((captureMask_ne_zero hmask hpacked ⟨y, hy⟩ ⟨b, hb⟩).1 hright)
    (Fin.le_def.2 (by simp only; omega)) (Fin.le_def.2 (by simp only; omega))
    (by simp only; omega) (by simp only; omega))
  have hbyte := captureMask_getD hmask hpacked hy (show x < 112 by omega)
  rw [hbyte] at hvalid ⊢
  split_ifs at hvalid ⊢ with hset
  · rfl
  · exact absurd rfl hvalid

/-- The defect lies between kept pixels and is kept. -/
theorem captureMask_spans_spotted : spottedMask.getD (40 * 112 + 50) 0 = 0 ∧
    (captureMask spottedMask noBits).1.getD (40 * 112 + 50) 0 = 255 := by
  have hedge : ∀ x : Fin 112, (x : ℕ) + 10 < 50 ∨ 60 < (x : ℕ) →
      (captureMask spottedMask noBits).1.getD ((40 : Fin 88) * 112 + x) 0 ≠ 0 := by
    intro x hx
    rw [captureMask_spotted hx]
    decide
  refine ⟨spottedMask_getD _, ?_⟩
  exact captureMask_spans (a := 3) (b := 90) spottedMask_length noBits_length (by decide)
    (by decide) (by decide) (by decide) (hedge 3 (Or.inl (by decide)))
    (hedge 90 (Or.inr (by decide)))

/-- More valid pixels of the frame, more solid ones. -/
theorem solidCells_mono {mask' : List UInt8}
    (h : ∀ i, mask.getD i 0 ≠ 0 → mask'.getD i 0 ≠ 0) : solidCells mask ⊆ solidCells mask' := by
  have hcells : cells (gridOfMask mask) ⊆ cells (gridOfMask mask') := by
    rintro ⟨y, x⟩ hset
    rw [gridOfMask, mem_cells_gridOf, Bool.and_eq_true, bne_iff_ne] at hset ⊢
    exact ⟨hset.1, h _ hset.2⟩
  exact rowHull_mono (columnHull_mono (SetRel.core_mono (SetRel.image_mono hcells)))

/-- **A better frame has a larger mask, and no pixel is lost whose surroundings are valid.** -/
theorem captureMask_mono {mask' : List UInt8} (hmask : mask.length = 9856)
    (hmask' : mask'.length = 9856) (hpacked : packed.length = 352) (y : Fin 88) (x : Fin 112) :
    ((∀ i, mask.getD i 0 ≠ 0 → mask'.getD i 0 ≠ 0) →
      (captureMask mask packed).1.getD (y * 112 + x) 0 ≠ 0 →
        (captureMask mask' packed).1.getD (y * 112 + x) 0 ≠ 0) ∧
    ((∀ (y' : Fin 88) (x' : Fin 112), (y : ℕ) ≤ y' + 10 → (y' : ℕ) ≤ y + 10 →
        (x : ℕ) ≤ x' + 10 → (x' : ℕ) ≤ x + 10 → mask.getD (y' * 112 + x') 0 ≠ 0) →
      (captureMask mask packed).1.getD (y * 112 + x) 0 = 255) := by
  constructor
  · intro h hvalid
    rw [captureMask_ne_zero hmask hpacked] at hvalid
    rw [captureMask_ne_zero hmask' hpacked]
    exact SetRel.core_mono (Set.union_subset_union_left _ (solidCells_mono h)) hvalid
  · exact captureMask_keeps hmask hpacked

theorem captureMask_mono_spotted :
    (captureMask fullMask noBits).1.getD ((40 : Fin 88) * 112 + (20 : Fin 112)) 0 ≠ 0 ∧
      (captureMask spottedMask noBits).1.getD ((40 : Fin 88) * 112 + (20 : Fin 112)) 0 = 255 := by
  obtain ⟨hmono, hkeeps⟩ :=
    captureMask_mono spottedMask_length fullMask_length noBits_length 40 20
  have hkept := hkeeps fun y' x' _ _ h₁ h₂ => by
    rw [spottedMask_getD, if_neg (by omega)]
    exact fullMask_valid y' x'
  refine ⟨hmono (fun i h => ?_) (by rw [hkept]; decide), hkept⟩
  rw [spottedMask_getD] at h
  split_ifs at h
  · exact absurd rfl h
  · exact h

theorem bitAt_replicate (n j : ℕ) : bitAt (List.replicate n 0#32) j = false := by
  have hzero : (List.replicate n 0#32).getD (j / 32) 0#32 = 0#32 := by
    rw [List.getD_eq_getElem?_getD, List.getElem?_replicate]
    split_ifs <;> rfl
  rw [bitAt, hzero, BitVec.getLsbD_zero]

set_option linter.constructorNameAsVariable false in
/-- The pixels of a plane, as places of a row-major array. -/
theorem card_places (p : ℕ → ℕ → Bool) :
    (((Finset.range 112 ×ˢ Finset.range 88).filter fun q => p q.2 q.1 = true).card) =
      ((List.range 9856).filter fun i => p (i / 112) (i % 112)).length := by
  rw [← List.toFinset_card_of_nodup (List.nodup_range.filter _)]
  refine Finset.card_nbij' (fun q => q.2 * 112 + q.1) (fun i => (i % 112, i / 112)) ?_ ?_ ?_ ?_
  · rintro ⟨x, y⟩ hq
    simp only [Finset.coe_filter, Finset.mem_product, Finset.mem_range, Set.mem_ofPred_eq] at hq
    have hdiv : (y * 112 + x) / 112 = y := by omega
    have hmod : (y * 112 + x) % 112 = x := by omega
    simp only [List.coe_toFinset, Set.mem_ofPred_eq, List.mem_filter, List.mem_range, hdiv, hmod]
    exact ⟨by omega, hq.2⟩
  · intro i hi
    simp only [List.coe_toFinset, Set.mem_ofPred_eq, List.mem_filter, List.mem_range] at hi
    simp only [Finset.coe_filter, Finset.mem_product, Finset.mem_range, Set.mem_ofPred_eq]
    exact ⟨by omega, hi.2⟩
  · rintro ⟨x, y⟩ hq
    simp only [Finset.coe_filter, Finset.mem_product, Finset.mem_range, Set.mem_ofPred_eq] at hq
    simp only [Prod.mk.injEq]
    omega
  · intro i _
    simp only
    omega

set_option linter.constructorNameAsVariable false in
/-- **The packed mask is the mask.**  From an empty packed mask, bit `x` of row `y` is set exactly
when the pixel is valid, the padding bits stay clear, and the count is the one that counting the
packed mask gives. -/
theorem captureMask_packed (hmask : mask.length = 9856) :
    (∀ y x, y < 88 → x < 128 → (maskBit (captureMask mask noBits).2.1 128 x y = true ↔
      x < 112 ∧ (captureMask mask noBits).1.getD (y * 112 + x) 0 ≠ 0)) ∧
    (captureMask mask noBits).2.2 =
      ((captureMask mask noBits).1.filter fun byte => byte != 0).length ∧
    countPackedMask (captureMask mask noBits).2.1 112 88 128 =
      some (captureMask mask noBits).2.2 := by
  have hspec := captureMask_spec hmask noBits_length
  revert hspec
  generalize captureMask mask noBits = result
  rintro ⟨hlength, -, hbytes, hbits, hcount⟩
  have hbit : ∀ y x, y < 88 → x < 128 → (maskBit result.2.1 128 x y = true ↔
      x < 112 ∧ gridAt (captureGrid mask) (y + 6) (x + 6) = true) := by
    intro y x hy hx
    have hdiv : (y * 128 + x) / 128 = y := by omega
    have hmod : (y * 128 + x) % 128 = x := by omega
    have hplace := hbits (y * 128 + x)
    rw [noBits, bitAt_replicate, hdiv, hmod] at hplace
    rw [maskBit]
    refine hplace.trans ?_
    constructor
    · rintro (h | ⟨h₁, -, h₃⟩)
      · cases h
      · exact ⟨h₁, h₃⟩
    · rintro ⟨h₁, h₃⟩
      exact Or.inr ⟨h₁, by omega, h₃⟩
  refine ⟨?_, ?_, ?_⟩
  · intro y x hy hx
    rw [hbit y x hy hx]
    refine and_congr_right fun hx => ?_
    have hdiv : (y * 112 + x) / 112 = y := by omega
    have hmod : (y * 112 + x) % 112 = x := by omega
    rw [hbytes (y * 112 + x) (by omega), hdiv, hmod]
    split_ifs with h <;> simp [h]
  · have hresult : result.1 = (List.range 9856).map fun i =>
        if gridAt (captureGrid mask) (i / 112 + 6) (i % 112 + 6) then 255 else 0 := by
      apply List.ext_getElem
      · rw [List.length_map, List.length_range, hlength]
      · intro i hi hi'
        rw [List.length_map, List.length_range] at hi'
        rw [List.getElem_map, List.getElem_range, ← hbytes i hi', List.getD_eq_getElem _ _ hi]
    rw [hresult, List.filter_map, List.length_map, hcount]
    refine congrArg List.length (List.filter_congr fun i _ => ?_)
    rw [Function.comp_apply]
    split_ifs with h <;> simp [h]
  · obtain ⟨n, hn⟩ : ∃ n, countPackedMask result.2.1 112 88 128 = some n := by
      rw [countPackedMask, if_neg (by norm_num)]
      exact ⟨_, rfl⟩
    rw [hn, countPackedMask_eq hn, Option.some_inj, hcount,
      ← card_places fun y x => gridAt (captureGrid mask) (y + 6) (x + 6), covered]
    refine congrArg Finset.card (Finset.filter_congr fun q hq => ?_)
    rw [Finset.mem_product, Finset.mem_range, Finset.mem_range] at hq
    rw [hbit q.2 q.1 hq.2 (by omega)]
    exact and_iff_right hq.1

end Mask

theorem captureMask_packed_full :
    (∀ y x, y < 88 → x < 128 → (maskBit (captureMask fullMask noBits).2.1 128 x y = true ↔
      x < 112 ∧ (captureMask fullMask noBits).1.getD (y * 112 + x) 0 ≠ 0)) ∧
    (captureMask fullMask noBits).2.2 =
      ((captureMask fullMask noBits).1.filter fun byte => byte != 0).length ∧
    countPackedMask (captureMask fullMask noBits).2.1 112 88 128 =
      some (captureMask fullMask noBits).2.2 :=
  captureMask_packed fullMask_length

end Fpc
