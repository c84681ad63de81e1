/-
**Downsampling an image.**

The image is reduced first along the columns into a temporary plane and then along the rows.  On
each axis the sampled position starts half a step in and advances by a step that is the ratio of the
two sizes rounded to Q15, so the rounding of the step is added up over the whole axis; a position
reads two neighbouring rows or columns.  Every access and every 32-bit result is checked here: a
run that would leave its buffers or its words is a fault.

For thirteen pairs of sizes that the function accepts the last position lies in the last row or
column, whose successor does not exist.

Main definitions:

* `Fpc.resizeStep`, `Fpc.resizePosition` — the step of an axis and the positions it visits;
* `Fpc.resizeDown` — the two passes, with faults;
* `Fpc.Crosses` — the pairs of sizes at which an axis runs past its end;
* `Fpc.ResizeSafe` — a call stays inside its buffers and its words.

Main results:

* `Fpc.lastPosition_iff` — an axis runs past its end exactly at the thirteen pairs;
* `Fpc.firstPass_run`, `Fpc.secondPass_run` — a pass faults exactly when its axis runs past the end;
* `Fpc.resizeDown_safe_iff` — **a call is safe exactly when neither axis is one of these pairs**.
-/

import FpcReader.Native.AffinePatch
import Mathlib.Tactic.IntervalCases

set_option relaxedAutoImplicit false
set_option autoImplicit false

namespace Fpc

open Words

/-! ### The source's function -/

/-- What a run can do that C leaves undefined. -/
inductive ResizeFault where
  | row
  | column
  | overflow
  deriving DecidableEq, Repr

/-- A result that has to fit `int32_t`. -/
def checkInt (z : ℤ) : Except ResizeFault ℤ :=
  if -2 ^ 31 ≤ z ∧ z < 2 ^ 31 then .ok z else .error .overflow

/-- A result that has to fit `uint32_t`. -/
def checkUInt (z : ℤ) : Except ResizeFault ℤ :=
  if 0 ≤ z ∧ z < 2 ^ 32 then .ok z else .error .overflow

/-- The step of an axis: the ratio of its sizes, rounded to Q15. -/
def resizeStep (size outputSize : ℕ) : ℕ := (outputSize / 2 + size * 2 ^ 15) / outputSize

/-- The first position of an axis. -/
def resizeStart (step : ℤ) : ℤ := (step - 32768).tdiv 2

/-- Reading a pixel of the source. -/
def readRow (source : List UInt8) (height stride : ℕ) (row : ℤ) (x : ℕ) : Except ResizeFault ℤ :=
  if 0 ≤ row ∧ row < height then .ok (sourceAt source (row.toNat * stride + x)) else .error .row

/-- One value of the temporary plane. -/
def temporaryPixel (source : List UInt8) (height stride : ℕ) (row fraction : ℤ) (x : ℕ) :
    Except ResizeFault ℤ := do
  let above ← readRow source height stride row x
  -- this row is read even when its weight is zero
  let below ← readRow source height stride (row + 1) x
  let upper ← checkInt ((32768 - fraction) * above)
  let lower ← checkInt (fraction * below)
  let sum ← checkInt (upper + lower)
  let rounded ← checkInt (sum + 64)
  return rounded / 2 ^ 7

/-- The next value of a line of the temporary plane. -/
def temporaryNext (source : List UInt8) (height stride : ℕ) (row fraction : ℤ) (line : List ℤ)
    (x : ℕ) : Except ResizeFault (List ℤ) := do
  let value ← temporaryPixel source height stride row fraction x
  return line ++ [value]

/-- The values of the temporary plane for one output row, by column. -/
def temporaryRow (source : List UInt8) (width height stride : ℕ) (row fraction : ℤ) :
    Except ResizeFault (List ℤ) :=
  (List.range width).foldlM (temporaryNext source height stride row fraction) []

/-- The variables of the first pass. -/
structure FirstPass where
  yp : ℤ
  temporary : List (List ℤ)

/-- One output row of the first pass. -/
def firstPassRow (source : List UInt8) (width height stride : ℕ) (ys : ℤ) (s : FirstPass)
    (_y : ℕ) : Except ResizeFault FirstPass := do
  let line ← temporaryRow source width height stride (s.yp / 2 ^ 15) (s.yp % 2 ^ 15)
  let yp ← checkInt (s.yp + ys)
  return { yp, temporary := s.temporary ++ [line] }

/-- Reading the temporary plane. -/
def readTemporary (temporary : List (List ℤ)) (width : ℕ) (column : ℤ) (y : ℕ) :
    Except ResizeFault ℤ :=
  if 0 ≤ column ∧ column < width then .ok ((temporary.getD y []).getD column.toNat 0)
  else .error .column

/-- One output pixel. -/
def outputPixel (temporary : List (List ℤ)) (width : ℕ) (column fraction : ℤ) (y : ℕ) :
    Except ResizeFault UInt8 := do
  let left ← readTemporary temporary width column y
  let right ← readTemporary temporary width (column + 1) y
  let near ← checkUInt ((32768 - fraction) * left)
  let far ← checkUInt (fraction * right)
  let sum ← checkUInt (near + far)
  let value ← checkUInt (sum + 0x400000)
  return UInt8.ofNat (shiftFloor (word 32 value).toInt 23 % 256).toNat

/-- The variables of the second pass. -/
structure SecondPass where
  xp : ℤ
  output : List UInt8

/-- One pixel of an output column. -/
def outputNext (temporary : List (List ℤ)) (width outputStride : ℕ) (column fraction : ℤ) (x : ℕ)
    (output : List UInt8) (y : ℕ) : Except ResizeFault (List UInt8) := do
  let pixel ← outputPixel temporary width column fraction y
  return output.set (y * outputStride + x) pixel

/-- One output column. -/
def outputColumn (temporary : List (List ℤ)) (width outputHeight outputStride : ℕ)
    (column fraction : ℤ) (x : ℕ) (output : List UInt8) : Except ResizeFault (List UInt8) :=
  (List.range outputHeight).foldlM (outputNext temporary width outputStride column fraction x)
    output

/-- One round of the second pass. -/
def secondPassColumn (temporary : List (List ℤ)) (width outputHeight outputStride : ℕ) (xs : ℤ)
    (s : SecondPass) (x : ℕ) : Except ResizeFault SecondPass := do
  let output ← outputColumn temporary width outputHeight outputStride (s.xp / 2 ^ 15)
    (s.xp % 2 ^ 15) x s.output
  let xp ← checkInt (s.xp + xs)
  return { xp, output }

/-- The sizes and strides the function accepts. -/
def resizeAccepts (width height stride outputWidth outputHeight outputStride : ℕ) : Bool :=
  !(decide (256 < width) || decide (256 < height) || decide (outputWidth = 0) ||
    decide (outputHeight = 0) || decide (width ≤ outputWidth) || decide (height ≤ outputHeight) ||
    decide (stride < width) || decide (outputStride < outputWidth) ||
    decide ((2 ^ 64 - 1) / stride < height) || decide ((2 ^ 64 - 1) / outputStride < outputHeight))

/-- The reduction.  `none` is the status `-1`. -/
def resizeDown (source : List UInt8) (width height stride : ℕ) (output : List UInt8)
    (outputWidth outputHeight outputStride : ℕ) : Option (Except ResizeFault (List UInt8)) :=
  if resizeAccepts width height stride outputWidth outputHeight outputStride then
    some (do
      let xs ← checkInt (resizeStep width outputWidth)
      let ys ← checkInt (resizeStep height outputHeight)
      let first ← (List.range outputHeight).foldlM (firstPassRow source width height stride ys)
        ⟨resizeStart ys, []⟩
      let second ← (List.range outputWidth).foldlM
        (secondPassColumn first.temporary width outputHeight outputStride xs)
        ⟨resizeStart xs, output⟩
      return second.output)
  else none

/-! ### The positions of an axis -/

/-- The position of sample `k`. -/
def resizePosition (size outputSize k : ℕ) : ℤ :=
  resizeStart (resizeStep size outputSize) + k * resizeStep size outputSize

/-- The row or column that sample `k` falls in. -/
def resizeIndex (size outputSize k : ℕ) : ℤ := resizePosition size outputSize k / 2 ^ 15

/-- The sizes at which the last sample of an axis falls in its last row or column. -/
def Crosses (size outputSize : ℕ) : Prop :=
  outputSize + 1 = size ∧
    size ∈ [209, 213, 220, 223, 226, 234, 239, 241, 248, 250, 252, 254, 256]

instance (size outputSize : ℕ) : Decidable (Crosses size outputSize) :=
  inferInstanceAs (Decidable (_ ∧ _))

section Axis

variable {size outputSize : ℕ}

theorem resizeStep_ge (hpos : 0 < outputSize) (hlt : outputSize < size) :
    32768 ≤ resizeStep size outputSize := by
  rw [resizeStep, Nat.le_div_iff_mul_le hpos]
  omega

theorem resizeStart_eq (hpos : 0 < outputSize) (hlt : outputSize < size) :
    resizeStart (resizeStep size outputSize) = ((resizeStep size outputSize - 32768) / 2 : ℕ) := by
  have hge := resizeStep_ge hpos hlt
  rw [resizeStart, Int.tdiv_eq_ediv_of_nonneg (by omega)]
  omega

/-- The rounded step times the output size is the size, up to half the output size. -/
theorem step_mul_le (size outputSize : ℕ) :
    outputSize * resizeStep size outputSize ≤ outputSize / 2 + size * 2 ^ 15 :=
  Nat.mul_div_le _ _

/-- Two sizes that differ by more than one leave the last position clear of the end: the step then
exceeds one by more than what the rounding of all steps can add up to. -/
theorem lastIndex_lt (hpos : 0 < outputSize) (hlt : outputSize + 2 ≤ size) (hsize : size ≤ 256) :
    resizeIndex size outputSize (outputSize - 1) + 1 < size := by
  have hstep : 32768 + outputSize + 1 ≤ resizeStep size outputSize := by
    rw [resizeStep, Nat.le_div_iff_mul_le hpos]
    have hsquare : outputSize * outputSize ≤ 254 * outputSize :=
      Nat.mul_le_mul_right _ (by omega)
    have hexpand : (32768 + outputSize + 1) * outputSize =
        32769 * outputSize + outputSize * outputSize := by ring
    omega
  have hmul := step_mul_le size outputSize
  have hlast : (outputSize - 1) * resizeStep size outputSize + resizeStep size outputSize =
      outputSize * resizeStep size outputSize := by
    rw [← Nat.succ_mul]
    congr 1
    omega
  rw [resizeIndex, resizePosition, resizeStart_eq hpos (by omega)]
  generalize resizeStep size outputSize = step at *
  norm_cast
  generalize (outputSize - 1) * step = last at *
  generalize outputSize * step = total at *
  omega

/-- **An axis runs past its end exactly at the thirteen pairs.** -/
theorem lastPosition_iff (hpos : 0 < outputSize) (hlt : outputSize < size) (hsize : size ≤ 256) :
    resizeIndex size outputSize (outputSize - 1) + 1 < size ↔ ¬Crosses size outputSize := by
  rcases Nat.lt_or_ge (outputSize + 1) size with h | h
  · have hnot : ¬Crosses size outputSize := fun hc => by
      have := hc.1
      omega
    simp only [lastIndex_lt hpos h hsize, hnot, not_false_eq_true]
  · -- only the sizes that differ by one are left
    have heq : size = outputSize + 1 := by omega
    subst heq
    have hall : ∀ m < 256, 0 < m →
        (resizeIndex (m + 1) m (m - 1) + 1 < (m + 1 : ℕ) ↔ ¬Crosses (m + 1) m) := by
      decide +kernel
    exact hall outputSize (by omega) hpos

theorem resizePosition_nonneg (hpos : 0 < outputSize) (hlt : outputSize < size) (k : ℕ) :
    0 ≤ resizePosition size outputSize k := by
  rw [resizePosition, resizeStart_eq hpos hlt]
  positivity

theorem resizePosition_succ (size outputSize k : ℕ) :
    resizePosition size outputSize k + resizeStep size outputSize =
      resizePosition size outputSize (k + 1) := by
  rw [resizePosition, resizePosition]
  push_cast
  ring

theorem resizePosition_mono {k l : ℕ} (hkl : k ≤ l) :
    resizePosition size outputSize k ≤ resizePosition size outputSize l := by
  rw [resizePosition, resizePosition]
  gcongr

/-- No position leaves the signed range, the one past the end included. -/
theorem resizePosition_lt (hpos : 0 < outputSize) (hlt : outputSize < size) (hsize : size ≤ 256)
    {k : ℕ} (hk : k ≤ outputSize) : resizePosition size outputSize k < 2 ^ 31 := by
  refine lt_of_le_of_lt (resizePosition_mono hk) ?_
  have hmul := step_mul_le size outputSize
  have hstep : resizeStep size outputSize ≤ outputSize / 2 + size * 2 ^ 15 := Nat.div_le_self _ _
  rw [resizePosition, resizeStart_eq hpos hlt]
  norm_cast
  omega

/-- Every sample of an axis stays inside it exactly when the axis is not one of the thirteen. -/
theorem resizeIndex_iff (hpos : 0 < outputSize) (hlt : outputSize < size) (hsize : size ≤ 256) :
    (∀ k < outputSize, resizeIndex size outputSize k + 1 < size) ↔ ¬Crosses size outputSize := by
  rw [← lastPosition_iff hpos hlt hsize]
  constructor
  · intro h
    exact h (outputSize - 1) (by omega)
  · intro h k hk
    have hmono : resizeIndex size outputSize k ≤ resizeIndex size outputSize (outputSize - 1) :=
      Int.ediv_le_ediv (by norm_num) (resizePosition_mono (by omega))
    omega

theorem resizeIndex_nonneg (hpos : 0 < outputSize) (hlt : outputSize < size) (k : ℕ) :
    0 ≤ resizeIndex size outputSize k :=
  Int.ediv_nonneg (resizePosition_nonneg hpos hlt k) (by norm_num)

end Axis

/-! ### The first pass -/

theorem checkInt_of {z : ℤ} (hlo : -2 ^ 31 ≤ z) (hhi : z < 2 ^ 31) : checkInt z = .ok z :=
  if_pos ⟨hlo, hhi⟩

theorem checkUInt_of {z : ℤ} (hlo : 0 ≤ z) (hhi : z < 2 ^ 32) : checkUInt z = .ok z :=
  if_pos ⟨hlo, hhi⟩

/-- Every pixel of the source lies between the two bounds. -/
def SourceBetween (source : List UInt8) (width height stride : ℕ) (lo hi : ℤ) : Prop :=
  ∀ x < width, ∀ y < height,
    lo ≤ sourceAt source (y * stride + x) ∧ (sourceAt source (y * stride + x) : ℤ) ≤ hi

theorem sourceBetween_byte (source : List UInt8) (width height stride : ℕ) :
    SourceBetween source width height stride 0 255 := by
  intro x _ y _
  have hlt : sourceAt source (y * stride + x) < 256 := UInt8.toNat_lt _
  omega

/-- A weighted mean of two values lies between their bounds. -/
theorem blend_between {f a b lo hi : ℤ} (hf : 0 ≤ f) (hf' : f ≤ 32768) (ha : lo ≤ a ∧ a ≤ hi)
    (hb : lo ≤ b ∧ b ≤ hi) :
    32768 * lo ≤ (32768 - f) * a + f * b ∧ (32768 - f) * a + f * b ≤ 32768 * hi := by
  constructor
  · nlinarith [ha.1, hb.1]
  · nlinarith [ha.2, hb.2]

section FirstPass

variable (source : List UInt8) {width height stride outputHeight : ℕ}

/-- A value of the temporary plane: in Q8, between the bounds of the source. -/
def TemporaryBetween (source : List UInt8) (width height stride : ℕ) (value : ℤ) : Prop :=
  ∀ lo hi, SourceBetween source width height stride lo hi → 256 * lo ≤ value ∧ value ≤ 256 * hi

theorem temporaryPixel_run {row fraction : ℤ} {x : ℕ} (hrow : 0 ≤ row) (hf : 0 ≤ fraction)
    (hf' : fraction < 32768) (hx : x < width) :
    (row + 1 < height ∧ ∃ value, temporaryPixel source height stride row fraction x = .ok value ∧
        TemporaryBetween source width height stride value) ∨
      (¬row + 1 < height ∧ ∃ e, temporaryPixel source height stride row fraction x = .error e) := by
  by_cases hin : row + 1 < height
  · have h1 : readRow source height stride row x =
        .ok (sourceAt source (row.toNat * stride + x)) := if_pos ⟨hrow, by omega⟩
    have h2 : readRow source height stride (row + 1) x =
        .ok (sourceAt source ((row + 1).toNat * stride + x)) := if_pos ⟨by omega, hin⟩
    have hpixels : ∀ lo hi, SourceBetween source width height stride lo hi →
        (lo ≤ sourceAt source (row.toNat * stride + x) ∧
            (sourceAt source (row.toNat * stride + x) : ℤ) ≤ hi) ∧
          (lo ≤ sourceAt source ((row + 1).toNat * stride + x) ∧
            (sourceAt source ((row + 1).toNat * stride + x) : ℤ) ≤ hi) := fun lo hi h =>
      ⟨h x hx row.toNat (by omega), h x hx (row + 1).toNat (by omega)⟩
    refine Or.inl ⟨hin, ?_⟩
    rw [temporaryPixel, h1, h2]
    generalize (sourceAt source (row.toNat * stride + x) : ℤ) = a at *
    generalize (sourceAt source ((row + 1).toNat * stride + x) : ℤ) = b at *
    obtain ⟨ha, hb⟩ := hpixels 0 255 (sourceBetween_byte source width height stride)
    -- neither product is large enough for the sums below to overflow
    have hupper : 0 ≤ (32768 - fraction) * a ∧ (32768 - fraction) * a ≤ 32768 * 255 := by
      constructor <;> nlinarith [ha.1, ha.2]
    have hlower : 0 ≤ fraction * b ∧ fraction * b ≤ 32768 * 255 := by
      constructor <;> nlinarith [hb.1, hb.2]
    refine ⟨((32768 - fraction) * a + fraction * b + 64) / 2 ^ 7, ?_, fun lo hi h => ?_⟩
    · simp only [bind, Except.bind]
      rw [checkInt_of (by omega) (by omega)]
      dsimp only
      rw [checkInt_of (by omega) (by omega)]
      dsimp only
      rw [checkInt_of (by omega) (by omega)]
      dsimp only
      rw [checkInt_of (by omega) (by omega)]
      rfl
    · obtain ⟨hlo, hhi⟩ := blend_between hf hf'.le (hpixels lo hi h).1 (hpixels lo hi h).2
      omega
  · refine Or.inr ⟨hin, ?_⟩
    rw [temporaryPixel]
    cases readRow source height stride row x with
    | error e => exact ⟨e, rfl⟩
    | ok a =>
        have h2 : readRow source height stride (row + 1) x = .error .row :=
          if_neg fun h => hin h.2
        exact ⟨.row, by rw [h2]; rfl⟩

/-- A line of the temporary plane. -/
structure LineBetween (source : List UInt8) (width height stride x : ℕ) (line : List ℤ) : Prop where
  length : line.length = x
  between : ∀ value ∈ line, TemporaryBetween source width height stride value

theorem temporaryRow_run (height stride : ℕ) {row fraction : ℤ} (hrow : 0 ≤ row) (hf : 0 ≤ fraction)
    (hf' : fraction < 32768) (hwidth : 0 < width) :
    (row + 1 < height ∧ ∃ line, temporaryRow source width height stride row fraction = .ok line ∧
        LineBetween source width height stride width line) ∨
      (¬row + 1 < height ∧
        ∃ e, temporaryRow source width height stride row fraction = .error e) := by
  have hstart : LineBetween source width height stride 0 [] := ⟨rfl, by simp⟩
  have hstep : ∀ x < width, ∀ line, LineBetween source width height stride x line →
      (row + 1 < height ∧ ∃ line', temporaryNext source height stride row fraction line x =
          .ok line' ∧ LineBetween source width height stride (x + 1) line') ∨
        (¬row + 1 < height ∧ ∃ e, temporaryNext source height stride row fraction line x =
          .error e ∧ True) := by
    intro x hx line hline
    rcases temporaryPixel_run source hrow hf hf' hx with ⟨hin, value, hv, hb⟩ | ⟨hin, e, he⟩
    · refine Or.inl ⟨hin, line ++ [value], by rw [temporaryNext, hv]; rfl,
        ⟨by simp [hline.length], ?_⟩⟩
      intro v hv
      rcases List.mem_append.1 hv with hv | hv
      · exact hline.between v hv
      · rw [List.mem_singleton.1 hv]
        exact hb
    · exact Or.inr ⟨hin, e, by rw [temporaryNext, he]; rfl, trivial⟩
  rcases Loops.foldlM_range (LineBetween source width height stride) (fun _ => row + 1 < height)
    (fun _ => True) hstart hstep with ⟨hin, line, hline, hP⟩ | ⟨hin, e, he, -⟩
  · exact Or.inl ⟨hin 0 hwidth, line, hline, hP⟩
  · exact Or.inr ⟨fun h => hin fun _ _ => h, e, he⟩

/-- The first pass before row `y`. -/
structure FirstPassAt (source : List UInt8) (width height stride outputHeight y : ℕ)
    (s : FirstPass) : Prop where
  yp : s.yp = resizePosition height outputHeight y
  length : s.temporary.length = y
  lines : ∀ line ∈ s.temporary, LineBetween source width height stride width line

theorem firstPassRow_run {y : ℕ} {s : FirstPass} (hpos : 0 < outputHeight)
    (hlt : outputHeight < height) (hsize : height ≤ 256) (hwidth : 0 < width)
    (hy : y < outputHeight) (h : FirstPassAt source width height stride outputHeight y s) :
    (resizeIndex height outputHeight y + 1 < height ∧
        ∃ t, firstPassRow source width height stride (resizeStep height outputHeight) s y = .ok t ∧
          FirstPassAt source width height stride outputHeight (y + 1) t) ∨
      (¬resizeIndex height outputHeight y + 1 < height ∧
        ∃ e, firstPassRow source width height stride (resizeStep height outputHeight) s y =
          .error e ∧ True) := by
  have hnonneg := resizePosition_nonneg hpos hlt y
  have hfits := resizePosition_lt hpos hlt hsize (Nat.succ_le_of_lt hy)
  have hnext := resizePosition_nonneg hpos hlt (y + 1)
  rw [firstPassRow, h.yp]
  have hrow := temporaryRow_run source height stride
    (resizeIndex_nonneg hpos hlt y)
    (Int.emod_nonneg (resizePosition height outputHeight y) (by norm_num : (2 ^ 15 : ℤ) ≠ 0))
    (Int.emod_lt_of_pos _ (by norm_num)) hwidth
  rw [resizeIndex] at hrow ⊢
  rcases hrow with ⟨hin, line, hline, hb⟩ | ⟨hin, e, he⟩
  · refine Or.inl ⟨hin, ⟨resizePosition height outputHeight (y + 1), s.temporary ++ [line]⟩, ?_,
      ⟨rfl, by simp [h.length], ?_⟩⟩
    · simp only [bind, Except.bind, hline]
      rw [resizePosition_succ, checkInt_of (by omega) (by exact_mod_cast hfits)]
      rfl
    · intro l hl
      rcases List.mem_append.1 hl with hl | hl
      · exact h.lines l hl
      · rw [List.mem_singleton.1 hl]
        exact hb
  · exact Or.inr ⟨hin, e, by rw [he]; rfl, trivial⟩

/-- **The first pass faults exactly when the vertical axis runs past its end.** -/
theorem firstPass_run (stride : ℕ) (hpos : 0 < outputHeight) (hlt : outputHeight < height)
    (hsize : height ≤ 256) (hwidth : 0 < width) :
    ((∀ y < outputHeight, resizeIndex height outputHeight y + 1 < height) ∧
        ∃ t, (List.range outputHeight).foldlM
            (firstPassRow source width height stride (resizeStep height outputHeight))
            ⟨resizeStart (resizeStep height outputHeight), []⟩ = .ok t ∧
          FirstPassAt source width height stride outputHeight outputHeight t) ∨
      (¬(∀ y < outputHeight, resizeIndex height outputHeight y + 1 < height) ∧
        ∃ e, (List.range outputHeight).foldlM
            (firstPassRow source width height stride (resizeStep height outputHeight))
            ⟨resizeStart (resizeStep height outputHeight), []⟩ = .error e ∧ True) := by
  refine Loops.foldlM_range (FirstPassAt source width height stride outputHeight)
    (fun y => resizeIndex height outputHeight y + 1 < height) (fun _ => True)
    ⟨by simp [resizePosition], rfl, by simp⟩ ?_
  intro y hy s hs
  exact firstPassRow_run source hpos hlt hsize hwidth hy hs

end FirstPass

/-! ### The second pass -/

section SecondPass

variable {source : List UInt8} {width height stride outputWidth outputHeight outputStride : ℕ}
variable {temporary : List (List ℤ)}

/-- An output pixel lies between the bounds of the source. -/
def OutputBetween (source : List UInt8) (width height stride : ℕ) (pixel : UInt8) : Prop :=
  ∀ lo hi, SourceBetween source width height stride lo hi →
    lo ≤ pixel.toNat ∧ (pixel.toNat : ℤ) ≤ hi

/-- The temporary plane that the first pass leaves. -/
structure Plane (source : List UInt8) (width height stride outputHeight : ℕ)
    (temporary : List (List ℤ)) : Prop where
  length : temporary.length = outputHeight
  lines : ∀ line ∈ temporary, LineBetween source width height stride width line

theorem Plane.between (h : Plane source width height stride outputHeight temporary) {y c : ℕ}
    (hy : y < outputHeight) (hc : c < width) :
    TemporaryBetween source width height stride ((temporary.getD y []).getD c 0) := by
  have hy' : y < temporary.length := h.length ▸ hy
  have hline := h.lines _ (List.getElem_mem hy')
  have hc' : c < (temporary[y]).length := hline.length ▸ hc
  rw [List.getD_eq_getElem _ _ hy', List.getD_eq_getElem _ _ hc']
  exact hline.between _ (List.getElem_mem hc')

theorem outputPixel_run (h : Plane source width height stride outputHeight temporary)
    {column fraction : ℤ} {y : ℕ} (hcolumn : 0 ≤ column) (hf : 0 ≤ fraction)
    (hf' : fraction < 32768) (hy : y < outputHeight) :
    (column + 1 < width ∧ ∃ pixel, outputPixel temporary width column fraction y = .ok pixel ∧
        OutputBetween source width height stride pixel) ∨
      (¬column + 1 < width ∧ ∃ e, outputPixel temporary width column fraction y = .error e) := by
  by_cases hin : column + 1 < width
  · have h1 : readTemporary temporary width column y =
        .ok ((temporary.getD y []).getD column.toNat 0) := if_pos ⟨hcolumn, by omega⟩
    have h2 : readTemporary temporary width (column + 1) y =
        .ok ((temporary.getD y []).getD (column + 1).toNat 0) := if_pos ⟨by omega, hin⟩
    have hleft := h.between hy (c := column.toNat) (by omega)
    have hright := h.between hy (c := (column + 1).toNat) (by omega)
    refine Or.inl ⟨hin, ?_⟩
    rw [outputPixel, h1, h2]
    generalize (temporary.getD y []).getD column.toNat 0 = l at *
    generalize (temporary.getD y []).getD (column + 1).toNat 0 = r at *
    have hl := hleft 0 255 (sourceBetween_byte source width height stride)
    have hr := hright 0 255 (sourceBetween_byte source width height stride)
    have hnear : 0 ≤ (32768 - fraction) * l ∧ (32768 - fraction) * l ≤ 32768 * (256 * 255) := by
      constructor <;> nlinarith [hl.1, hl.2]
    have hfar : 0 ≤ fraction * r ∧ fraction * r ≤ 32768 * (256 * 255) := by
      constructor <;> nlinarith [hr.1, hr.2]
    have hsum := blend_between hf hf'.le hl hr
    -- the rounded sum stays below `2 ^ 31`, so it is read back as it was written
    have hvalue : shiftFloor
        (word 32 ((32768 - fraction) * l + fraction * r + 0x400000)).toInt 23 =
        ((32768 - fraction) * l + fraction * r + 0x400000) / 2 ^ 23 := by
      rw [shiftFloor_eq, toInt_word (by norm_num) (by norm_num; omega) (by norm_num; omega)]
    refine ⟨UInt8.ofNat (((32768 - fraction) * l + fraction * r + 0x400000) / 2 ^ 23 %
      256).toNat, ?_, fun lo hi hb => ?_⟩
    · simp only [bind, Except.bind]
      rw [checkUInt_of (by omega) (by omega)]
      dsimp only
      rw [checkUInt_of (by omega) (by omega)]
      dsimp only
      rw [checkUInt_of (by omega) (by omega)]
      dsimp only
      rw [checkUInt_of (by omega) (by omega)]
      dsimp only
      rw [hvalue]
      rfl
    · obtain ⟨hlo, hhi⟩ := blend_between hf hf'.le (hleft lo hi hb) (hright lo hi hb)
      rw [UInt8.toNat_ofNat']
      omega
  · refine Or.inr ⟨hin, ?_⟩
    rw [outputPixel]
    cases readTemporary temporary width column y with
    | error e => exact ⟨e, rfl⟩
    | ok a =>
        have h2 : readTemporary temporary width (column + 1) y = .error .column :=
          if_neg fun h => hin h.2
        exact ⟨.column, by rw [h2]; rfl⟩

/-- The output before pixel `y` of column `x`: what has been written lies between the bounds. -/
structure OutputAt (source : List UInt8) (width height stride outputHeight outputStride size : ℕ)
    (x y : ℕ) (output : List UInt8) : Prop where
  length : output.length = size
  between : ∀ x' y', y' < outputHeight → (x' < x ∨ x' = x ∧ y' < y) →
    OutputBetween source width height stride (output.getD (y' * outputStride + x') 0)

variable {size : ℕ}

/-- Writing one pixel of the current column. -/
theorem OutputAt.next {x y : ℕ} {output : List UInt8} {pixel : UInt8}
    (h : OutputAt source width height stride outputHeight outputStride size x y output)
    (hx : x < outputStride) (hfits : y * outputStride + x < size)
    (hp : OutputBetween source width height stride pixel) :
    OutputAt source width height stride outputHeight outputStride size x (y + 1)
      (output.set (y * outputStride + x) pixel) := by
  refine ⟨by rw [List.length_set, h.length], fun x' y' hy' hdone => ?_⟩
  by_cases hsame : y * outputStride + x = y' * outputStride + x'
  · rw [← hsame, List.getD_eq_getElem _ _ (by rw [List.length_set, h.length]; exact hfits),
      List.getElem_set_self]
    exact hp
  · rw [List.getD_eq_getElem?_getD, List.getElem?_set_ne hsame, ← List.getD_eq_getElem?_getD]
    refine h.between x' y' hy' ?_
    rcases hdone with hlt | ⟨rfl, hlt⟩
    · exact Or.inl hlt
    · refine Or.inr ⟨rfl, ?_⟩
      have hne : y' ≠ y := fun he => hsame (by rw [he])
      omega

theorem outputColumn_run (h : Plane source width height stride outputHeight temporary)
    {column fraction : ℤ} {x : ℕ} {output : List UInt8} (hcolumn : 0 ≤ column)
    (hf : 0 ≤ fraction) (hf' : fraction < 32768) (hpos : 0 < outputHeight) (hx : x < outputStride)
    (hfits : ∀ y < outputHeight, y * outputStride + x < size)
    (ho : OutputAt source width height stride outputHeight outputStride size x 0 output) :
    (column + 1 < width ∧
        ∃ output', outputColumn temporary width outputHeight outputStride column fraction x output =
            .ok output' ∧
          OutputAt source width height stride outputHeight outputStride size (x + 1) 0 output') ∨
      (¬column + 1 < width ∧
        ∃ e, outputColumn temporary width outputHeight outputStride column fraction x output =
          .error e) := by
  have hstep : ∀ y < outputHeight, ∀ output,
      OutputAt source width height stride outputHeight outputStride size x y output →
      (column + 1 < width ∧
          ∃ output', outputNext temporary width outputStride column fraction x output y =
              .ok output' ∧
            OutputAt source width height stride outputHeight outputStride size x (y + 1) output') ∨
        (¬column + 1 < width ∧
          ∃ e, outputNext temporary width outputStride column fraction x output y = .error e ∧
            True) := by
    intro y hy output hout
    rcases outputPixel_run h hcolumn hf hf' hy with ⟨hin, pixel, hv, hb⟩ | ⟨hin, e, he⟩
    · exact Or.inl ⟨hin, output.set (y * outputStride + x) pixel,
        by rw [outputNext, hv]; rfl, hout.next hx (hfits y hy) hb⟩
    · exact Or.inr ⟨hin, e, by rw [outputNext, he]; rfl, trivial⟩
  rcases Loops.foldlM_range
    (OutputAt source width height stride outputHeight outputStride size x)
    (fun _ => column + 1 < width) (fun _ => True) ho hstep with
    ⟨hin, output', hrun, hP⟩ | ⟨hin, e, he, -⟩
  · refine Or.inl ⟨hin 0 hpos, output', hrun, hP.length, fun x' y' hy' hdone => ?_⟩
    refine hP.between x' y' hy' ?_
    omega
  · exact Or.inr ⟨fun h => hin fun _ _ => h, e, he⟩

/-- The second pass before column `x`. -/
structure SecondPassAt (source : List UInt8)
    (width height stride outputWidth outputHeight outputStride size x : ℕ) (s : SecondPass) :
    Prop where
  xp : s.xp = resizePosition width outputWidth x
  output : OutputAt source width height stride outputHeight outputStride size x 0 s.output

/-- **The second pass faults exactly when the horizontal axis runs past its end.** -/
theorem secondPass_run (h : Plane source width height stride outputHeight temporary)
    {output : List UInt8} (hpos : 0 < outputWidth) (hlt : outputWidth < width)
    (hsize : width ≤ 256) (hrows : 0 < outputHeight) (hstride : outputWidth ≤ outputStride)
    (hfits : ∀ x < outputWidth, ∀ y < outputHeight, y * outputStride + x < output.length) :
    ((∀ x < outputWidth, resizeIndex width outputWidth x + 1 < width) ∧
        ∃ t, (List.range outputWidth).foldlM
            (secondPassColumn temporary width outputHeight outputStride
              (resizeStep width outputWidth))
            ⟨resizeStart (resizeStep width outputWidth), output⟩ = .ok t ∧
          SecondPassAt source width height stride outputWidth outputHeight outputStride
            output.length outputWidth t) ∨
      (¬(∀ x < outputWidth, resizeIndex width outputWidth x + 1 < width) ∧
        ∃ e, (List.range outputWidth).foldlM
            (secondPassColumn temporary width outputHeight outputStride
              (resizeStep width outputWidth))
            ⟨resizeStart (resizeStep width outputWidth), output⟩ = .error e ∧ True) := by
  refine Loops.foldlM_range
    (SecondPassAt source width height stride outputWidth outputHeight outputStride output.length)
    (fun x => resizeIndex width outputWidth x + 1 < width) (fun _ => True)
    ⟨by simp [resizePosition], rfl, fun x' y' _ hdone => by omega⟩ ?_
  intro x hx s hs
  have hupper := resizePosition_lt hpos hlt hsize (Nat.succ_le_of_lt hx)
  have hnext := resizePosition_nonneg hpos hlt (x + 1)
  have hcolumn := outputColumn_run h (resizeIndex_nonneg hpos hlt x)
    (Int.emod_nonneg (resizePosition width outputWidth x) (by norm_num : (2 ^ 15 : ℤ) ≠ 0))
    (Int.emod_lt_of_pos _ (by norm_num)) hrows (by omega : x < outputStride)
    (fun y hy => hfits x hx y hy) hs.output
  rw [secondPassColumn, hs.xp]
  rw [resizeIndex] at hcolumn ⊢
  rcases hcolumn with ⟨hin, output', hrun, ho⟩ | ⟨hin, e, he⟩
  · refine Or.inl ⟨hin, ⟨resizePosition width outputWidth (x + 1), output'⟩, ?_, ⟨rfl, ho⟩⟩
    simp only [bind, Except.bind, hrun]
    rw [resizePosition_succ, checkInt_of (by omega) (by exact_mod_cast hupper)]
    rfl
  · exact Or.inr ⟨hin, e, by rw [he]; rfl, trivial⟩

end SecondPass

/-! ### The whole reduction -/

/-- A call stays inside its buffers and its words: every row and every column it reads exists, it
runs to its end without a fault, and every output pixel lies between the bounds of the source. -/
structure ResizeSafe (source : List UInt8) (width height stride : ℕ) (output : List UInt8)
    (outputWidth outputHeight outputStride : ℕ) : Prop where
  rows : ∀ y < outputHeight, 0 ≤ resizeIndex height outputHeight y ∧
    resizeIndex height outputHeight y + 1 < height
  columns : ∀ x < outputWidth, 0 ≤ resizeIndex width outputWidth x ∧
    resizeIndex width outputWidth x + 1 < width
  runs : ∃ output', resizeDown source width height stride output outputWidth outputHeight
      outputStride = some (.ok output') ∧
    ∀ x < outputWidth, ∀ y < outputHeight,
      OutputBetween source width height stride (output'.getD (y * outputStride + x) 0)

/-- **A call is safe exactly when neither axis is one of the thirteen pairs.** -/
theorem resizeDown_safe_iff (source output : List UInt8)
    (width height stride outputWidth outputHeight outputStride : ℕ)
    (haccepts : resizeAccepts width height stride outputWidth outputHeight outputStride = true)
    (hfits : ∀ x < outputWidth, ∀ y < outputHeight, y * outputStride + x < output.length) :
    ResizeSafe source width height stride output outputWidth outputHeight outputStride ↔
      ¬Crosses width outputWidth ∧ ¬Crosses height outputHeight := by
  have hsizes := haccepts
  rw [resizeAccepts] at hsizes
  simp only [Bool.not_eq_true', Bool.or_eq_false_iff, decide_eq_false_iff_not, not_lt,
    not_le] at hsizes
  obtain ⟨⟨⟨⟨⟨⟨⟨⟨⟨hw, hh⟩, how⟩, hoh⟩, hwlt⟩, hhlt⟩, -⟩, hos⟩, -⟩, -⟩ := hsizes
  have how' : 0 < outputWidth := Nat.pos_of_ne_zero how
  have hoh' : 0 < outputHeight := Nat.pos_of_ne_zero hoh
  rw [← resizeIndex_iff how' hwlt hw, ← resizeIndex_iff hoh' hhlt hh]
  constructor
  · intro h
    exact ⟨fun x hx => (h.columns x hx).2, fun y hy => (h.rows y hy).2⟩
  · rintro ⟨hcolumns, hrows⟩
    refine ⟨fun y hy => ⟨resizeIndex_nonneg hoh' hhlt y, hrows y hy⟩,
      fun x hx => ⟨resizeIndex_nonneg how' hwlt x, hcolumns x hx⟩, ?_⟩
    have hstep : ∀ {n m : ℕ}, 0 < m → m < n → n ≤ 256 →
        checkInt (resizeStep n m) = .ok (resizeStep n m : ℤ) := by
      intro n m hm hmn hn
      have hle : resizeStep n m ≤ m / 2 + n * 2 ^ 15 := Nat.div_le_self _ _
      exact checkInt_of (by omega) (by omega)
    rcases firstPass_run source stride hoh' hhlt hh (by omega : 0 < width) with
      ⟨-, first, hfirst, hplane⟩ | ⟨hbad, -⟩
    · have hplane' : Plane source width height stride outputHeight first.temporary :=
        ⟨hplane.length, hplane.lines⟩
      rcases secondPass_run hplane' how' hwlt hw hoh' hos hfits with
        ⟨-, second, hsecond, hdone⟩ | ⟨hbad, -⟩
      · refine ⟨second.output, ?_, fun x hx y hy => hdone.output.between x y hy (Or.inl hx)⟩
        rw [resizeDown, if_pos haccepts, hstep how' hwlt hw, hstep hoh' hhlt hh]
        simp only [bind, Except.bind, hfirst, hsecond]
        rfl
      · exact absurd hcolumns hbad
    · exact absurd hrows hbad

/-- An accepted call that is safe. -/
theorem resizeDown_safe_iff_small :
    ResizeSafe [1, 2, 3, 4] 2 2 2 [0] 1 1 1 ↔ ¬Crosses 2 1 ∧ ¬Crosses 2 1 :=
  resizeDown_safe_iff [1, 2, 3, 4] [0] 2 2 2 1 1 1 (by decide) (by decide)

/-- Reducing 209 rows to 208 is accepted, and the last output row then reads row 209. -/
theorem resizeDown_crosses :
    resizeAccepts 2 209 2 1 208 1 = true ∧ resizeIndex 209 208 207 + 1 = 209 ∧
      ¬ResizeSafe (List.replicate 418 0) 2 209 2 (List.replicate 208 0) 1 208 1 := by
  refine ⟨by decide, by decide, fun h => ?_⟩
  have hrow := (h.rows 207 (by norm_num)).2
  have hindex : resizeIndex 209 208 207 = 208 := by decide
  omega

end Fpc
