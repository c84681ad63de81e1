/-
**What the captures of a group cover.**

An enrollment measures how much of the finger its captures show.  The masks of the captures of a
group are placed on a canvas, one after the other, and united there; the set bits are counted.  A
mask is warped within the window where its image meets the canvas, so that a window that misses the
canvas costs nothing.

Placing is floating-point work: the transform to the canvas, its inverse, the corners of the warped
image and the coefficients at a corner of the window are parameters.  How a window is cut to the
canvas, the warp, the union and the count are computed as the source does.

Main definitions:

* `Fpc.clipAffineWarpBounds` — the window of a capture, cut to the canvas;
* `Fpc.placeCapture`, `Fpc.uniteCapture` — where a capture lies, and its union with the canvas;
* `Fpc.buildGroupMaskUnion` — the canvas of one group;
* `Fpc.ShowsPoint`, `Fpc.GroupShows` — a placed capture, or one of a group, shows a point.

Main results:

* `Fpc.clipAffineWarpBounds_inside` — a window lies within the canvas;
* `Fpc.uniteCapture_bits` — what one capture adds;
* `Fpc.buildGroupMaskUnion_exact` — **a point is covered iff a capture of the group shows it**.
-/

import FpcReader.Native.Grouping
import FpcReader.Native.Warp

set_option relaxedAutoImplicit false
set_option autoImplicit false

namespace Fpc

open PackedBits Words

/-! ### The source's functions -/

/-- The sizes of the image and of the mask of a capture, and the mask. -/
structure CaptureCoverage where
  imageWidth : ℤ
  imageHeight : ℤ
  maskWidth : ℤ
  maskHeight : ℤ
  maskStrideBits : ℕ
  mask : List (BitVec 32)

/-- A window of the canvas. -/
structure WarpBounds where
  left : ℤ
  top : ℤ
  width : ℤ
  height : ℤ
  deriving DecidableEq, Repr

/-- The floating-point work: the transform of a capture to the canvas, the inverse of a transform,
the least and the greatest coordinates of the corners of a warped image as they are truncated, and
the coefficients of a transform at a corner of a window. -/
structure CoverageFloats (F : Type) where
  captureCanvasTransform : List F → ℕ → ℕ → UInt16 → ℤ → ℤ → ℤ → ℤ → Option (Vector F 9)
  inverseTransform3 : Vector F 9 → Option (Vector F 9)
  warpedCorners : Vector F 9 → ℤ → ℤ → Option (ℤ × ℤ × ℤ × ℤ)
  localAffine : Vector F 9 → ℤ → ℤ → Fin 6 → ℚ

section Placing

variable {F : Type} (floats : CoverageFloats F)

/-- The window where a warped image meets the canvas, and the coefficients at its corner. -/
def clipAffineWarpBounds (affine : Vector F 9)
    (sourceWidth sourceHeight canvasWidth canvasHeight : ℤ) :
    Option (WarpBounds × (Fin 6 → ℚ)) :=
  if sourceWidth < 1 ∨ sourceHeight < 1 ∨ canvasWidth < 1 ∨ canvasHeight < 1 then none
  else do
    let (xmin, ymin, xmax, ymax) ← floats.warpedCorners affine sourceWidth sourceHeight
    let left := max xmin 0
    let top := max ymin 0
    let right := min (xmax + 1) (canvasWidth - 1)
    let bottom := min (ymax + 1) (canvasHeight - 1)
    return (⟨left, top, max (right - left + 1) 0, max (bottom - top + 1) 0⟩,
      floats.localAffine affine left top)

variable (captures : List CaptureCoverage) (count : ℕ) (groups : List ℤ) (roots : List UInt16)
  (transforms : List F) (canvasWidth canvasHeight : ℤ)

/-- The capture with the given number. -/
def coverageAt (i : ℕ) : CaptureCoverage := captures.getD i ⟨0, 0, 0, 0, 0, []⟩

/-- Where capture `i` lies on the canvas of a group with the given root. -/
def placeCapture (root : UInt16) (i : ℕ) : Option (WarpBounds × (Fin 6 → ℚ)) := do
  let capture := coverageAt captures i
  let reference := coverageAt captures root.toNat
  let canvas ← floats.captureCanvasTransform transforms count i root
    (if root = 0xFFFF then 0 else reference.imageWidth)
    (if root = 0xFFFF then 0 else reference.imageHeight) canvasWidth canvasHeight
  let inverse ← floats.inverseTransform3 canvas
  clipAffineWarpBounds floats inverse capture.maskWidth capture.maskHeight canvasWidth canvasHeight

/-- The mask of a capture is warped within its window and united with the canvas. -/
def uniteCapture (capture : CaptureCoverage) (bounds : WarpBounds) (affine : Fin 6 → ℚ)
    (output : List (BitVec 32)) : Option (List (BitVec 32)) :=
  let width := bounds.width.toNat
  let height := bounds.height.toNat
  let localStride := wordEnd width
  if bounds.width = 0 ∨ bounds.height = 0 then some output
  else if (2 ^ 64 - 1) / (localStride / 32) / 4 < height then none
  else do
    let warped ← warpPackedMask capture.mask capture.maskWidth.toNat capture.maskHeight.toNat
      capture.maskStrideBits (List.replicate (localStride / 32 * height) 0) width height
      localStride affine 0
    unionPackedMask output canvasWidth.toNat canvasHeight.toNat (wordEnd canvasWidth.toNat)
      warped width height localStride bounds.left.toNat bounds.top.toNat

/-- One turn of the loop: a capture of another group is passed over. -/
def coverageStep (group : ℕ) (root : UInt16) (output : List (BitVec 32)) (i : ℕ) :
    Option (List (BitVec 32)) :=
  if groups.getD i (-1) = group then do
    let (bounds, affine) ← placeCapture floats captures count transforms canvasWidth canvasHeight
      root i
    uniteCapture canvasWidth canvasHeight (coverageAt captures i) bounds affine output
  else some output

/-- The number of words of a canvas. -/
def canvasWords : ℕ := wordEnd canvasWidth.toNat / 32 * canvasHeight.toNat

/-- The canvas of one group, in a buffer that may hold anything before and may be longer. -/
def buildGroupMaskUnion (group : ℕ) (output : List (BitVec 32)) : Option (List (BitVec 32)) :=
  if count ≤ group ∨ 32767 < count ∨ canvasWidth < 1 ∨ canvasHeight < 1 ∨
      2 ^ 31 - 1 - 31 < canvasWidth ∨
      (2 ^ 64 - 1) / (wordEnd canvasWidth.toNat / 32) < canvasHeight.toNat ∨
      output.length < canvasWords canvasWidth canvasHeight then none
  else
    let cleared := List.replicate (canvasWords canvasWidth canvasHeight) 0 ++
      output.drop (canvasWords canvasWidth canvasHeight)
    let root := roots.getD group 0
    if root ≠ 0xFFFF ∧ count ≤ root.toNat then none
    else (List.range count).foldlM (coverageStep floats captures count groups transforms
      canvasWidth canvasHeight group root) cleared

end Placing

/-! ### Windows -/

section Windows

variable {F : Type} {floats : CoverageFloats F}

/-- A window is cut to the canvas, or empty. -/
structure WarpBounds.Inside (bounds : WarpBounds) (canvasWidth canvasHeight : ℤ) : Prop where
  left : 0 ≤ bounds.left
  top : 0 ≤ bounds.top
  width : 0 ≤ bounds.width
  height : 0 ≤ bounds.height
  right : 0 < bounds.width → bounds.left + bounds.width ≤ canvasWidth
  bottom : 0 < bounds.height → bounds.top + bounds.height ≤ canvasHeight

/-- **A window lies within the canvas**, wherever the corners are. -/
theorem clipAffineWarpBounds_inside {affine : Vector F 9} {place : WarpBounds × (Fin 6 → ℚ)}
    {sourceWidth sourceHeight canvasWidth canvasHeight : ℤ}
    (h : clipAffineWarpBounds floats affine sourceWidth sourceHeight canvasWidth canvasHeight =
      some place) :
    place.1.Inside canvasWidth canvasHeight := by
  rw [clipAffineWarpBounds] at h
  split_ifs at h
  obtain ⟨⟨xmin, ymin, xmax, ymax⟩, -, h⟩ := Option.bind_eq_some_iff.1 h
  obtain rfl := Option.some.inj h
  constructor <;> dsimp only <;> omega

theorem placeCapture_inside {captures : List CaptureCoverage} {count i : ℕ} {transforms : List F}
    {canvasWidth canvasHeight : ℤ} {root : UInt16} {place : WarpBounds × (Fin 6 → ℚ)}
    (h : placeCapture floats captures count transforms canvasWidth canvasHeight root i =
      some place) :
    place.1.Inside canvasWidth canvasHeight := by
  rw [placeCapture] at h
  obtain ⟨canvas, -, h⟩ := Option.bind_eq_some_iff.1 h
  obtain ⟨inverse, -, h⟩ := Option.bind_eq_some_iff.1 h
  exact clipAffineWarpBounds_inside h

end Windows

/-! ### One capture -/

/-- Six coefficients of a placed capture, numbered from zero. -/
local instance sixPlaced : NeZero 6 := ⟨by decide⟩

/-- What the warp asks of a capture whose window is not empty. -/
def CanWarp (capture : CaptureCoverage) (place : WarpBounds × (Fin 6 → ℚ)) : Prop :=
  place.1.width = 0 ∨ place.1.height = 0 ∨
    MaskShape capture.maskWidth.toNat capture.maskHeight.toNat capture.maskStrideBits ∧
      ∀ i, (q20 (place.2 i)).isSome

/-- A placed capture shows a point: it lies in the window, and the bit of the mask that the warp
reads for it is set. -/
def ShowsPoint (capture : CaptureCoverage) (place : WarpBounds × (Fin 6 → ℚ)) (x y : ℕ) : Prop :=
  InWindow place.1.width.toNat place.1.height.toNat place.1.left.toNat place.1.top.toNat x y ∧
    ∃ q : Fin 6 → BitVec 32, (∀ i, q20 (place.2 i) = some (q i)) ∧
      warpValue capture.mask capture.maskWidth.toNat capture.maskHeight.toNat
        capture.maskStrideBits 0
        (q 2 + 0x80000#32 + BitVec.ofNat 32 (y - place.1.top.toNat) * q 1 +
          BitVec.ofNat 32 (x - place.1.left.toNat) * q 0)
        (q 5 + 0x80000#32 + BitVec.ofNat 32 (y - place.1.top.toNat) * q 4 +
          BitVec.ofNat 32 (x - place.1.left.toNat) * q 3) = true

/-- The sizes of a canvas, and a buffer that holds it. -/
structure CanvasHeld (canvasWidth canvasHeight : ℤ) (length : ℕ) : Prop where
  width : 1 ≤ canvasWidth
  narrow : canvasWidth ≤ 2 ^ 31 - 32
  height : 1 ≤ canvasHeight
  low : canvasHeight < 2 ^ 31
  words : canvasWords canvasWidth canvasHeight ≤ length

theorem wordEnd_mod (n : ℕ) : wordEnd n % 32 = 0 := by
  rw [wordEnd]
  omega

theorem le_wordEnd (n : ℕ) : n ≤ wordEnd n := by
  rw [wordEnd]
  omega

theorem wordEnd_lt {n : ℕ} : wordEnd n < n + 32 := by
  rw [wordEnd]
  omega

/-- A mask with rows of whole words that are no wider and no higher than a canvas. -/
theorem maskShape_wordEnd {width height : ℕ} (hwidth : 0 < width) (hnarrow : width < 2 ^ 31)
    (hlow : height < 2 ^ 31) : MaskShape width height (wordEnd width) where
  nonempty := hwidth
  aligned := wordEnd_mod width
  wide := le_wordEnd width
  addressable := by
    have hstride : wordEnd width < 2 ^ 32 := by
      have := @wordEnd_lt width
      omega
    have hpos : 0 < wordEnd width := hwidth.trans_le (le_wordEnd width)
    rw [Nat.le_div_iff_mul_le hpos]
    calc height * wordEnd width ≤ 2 ^ 31 * 2 ^ 32 := Nat.mul_le_mul hlow.le hstride.le
      _ ≤ 2 ^ 64 - 1 := by norm_num

/-- A warp into a sound destination succeeds iff the source is sound and the coefficients fit. -/
theorem warpPackedMask_isSome_iff {source destination : List (BitVec 32)}
    {sourceWidth sourceHeight sourceStrideBits width height strideBits : ℕ} {affine : Fin 6 → ℚ}
    {outside : UInt8} (hshape : MaskShape width height strideBits)
    (hlen : height * (strideBits / 32) ≤ destination.length) :
    (warpPackedMask source sourceWidth sourceHeight sourceStrideBits destination width height
      strideBits affine outside).isSome ↔
      MaskShape sourceWidth sourceHeight sourceStrideBits ∧ ∀ i, (q20 (affine i)).isSome := by
  constructor
  · intro h
    obtain ⟨result, hresult⟩ := Option.isSome_iff_exists.1 h
    rw [warpPackedMask] at hresult
    split_ifs at hresult with hguard
    push Not at hguard
    obtain ⟨-, hw, haligned, -, hwide, -, -, -, -, haddress⟩ := hguard
    refine ⟨⟨by omega, haligned, hwide, haddress⟩, ?_⟩
    obtain ⟨q0, h0, hresult⟩ := Option.bind_eq_some_iff.1 hresult
    obtain ⟨q1, h1, hresult⟩ := Option.bind_eq_some_iff.1 hresult
    obtain ⟨q2, h2, hresult⟩ := Option.bind_eq_some_iff.1 hresult
    obtain ⟨q3, h3, hresult⟩ := Option.bind_eq_some_iff.1 hresult
    obtain ⟨q4, h4, hresult⟩ := Option.bind_eq_some_iff.1 hresult
    obtain ⟨q5, h5, -⟩ := Option.bind_eq_some_iff.1 hresult
    intro i
    fin_cases i
    · exact Option.isSome_of_mem h0
    · exact Option.isSome_of_mem h1
    · exact Option.isSome_of_mem h2
    · exact Option.isSome_of_mem h3
    · exact Option.isSome_of_mem h4
    · exact Option.isSome_of_mem h5
  · rintro ⟨hsource, hfit⟩
    choose q hq using fun i => Option.isSome_iff_exists.1 (hfit i)
    obtain ⟨result, hresult, -⟩ := warpPackedMask_bits source destination sourceWidth sourceHeight
      sourceStrideBits width height strideBits affine outside hsource hshape hlen hq
    rw [hresult]
    rfl

/-- Uniting a sound mask within the canvas succeeds. -/
theorem unionPackedMask_isSome {destination source : List (BitVec 32)}
    {width height strideBits sourceWidth sourceHeight sourceStrideBits offsetX offsetY : ℕ}
    (hcanvas : MaskShape width height strideBits)
    (hsource : MaskShape sourceWidth sourceHeight sourceStrideBits)
    (hright : offsetX + sourceWidth ≤ width) (hbottom : offsetY + sourceHeight ≤ height) :
    ∃ destination', unionPackedMask destination width height strideBits source sourceWidth
      sourceHeight sourceStrideBits offsetX offsetY = some destination' := by
  obtain ⟨h1, h2, h3, h4⟩ := hcanvas
  obtain ⟨h5, h6, h7, h8⟩ := hsource
  have hguard : ¬(width = 0 ∨ sourceWidth = 0 ∨ strideBits % 32 ≠ 0 ∨ sourceStrideBits % 32 ≠ 0 ∨
      strideBits < width ∨ sourceStrideBits < sourceWidth ∨ width < offsetX ∨ height < offsetY ∨
      width - offsetX < sourceWidth ∨ height - offsetY < sourceHeight ∨ strideBits = 0 ∨
      sourceStrideBits = 0 ∨ (2 ^ 64 - 1) / strideBits < height ∨
      (2 ^ 64 - 1) / sourceStrideBits < sourceHeight) := by
    push Not
    exact ⟨by omega, by omega, h2, h6, h3, h7, by omega, by omega, by omega, by omega, by omega,
      by omega, h4, h8⟩
  exact ⟨_, by rw [unionPackedMask, if_neg hguard]⟩

section Unite

variable {capture : CaptureCoverage} {place : WarpBounds × (Fin 6 → ℚ)}
variable {canvasWidth canvasHeight : ℤ} {output : List (BitVec 32)}

/-- An empty window shows nothing. -/
theorem not_showsPoint (hempty : place.1.width = 0 ∨ place.1.height = 0) (x y : ℕ) :
    ¬ShowsPoint capture place x y := by
  rintro ⟨⟨h1, h2, h3, h4⟩, -⟩
  omega

/-- **What one capture adds to the canvas**: the points it shows, or the source fails. -/
theorem uniteCapture_bits (hcanvas : CanvasHeld canvasWidth canvasHeight output.length)
    (hinside : place.1.Inside canvasWidth canvasHeight) :
    (CanWarp capture place ∧ ∃ output', uniteCapture canvasWidth canvasHeight capture place.1
        place.2 output = some output' ∧ output'.length = output.length ∧
        ∀ x y, x < wordEnd canvasWidth.toNat →
          (maskBit output' (wordEnd canvasWidth.toNat) x y = true ↔
            maskBit output (wordEnd canvasWidth.toNat) x y = true ∨ ShowsPoint capture place x y)) ∨
      (¬CanWarp capture place ∧
        uniteCapture canvasWidth canvasHeight capture place.1 place.2 output = none) := by
  obtain ⟨⟨left, top, width, height⟩, affine⟩ := place
  obtain ⟨hleft, htop, hwidth, hheight, hright, hbottom⟩ := hinside
  obtain ⟨hcw, hnarrow, hch, hlow, hwords⟩ := hcanvas
  simp only at hleft htop hwidth hheight hright hbottom
  by_cases hempty : width = 0 ∨ height = 0
  · refine Or.inl ⟨?_, output, ?_, rfl, ?_⟩
    · exact hempty.elim Or.inl fun h => Or.inr (Or.inl h)
    · rw [uniteCapture]
      exact if_pos hempty
    · intro x y _
      rw [or_iff_left (not_showsPoint hempty x y)]
  push Not at hempty
  lift left to ℕ using hleft
  lift top to ℕ using htop
  lift width to ℕ using hwidth
  lift height to ℕ using hheight
  lift canvasWidth to ℕ using (by omega)
  lift canvasHeight to ℕ using (by omega)
  have hin : left + width ≤ canvasWidth := by omega
  have hdown : top + height ≤ canvasHeight := by omega
  simp only [canvasWords, Int.toNat_natCast] at hwords ⊢
  have hwindow : MaskShape width height (wordEnd width) :=
    maskShape_wordEnd (by omega) (by omega) (by omega)
  have hwhole : MaskShape canvasWidth canvasHeight (wordEnd canvasWidth) :=
    maskShape_wordEnd (by omega) (by omega) (by omega)
  have hroom : height * (wordEnd width / 32) ≤
      (List.replicate (wordEnd width / 32 * height) (0 : BitVec 32)).length := by
    rw [List.length_replicate, Nat.mul_comm]
  have hsize : ¬(2 ^ 64 - 1) / (wordEnd width / 32) / 4 < height := by
    have hstride : wordEnd width / 32 ≤ 2 ^ 26 := by
      have := @wordEnd_lt width
      omega
    have hquot : (2 ^ 64 - 1) / 2 ^ 26 ≤ (2 ^ 64 - 1) / (wordEnd width / 32) := by
      refine Nat.div_le_div_left hstride ?_
      have := le_wordEnd width
      have := wordEnd_mod width
      omega
    omega
  have hunite : uniteCapture canvasWidth canvasHeight capture ⟨left, top, width, height⟩ affine
      output = (warpPackedMask capture.mask capture.maskWidth.toNat capture.maskHeight.toNat
        capture.maskStrideBits (List.replicate (wordEnd width / 32 * height) 0) width height
        (wordEnd width) affine 0).bind fun warped =>
          unionPackedMask output canvasWidth canvasHeight (wordEnd canvasWidth) warped width height
            (wordEnd width) left top := by
    rw [uniteCapture, if_neg (by simpa using hempty), if_neg (by simpa using hsize)]
    rfl
  rw [hunite]
  have hiff : (warpPackedMask capture.mask capture.maskWidth.toNat capture.maskHeight.toNat
      capture.maskStrideBits (List.replicate (wordEnd width / 32 * height) 0) width height
      (wordEnd width) affine 0).isSome ↔ _ := warpPackedMask_isSome_iff hwindow hroom
  by_cases hcan : MaskShape capture.maskWidth.toNat capture.maskHeight.toNat
      capture.maskStrideBits ∧ ∀ i, (q20 (affine i)).isSome
  · left
    refine ⟨Or.inr (Or.inr hcan), ?_⟩
    choose q hq using fun i => Option.isSome_iff_exists.1 (hcan.2 i)
    obtain ⟨warped, hwarped, -, hbits⟩ := warpPackedMask_bits capture.mask
      (List.replicate (wordEnd width / 32 * height) 0) capture.maskWidth.toNat
      capture.maskHeight.toNat capture.maskStrideBits width height (wordEnd width) affine 0 hcan.1
      hwindow hroom hq
    obtain ⟨output', houtput⟩ : ∃ output', unionPackedMask output canvasWidth canvasHeight
        (wordEnd canvasWidth) warped width height (wordEnd width) left top = some output' :=
      unionPackedMask_isSome hwhole hwindow hin hdown
    obtain ⟨hlength, hunion⟩ := unionPackedMask_bits houtput (by rwa [Nat.mul_comm])
    refine ⟨output', by rw [hwarped]; exact houtput, hlength, ?_⟩
    intro x y hx
    rw [hunion x y hx]
    refine or_congr_right (and_congr_right ?_)
    simp only [Int.toNat_natCast]
    rintro ⟨h1, h2, h3, h4⟩
    rw [hbits _ _ ((by omega : x - left < width).trans_le (le_wordEnd width)),
      if_pos (by omega), if_pos (by omega)]
    constructor
    · intro hvalue
      exact ⟨q, hq, hvalue⟩
    · rintro ⟨q', hq', hvalue⟩
      obtain rfl : q' = q := funext fun i => Option.some.inj ((hq' i).symm.trans (hq i))
      exact hvalue
  · right
    refine ⟨?_, ?_⟩
    · rintro (h | h | h)
      · exact hempty.1 h
      · exact hempty.2 h
      · exact hcan h
    · rw [Option.not_isSome_iff_eq_none.1 (mt hiff.1 hcan)]
      rfl

end Unite

/-! ### One group -/

section Group

variable {F : Type} (floats : CoverageFloats F)
variable (captures : List CaptureCoverage) (count : ℕ) (groups : List ℤ) (roots : List UInt16)
  (transforms : List F) (canvasWidth canvasHeight : ℤ)

/-- What the source checks before it places a capture. -/
structure CoverageAccepts (group length : ℕ) : Prop where
  member : group < count
  few : count ≤ 32767
  width : 1 ≤ canvasWidth
  narrow : canvasWidth ≤ 2 ^ 31 - 32
  height : 1 ≤ canvasHeight
  words : canvasWords canvasWidth canvasHeight ≤ length
  root : roots.getD group 0 ≠ 0xFFFF → (roots.getD group 0).toNat < count

/-- A capture of the group shows the point. -/
def GroupShows (group x y : ℕ) : Prop :=
  ∃ i < count, groups.getD i (-1) = group ∧ ∃ place,
    placeCapture floats captures count transforms canvasWidth canvasHeight (roots.getD group 0) i =
      some place ∧ ShowsPoint (coverageAt captures i) place x y

/-- A capture can be placed, if it belongs to the group. -/
def CanPlace (group i : ℕ) : Prop :=
  groups.getD i (-1) = group → ∃ place,
    placeCapture floats captures count transforms canvasWidth canvasHeight (roots.getD group 0) i =
      some place ∧ CanWarp (coverageAt captures i) place

/-- What the canvas holds after `n` turns. -/
structure CanvasUpTo (group n : ℕ) (before output : List (BitVec 32)) : Prop where
  length : output.length = before.length
  bits : ∀ x y, x < wordEnd canvasWidth.toNat →
    (maskBit output (wordEnd canvasWidth.toNat) x y = true ↔
      maskBit before (wordEnd canvasWidth.toNat) x y = true ∨
        ∃ i < n, groups.getD i (-1) = group ∧ ∃ place,
          placeCapture floats captures count transforms canvasWidth canvasHeight
            (roots.getD group 0) i = some place ∧ ShowsPoint (coverageAt captures i) place x y)

variable {floats captures count groups roots transforms canvasWidth canvasHeight}

theorem CanvasUpTo.next {group n : ℕ} {before output : List (BitVec 32)}
    (hcanvas : CanvasHeld canvasWidth canvasHeight before.length)
    (h : CanvasUpTo floats captures count groups roots transforms canvasWidth canvasHeight group n
      before output) :
    (CanPlace floats captures count groups roots transforms canvasWidth canvasHeight group n ∧
        ∃ output', coverageStep floats captures count groups transforms canvasWidth canvasHeight
          group (roots.getD group 0) output n = some output' ∧
          CanvasUpTo floats captures count groups roots transforms canvasWidth canvasHeight group
            (n + 1) before output') ∨
      (¬CanPlace floats captures count groups roots transforms canvasWidth canvasHeight group n ∧
        coverageStep floats captures count groups transforms canvasWidth canvasHeight group
          (roots.getD group 0) output n = none) := by
  by_cases hgroup : groups.getD n (-1) = group
  swap
  · left
    refine ⟨fun h => absurd h hgroup, output, by rw [coverageStep, if_neg hgroup], h.length, ?_⟩
    intro x y hx
    rw [h.bits x y hx]
    refine or_congr_right ⟨?_, ?_⟩
    · rintro ⟨i, hi, hrest⟩
      exact ⟨i, by omega, hrest⟩
    · rintro ⟨i, hi, hig, hrest⟩
      have hne : i ≠ n := fun he => hgroup (he ▸ hig)
      exact ⟨i, by omega, hig, hrest⟩
  rw [coverageStep, if_pos hgroup]
  rcases hplace : placeCapture floats captures count transforms canvasWidth canvasHeight
      (roots.getD group 0) n with _ | place
  · right
    refine ⟨fun hcan => ?_, rfl⟩
    obtain ⟨place, hsome, -⟩ := hcan hgroup
    rw [hplace] at hsome
    cases hsome
  rcases @uniteCapture_bits (coverageAt captures n) place canvasWidth canvasHeight output
    (h.length ▸ hcanvas) (placeCapture_inside hplace) with
    ⟨hcan, output', houtput, hlength, hbits⟩ | ⟨hcan, hnone⟩
  · left
    refine ⟨fun _ => ⟨place, hplace, hcan⟩, output', houtput, hlength.trans h.length, ?_⟩
    intro x y hx
    rw [hbits x y hx, h.bits x y hx, or_assoc]
    refine or_congr_right ⟨?_, ?_⟩
    · rintro (⟨i, hi, hrest⟩ | hshows)
      · exact ⟨i, by omega, hrest⟩
      · exact ⟨n, by omega, hgroup, place, hplace, hshows⟩
    · rintro ⟨i, hi, hig, place', hplace', hshows⟩
      rcases Nat.lt_succ_iff_lt_or_eq.1 hi with hlt | rfl
      · exact Or.inl ⟨i, hlt, hig, place', hplace', hshows⟩
      · obtain rfl := Option.some.inj (hplace.symm.trans hplace')
        exact Or.inr hshows
  · right
    refine ⟨fun h => ?_, hnone⟩
    obtain ⟨place', hplace', hcan'⟩ := h hgroup
    obtain rfl := Option.some.inj (hplace.symm.trans hplace')
    exact hcan hcan'

/-- The cleared part of a buffer has no bits, and the rest is as it was. -/
theorem maskBit_cleared {output : List (BitVec 32)} {x y : ℕ}
    (hx : x < wordEnd canvasWidth.toNat) :
    maskBit (List.replicate (canvasWords canvasWidth canvasHeight) 0 ++
      output.drop (canvasWords canvasWidth canvasHeight)) (wordEnd canvasWidth.toNat) x y =
        if y < canvasHeight.toNat then false
        else maskBit output (wordEnd canvasWidth.toNat) x y := by
  have hwords : canvasWords canvasWidth canvasHeight * 32 =
      canvasHeight.toNat * wordEnd canvasWidth.toNat := by
    rw [canvasWords, Nat.mul_right_comm,
      Nat.div_mul_cancel (Nat.dvd_of_mod_eq_zero (wordEnd_mod _)), Nat.mul_comm]
  split_ifs with hy
  · have hlt := grid_lt hx hy
    have hword : (y * wordEnd canvasWidth.toNat + x) / 32 <
        canvasWords canvasWidth canvasHeight := by
      omega
    rw [maskBit, bitAt, List.getD_append _ _ _ _ (by simpa using hword)]
    simp
  · have hle : canvasHeight.toNat * wordEnd canvasWidth.toNat ≤
        y * wordEnd canvasWidth.toNat := Nat.mul_le_mul_right _ (by omega)
    have hword : canvasWords canvasWidth canvasHeight ≤
        (y * wordEnd canvasWidth.toNat + x) / 32 := by
      omega
    rw [maskBit, maskBit, bitAt, bitAt, List.getD_append_right _ _ _ _ (by simpa using hword),
      List.length_replicate, List.getD_eq_getElem?_getD, List.getElem?_drop,
      Nat.add_sub_cancel' hword, List.getD_eq_getElem?_getD]

/-- With accepted sizes only the captures of the group can make the union fail. -/
theorem buildGroupMaskUnion_eq {group : ℕ} {output : List (BitVec 32)}
    (hlow : canvasHeight < 2 ^ 31)
    (haccepts : CoverageAccepts count roots canvasWidth canvasHeight group output.length) :
    buildGroupMaskUnion floats captures count groups roots transforms canvasWidth canvasHeight
        group output =
      (List.range count).foldlM (coverageStep floats captures count groups transforms canvasWidth
        canvasHeight group (roots.getD group 0))
        (List.replicate (canvasWords canvasWidth canvasHeight) 0 ++
          output.drop (canvasWords canvasWidth canvasHeight)) := by
  obtain ⟨hmember, hfew, hwidth, hnarrow, hheight, hwords, hroot⟩ := haccepts
  have hrow : 0 < wordEnd canvasWidth.toNat / 32 := by
    have := le_wordEnd canvasWidth.toNat
    have := wordEnd_mod canvasWidth.toNat
    omega
  have hsize : canvasHeight.toNat ≤ (2 ^ 64 - 1) / (wordEnd canvasWidth.toNat / 32) := by
    have hstride : wordEnd canvasWidth.toNat / 32 ≤ 2 ^ 26 := by
      have := @wordEnd_lt canvasWidth.toNat
      omega
    have hquot := Nat.div_le_div_left (a := 2 ^ 64 - 1) hstride hrow
    omega
  have hguard : ¬(count ≤ group ∨ 32767 < count ∨ canvasWidth < 1 ∨ canvasHeight < 1 ∨
      2 ^ 31 - 1 - 31 < canvasWidth ∨
      (2 ^ 64 - 1) / (wordEnd canvasWidth.toNat / 32) < canvasHeight.toNat ∨
      output.length < canvasWords canvasWidth canvasHeight) := by
    push Not
    exact ⟨hmember, hfew, hwidth, hheight, by omega, hsize, hwords⟩
  have hnoroot : ¬(roots.getD group 0 ≠ 0xFFFF ∧ count ≤ (roots.getD group 0).toNat) := by
    rintro ⟨hne, hle⟩
    exact absurd (hroot hne) (by omega)
  rw [buildGroupMaskUnion, if_neg hguard]
  exact if_neg hnoroot

theorem coverageAccepts_of_eq_some {group : ℕ} {output result : List (BitVec 32)}
    (h : buildGroupMaskUnion floats captures count groups roots transforms canvasWidth canvasHeight
      group output = some result) :
    CoverageAccepts count roots canvasWidth canvasHeight group output.length := by
  rw [buildGroupMaskUnion] at h
  split_ifs at h with hguard
  push Not at hguard
  obtain ⟨hmember, hfew, hwidth, hheight, hnarrow, -, hwords⟩ := hguard
  by_cases hroot : roots.getD group 0 ≠ 0xFFFF ∧ count ≤ (roots.getD group 0).toNat
  · rw [if_pos hroot] at h
    cases h
  · exact ⟨hmember, hfew, hwidth, by omega, hheight, hwords, fun hne => by
      push Not at hroot
      exact hroot hne⟩

/-- What a successful union leaves in the buffer. -/
structure CanvasOf (floats : CoverageFloats F) (captures : List CaptureCoverage) (count : ℕ)
    (groups : List ℤ) (roots : List UInt16) (transforms : List F) (canvasWidth canvasHeight : ℤ)
    (group : ℕ) (output result : List (BitVec 32)) : Prop where
  length : result.length = output.length
  bits : ∀ x y, x < wordEnd canvasWidth.toNat →
    (maskBit result (wordEnd canvasWidth.toNat) x y = true ↔
      if y < canvasHeight.toNat then
        GroupShows floats captures count groups roots transforms canvasWidth canvasHeight group x y
      else maskBit output (wordEnd canvasWidth.toNat) x y = true)

/-- The ways a union can go. -/
theorem buildGroupMaskUnion_cases {group : ℕ} {output : List (BitVec 32)}
    (hlow : canvasHeight < 2 ^ 31) :
    ((CoverageAccepts count roots canvasWidth canvasHeight group output.length ∧
        ∀ i < count,
          CanPlace floats captures count groups roots transforms canvasWidth canvasHeight group i) ∧
      ∃ result, buildGroupMaskUnion floats captures count groups roots transforms canvasWidth
          canvasHeight group output = some result ∧
        CanvasOf floats captures count groups roots transforms canvasWidth canvasHeight group output
          result) ∨
    (¬(CoverageAccepts count roots canvasWidth canvasHeight group output.length ∧
        ∀ i < count,
          CanPlace floats captures count groups roots transforms canvasWidth canvasHeight group i) ∧
      buildGroupMaskUnion floats captures count groups roots transforms canvasWidth canvasHeight
        group output = none) := by
  by_cases haccepts : CoverageAccepts count roots canvasWidth canvasHeight group output.length
  swap
  · refine Or.inr ⟨fun h => haccepts h.1, ?_⟩
    rw [Option.eq_none_iff_forall_ne_some]
    intro result h
    exact haccepts (coverageAccepts_of_eq_some h)
  rw [buildGroupMaskUnion_eq hlow haccepts]
  obtain ⟨hmember, hfew, hwidth, hnarrow, hheight, hwords, hroot⟩ := id haccepts
  generalize hcleared : List.replicate (canvasWords canvasWidth canvasHeight) 0 ++
    output.drop (canvasWords canvasWidth canvasHeight) = cleared
  have hlength : cleared.length = output.length := by
    rw [← hcleared, List.length_append, List.length_replicate, List.length_drop]
    omega
  have hcanvas : CanvasHeld canvasWidth canvasHeight cleared.length :=
    ⟨hwidth, hnarrow, hheight, hlow, hlength ▸ hwords⟩
  have hstart : CanvasUpTo floats captures count groups roots transforms canvasWidth canvasHeight
      group 0 cleared cleared := ⟨rfl, fun x y _ => by simp⟩
  have hloop := Loops.foldlM_range_option
    (fun n => CanvasUpTo floats captures count groups roots transforms canvasWidth canvasHeight
      group n cleared)
    (CanPlace floats captures count groups roots transforms canvasWidth canvasHeight group)
    hstart (fun n (_ : n < count) current h => h.next hcanvas)
  rcases hloop with ⟨hplaced, result, hresult, hupto⟩ | ⟨hplaced, hnone⟩
  · refine Or.inl ⟨⟨haccepts, hplaced⟩, result, hresult, hupto.length.trans hlength, ?_⟩
    intro x y hx
    have hout : y < canvasHeight.toNat ∨ ¬∃ i < count, groups.getD i (-1) = group ∧ ∃ place,
        placeCapture floats captures count transforms canvasWidth canvasHeight
          (roots.getD group 0) i = some place ∧ ShowsPoint (coverageAt captures i) place x y := by
      by_contra hno
      push Not at hno
      obtain ⟨hy, i, -, -, place, hplace, ⟨-, -, htop, hbottom⟩, -⟩ := hno
      have hinside := placeCapture_inside hplace
      have hlimit := hinside.bottom
      have htop' := hinside.top
      omega
    rw [hupto.bits x y hx, ← hcleared, maskBit_cleared hx]
    split_ifs with hy
    · simp only [false_or]
      rfl
    · rw [or_iff_left (hout.resolve_left hy)]
  · exact Or.inr ⟨fun h => hplaced h.2, hnone⟩

theorem buildGroupMaskUnion_some {group : ℕ} {output result : List (BitVec 32)}
    (hlow : canvasHeight < 2 ^ 31)
    (h : buildGroupMaskUnion floats captures count groups roots transforms canvasWidth canvasHeight
      group output = some result) :
    CanvasOf floats captures count groups roots transforms canvasWidth canvasHeight group output
      result := by
  rcases buildGroupMaskUnion_cases hlow with ⟨-, result', hresult, hcanvas⟩ | ⟨-, hnone⟩
  · obtain rfl := Option.some.inj (hresult.symm.trans h)
    exact hcanvas
  · rw [hnone] at h
    cases h

/-- **The canvas of a group.**  The union succeeds exactly when the source accepts its sizes and
every capture of the group can be placed and warped; then a point is covered iff a capture of the
group shows it, whatever the buffer held before and in whatever order the captures stand, and what
lies behind the canvas is as it was. -/
theorem buildGroupMaskUnion_exact (group : ℕ) (output : List (BitVec 32))
    (hlow : canvasHeight < 2 ^ 31) :
    ((buildGroupMaskUnion floats captures count groups roots transforms canvasWidth canvasHeight
        group output).isSome ↔
      CoverageAccepts count roots canvasWidth canvasHeight group output.length ∧
        ∀ i < count,
          CanPlace floats captures count groups roots transforms canvasWidth canvasHeight group i) ∧
      ∀ result, buildGroupMaskUnion floats captures count groups roots transforms canvasWidth
          canvasHeight group output = some result →
        CanvasOf floats captures count groups roots transforms canvasWidth canvasHeight group output
          result := by
  refine ⟨?_, fun result => buildGroupMaskUnion_some hlow⟩
  rcases @buildGroupMaskUnion_cases F floats captures count groups roots transforms canvasWidth
    canvasHeight group output hlow with ⟨hgood, result, hresult, -⟩ | ⟨hbad, hnone⟩
  · rw [hresult]
    exact iff_of_true rfl hgood
  · rw [hnone]
    exact iff_of_false Bool.false_ne_true hbad

end Group

/-- Captures that are placed where they are. -/
def homeFloats : CoverageFloats Unit where
  captureCanvasTransform := fun _ _ _ _ _ _ _ _ => some (Vector.replicate 9 ())
  inverseTransform3 := some
  warpedCorners := fun _ width height => some (0, 0, width - 1, height - 1)
  localAffine := fun _ left top => ![1, 0, left, 0, 1, top]

/-- Two captures of three by two points, each with one point set. -/
def twoCoverages : List CaptureCoverage :=
  [⟨3, 2, 3, 2, 32, [1#32, 0#32]⟩, ⟨3, 2, 3, 2, 32, [0#32, 4#32]⟩]

theorem buildGroupMaskUnion_exact_two :
    buildGroupMaskUnion homeFloats twoCoverages 2 [0, 0] [0] [] 3 2 0 [7#32, 7#32] =
        some [1#32, 4#32] ∧
      GroupShows homeFloats twoCoverages 2 [0, 0] [0] [] 3 2 0 2 1 := by
  have hresult : buildGroupMaskUnion homeFloats twoCoverages 2 [0, 0] [0] [] 3 2 0
      [7#32, 7#32] = some [1#32, 4#32] := by decide +kernel
  have hexact := @buildGroupMaskUnion_exact Unit homeFloats twoCoverages 2 [0, 0] [0] [] 3 2 0
    [7#32, 7#32] (by norm_num)
  refine ⟨hresult, ?_⟩
  have hpoint := ((hexact.2 _ hresult).bits 2 1 (by decide)).1 (by decide)
  rwa [if_pos (by decide)] at hpoint

end Fpc
