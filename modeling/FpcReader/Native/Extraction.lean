/-
**Extracting features.**

The stages of an extraction, put together: maxima of the scores under the mask, a budget of three
hundred, the orientation at every feature that is kept, a patch of the padded image turned by it,
and the signs of the patch's projections.  The scores, the rotation of a patch in sixteenth bits and
the weights of the smoothing are computed in single precision and are parameters.

Main definitions:

* `Fpc.padImageEdges` — an image with its edges repeated;
* `Fpc.sampleDescriptorRoi` — the turned patch around a feature;
* `Fpc.describeFeature`, `Fpc.extractStages` — what the stages compute.

Main results:

* `Fpc.sampleDescriptorRoi_inside` — **no patch of a feature leaves the padded image**;
* `Fpc.extraction_sound` — **an extraction that fails has written nothing, and one that does not has
  described every feature that was kept, each a maximum of its own**.
-/

import FpcReader.Native.AffinePatch
import FpcReader.Native.AngleAccuracy
import FpcReader.Native.FeatureDetection
import FpcReader.Native.Projection

set_option relaxedAutoImplicit false
set_option autoImplicit false

namespace Fpc

open Words Peaks

/-! ### The stages -/

/-- The pixel that is repeated at a place of the padded image. -/
def padIndex (place padding length : ℕ) : ℕ :=
  if place < padding then 0 else if place - padding < length then place - padding else length - 1

/-- The image with its edges repeated, in a buffer that may have more in it. -/
def padImageEdges (source : List UInt8) (width height stride padding : ℕ) (output : List UInt8)
    (outputStride : ℕ) : Option (List UInt8) :=
  if width = 0 ∨ height = 0 ∨ 256 < width ∨ 256 < height ∨ 128 < padding ∨ stride < width ∨
      outputStride < width + 2 * padding ∨ (2 ^ 64 - 1) / stride < height ∨
      (2 ^ 64 - 1) / outputStride < height + 2 * padding then none
  else
    some ((List.range output.length).map fun i =>
      let y := i / outputStride
      let x := i % outputStride
      if y < height + 2 * padding ∧ x < width + 2 * padding then
        source.getD (padIndex y padding height * stride + padIndex x padding width) 0
      else output.getD i 0)

/-- What is computed in single precision. -/
structure ExtractFloats (S : Type) where
  budget : FeatureFloats S
  /-- `a < b` -/
  lt : S → S → Bool
  /-- A whole number of degrees. -/
  ofInt : ℤ → S
  /-- The coefficients of a turned patch, from its side, the span it covers, its middle and its
  angle; nothing when the angle is out of range. -/
  transform : ℕ → ℕ → UInt8 → UInt8 → S → Option (Fin 6 → ℤ)

/-- Six coefficients of a turned patch, numbered from zero. -/
local instance sixTurned : NeZero 6 := ⟨by decide⟩

/-- The coefficients with the origin of the padded image added. -/
def roiAffine (fixed : Fin 6 → ℤ) (originX originY : ℕ) : Fin 6 → BitVec 32 := fun i =>
  if i = 2 then word 32 (fixed 2) + word 32 (originX * 32768)
  else if i = 5 then word 32 (fixed 5) + word 32 (originY * 32768)
  else word 32 (fixed i)

section Stages

variable {S : Type} (floats : ExtractFloats S)

/-- A turned patch around a place. -/
def sampleDescriptorRoi (source : List UInt8) (width height stride : ℕ) (patch : List UInt8)
    (side sourceSpan : ℕ) (x y : UInt8) (degrees : S) (originX originY : ℕ) : ℤ × List UInt8 :=
  if side < 2 ∨ 25 < side ∨ sourceSpan < 2 ∨ 25 < sourceSpan then (-1, patch)
  else
    match floats.transform side sourceSpan x y degrees with
    | none => (-1, patch)
    | some fixed =>
        sampleAffineQ15 source width height stride patch side side (roiAffine fixed originX originY)

/-- The angle of a patch, from the orientation of the field. -/
def patchDegrees (angle : Int8) : ℤ := shiftFloor (360 * angle.toInt) 9 + 180

/-- One feature: its angle and its descriptor. -/
def describeFeature (field padded : List UInt8) (weights : List Int16) (point : Keypoint S) :
    Except ℤ (S × Vector UInt8 16) :=
  match interpolateOrientation field 27 21 (8 + 16 * point.x.toNat) (8 + 16 * point.y.toNat) with
  | none => .error (-1)
  | some angle =>
      let degrees := floats.ofInt (patchDegrees angle)
      let sampled := sampleDescriptorRoi floats padded 140 116 140 (List.replicate 256 0) 16 25
        point.x point.y degrees 14 14
      if sampled.1 ≠ 0 then .error sampled.1
      else
        match fpcProjectDescriptor sampled.2 weights 16 with
        | .error _ => .error (-1)
        | .ok descriptor => .ok (degrees, Vector.ofFn fun i => descriptor.getD i 0)

/-- What an extraction reads. -/
structure ExtractInput (S : Type) where
  image : List UInt8
  stride : ℕ
  mask : List UInt8
  maskStride : ℕ
  weights : List Int16
  /-- The status of the derivatives, and the scores that come from them. -/
  hessianPlanes : ℤ
  scores : List S
  /-- The weights of the smoothing, and whether its buffers could be had. -/
  kernel : List Int16
  fieldAllocated : Bool

variable [Inhabited S] (input : ExtractInput S)

/-- The orientation field of the image. -/
def ExtractInput.field : Option (List UInt8) :=
  buildOrientationField input.kernel input.fieldAllocated input.image 112 88 input.stride (27 * 21)

/-- The padded image. -/
def ExtractInput.padded : Option (List UInt8) :=
  padImageEdges input.image 112 88 input.stride 14 (List.replicate (140 * 116) 0) 140

/-- The stages around the budget.  The scores cannot be refused: their planes are there. -/
def extractStages : ExtractStages S where
  hessianPlanes := input.hessianPlanes
  harrisScores := 0
  selectFloatMaxima :=
    match selectFloatMaxima floats.lt input.scores 112 88 112 input.mask input.maskStride 4 2048
    with
    | .error _ => (-1, [])
    | .ok points => (0, points)
  buildOrientationField := if input.field.isSome then 0 else -1
  padImageEdges := if input.padded.isSome then 0 else -1
  describe := describeFeature floats (input.field.getD []) (input.padded.getD []) input.weights

end Stages

/-! ### A patch inside the padded image -/

/-- Coefficients that are those of a rotation, up to what single precision and the cut to sixteen
bits lose: 24 pixels are covered by 16, and the middle of the patch is the feature. -/
structure NearRotation (fixed : Fin 6 → ℤ) (x y : UInt8) (c s : ℝ) : Prop where
  size : |c| + |s| ≤ 1.4143
  a0 : |(fixed 0 : ℝ) - 32768 * (1.6 * c)| ≤ 2
  a1 : |(fixed 1 : ℝ) - 32768 * (-(1.6 * s))| ≤ 2
  a2 : |(fixed 2 : ℝ) - 32768 * (x.toNat - (c - s) * 12)| ≤ 2
  a3 : |(fixed 3 : ℝ) - 32768 * (1.6 * s)| ≤ 2
  a4 : |(fixed 4 : ℝ) - 32768 * (1.6 * c)| ≤ 2
  a5 : |(fixed 5 : ℝ) - 32768 * (y.toNat - (c + s) * 12)| ≤ 2

/-- The offset of a turned position from the middle. -/
theorem abs_turned_le {c s u v : ℝ} (hsize : |c| + |s| ≤ 1.4143) (hu : |u| ≤ 12) (hv : |v| ≤ 12) :
    |c * u + s * v| ≤ 16.98 := by
  calc |c * u + s * v| ≤ |c| * |u| + |s| * |v| := by
        rw [← abs_mul, ← abs_mul]
        exact abs_add_le _ _
    _ ≤ |c| * 12 + |s| * 12 := add_le_add (mul_le_mul_of_nonneg_left hu (abs_nonneg c))
        (mul_le_mul_of_nonneg_left hv (abs_nonneg s))
    _ ≤ 16.98 := by linarith

/-- One coordinate of a position of the patch: the sum of the three coefficients, against the turned
position. -/
theorem abs_position_le {b p q : ℤ} {middle c s : ℝ} {px py : ℕ} (hpx : px < 16) (hpy : py < 16)
    (hsize : |c| + |s| ≤ 1.4143) (hb : |(b : ℝ) - 32768 * (middle - (c + s) * 12)| ≤ 2)
    (hp : |(p : ℝ) - 32768 * (1.6 * s)| ≤ 2) (hq : |(q : ℝ) - 32768 * (1.6 * c)| ≤ 2) :
    |((b + py * p + px * q : ℤ) : ℝ) - 32768 * middle| ≤ 32768 * 16.98 + 62 := by
  have hpx' : (0 : ℝ) ≤ px ∧ (px : ℝ) ≤ 15 :=
    ⟨Nat.cast_nonneg px, by exact_mod_cast (by omega : px ≤ 15)⟩
  have hpy' : (0 : ℝ) ≤ py ∧ (py : ℝ) ≤ 15 :=
    ⟨Nat.cast_nonneg py, by exact_mod_cast (by omega : py ≤ 15)⟩
  have hturned := abs_turned_le (u := 1.6 * px - 12) (v := 1.6 * py - 12) hsize
    (by rw [abs_le]; constructor <;> linarith) (by rw [abs_le]; constructor <;> linarith)
  have hrow : |(py : ℝ) * (p - 32768 * (1.6 * s))| ≤ 15 * 2 :=
    abs_mul_le_mul (by rw [abs_of_nonneg hpy'.1]; exact hpy'.2) hp
  have hcolumn : |(px : ℝ) * (q - 32768 * (1.6 * c))| ≤ 15 * 2 :=
    abs_mul_le_mul (by rw [abs_of_nonneg hpx'.1]; exact hpx'.2) hq
  have hsplit : ((b + py * p + px * q : ℤ) : ℝ) - 32768 * middle =
      (b - 32768 * (middle - (c + s) * 12)) + py * (p - 32768 * (1.6 * s)) +
        px * (q - 32768 * (1.6 * c)) + 32768 * (c * (1.6 * px - 12) + s * (1.6 * py - 12)) := by
    push_cast
    ring
  rw [hsplit]
  rw [abs_le] at hturned hrow hcolumn hb ⊢
  constructor <;> linarith

/-- A coordinate that lies so close to a feature stays inside the padding. -/
theorem padded_inside {t : ℤ} {middle : ℕ} (high : ℕ) (hlow : 4 ≤ middle)
    (hhigh : middle + 5 ≤ high) (hbig : high ≤ 256)
    (h : |(t : ℝ) - 32768 * middle| ≤ 32768 * 16.98 + 62) :
    0 ≤ (word 32 (t + (14 : ℕ) * 32768)).toInt / 2 ^ 15 ∧
      (word 32 (t + (14 : ℕ) * 32768)).toInt / 2 ^ 15 + 1 < high + 28 := by
  rw [abs_le] at h
  have hlo : (32768 * middle - 556463 : ℝ) ≤ t := by linarith
  have hhi : (t : ℝ) ≤ 32768 * middle + 556463 := by linarith
  have hlo' : 32768 * (middle : ℤ) - 556463 ≤ t := by exact_mod_cast hlo
  have hhi' : t ≤ 32768 * (middle : ℤ) + 556463 := by exact_mod_cast hhi
  rw [toInt_word (by norm_num) (by norm_num; omega) (by norm_num; omega)]
  omega

/-- A position of the patch, as one sum. -/
theorem word_position (b p q : ℤ) (px py low : ℕ) :
    word 32 b + word 32 (low * 32768) + BitVec.ofNat 32 py * word 32 p +
      BitVec.ofNat 32 px * word 32 q = word 32 ((b + py * p + px * q) + low * 32768) := by
  have hnat : ∀ n : ℕ, BitVec.ofNat 32 n = word 32 n := fun n => (BitVec.ofInt_natCast 32 n).symm
  rw [hnat, hnat, word_mul, word_mul, word_add, word_add, word_add]
  congr 1
  ring

/-- **No patch of a feature leaves the padded image.** -/
theorem roiAffine_inside {fixed : Fin 6 → ℤ} {x y : UInt8} {c s : ℝ}
    (h : NearRotation fixed x y c s) (hx : 4 ≤ x.toNat ∧ x.toNat < 108)
    (hy : 4 ≤ y.toNat ∧ y.toNat < 84) {px py : ℕ} (hpx : px < 16) (hpy : py < 16) :
    PositionInside 140 116 (roiAffine fixed 14 14) px py := by
  have hX : positionX (roiAffine fixed 14 14) px py =
      word 32 ((fixed 2 + py * fixed 1 + px * fixed 0) + (14 : ℕ) * 32768) :=
    word_position (fixed 2) (fixed 1) (fixed 0) px py 14
  have hY : positionY (roiAffine fixed 14 14) px py =
      word 32 ((fixed 5 + py * fixed 4 + px * fixed 3) + (14 : ℕ) * 32768) :=
    word_position (fixed 5) (fixed 4) (fixed 3) px py 14
  have hcloseX := abs_position_le (c := c) (s := -s) hpx hpy (by rw [abs_neg]; exact h.size)
    (by rw [← sub_eq_add_neg]; exact h.a2) (by rw [mul_neg]; exact h.a1) h.a0
  have hcloseY := abs_position_le (c := s) (s := c) hpx hpy (by rw [add_comm]; exact h.size)
    (by rw [add_comm s c]; exact h.a5) h.a4 h.a3
  obtain ⟨hx₀, hx₁⟩ := padded_inside 112 hx.1 (by omega) (by omega) hcloseX
  obtain ⟨hy₀, hy₁⟩ := padded_inside 88 hy.1 (by omega) (by omega) hcloseY
  rw [← hX] at hx₀ hx₁
  rw [← hY] at hy₀ hy₁
  exact ⟨hx₀, hy₀, hx₁, hy₁⟩

/-- Sampling a patch whose positions all have their neighbours. -/
theorem sampleAffineQ15_inside {source patch : List UInt8} {width height stride side : ℕ}
    {affine : Fin 6 → BitVec 32} (hsize : 2 ≤ width ∧ 2 ≤ height ∧ width ≤ stride ∧
      height ≤ (2 ^ 64 - 1) / stride) (hside : 0 < side ∧ side ≤ 25)
    (hlen : patch.length = side * side)
    (h : ∀ py < side, ∀ px < side, PositionInside width height affine px py) :
    ∃ sampled, sampleAffineQ15 source width height stride patch side side affine = (0, sampled) ∧
      sampled.length = side * side ∧
        ∀ j < side * side, sampled.getD j 0 = patchValue source stride side affine j := by
  have hguard : ¬(width < 2 ∨ height < 2 ∨ stride < width ∨ side = 0 ∨ side = 0 ∨
      (2 ^ 64 - 1) / stride < height ∨ (2 ^ 64 - 1) / side < side) := by
    have hcap : side ≤ (2 ^ 64 - 1) / side := by
      have hsquare : side * side ≤ 25 * 25 := Nat.mul_le_mul hside.2 hside.2
      rw [Nat.le_div_iff_mul_le hside.1]
      omega
    omega
  rcases samplePass_run false source width height stride affine hlen.ge with
    ⟨-, first, hfirst, hunwritten⟩ | ⟨hbad, -⟩
  swap
  · exact absurd h hbad
  rcases samplePass_run true source width height stride affine hlen.ge with
    ⟨-, last, hlast, hwritten⟩ | ⟨hbad, -⟩
  swap
  · exact absurd h hbad
  refine ⟨last.patch, ?_, hwritten.length.trans hlen, fun j hj => ?_⟩
  · rw [sampleAffineQ15, if_neg hguard, hfirst]
    simp only [bind, Except.bind, hunwritten.checked rfl, hlast]
  · rw [hwritten.written rfl j, if_pos hj]

/-! ### One feature -/

/-- The rotations that are computed for the angles of features. -/
def RotatesPatches {S : Type} (floats : ExtractFloats S) : Prop :=
  ∀ (x y : UInt8) (d : ℤ), 90 ≤ d → d ≤ 269 → ∃ fixed c s,
    floats.transform 16 25 x y (floats.ofInt d) = some fixed ∧ NearRotation fixed x y c s

theorem patchDegrees_range (angle : Int8) : 90 ≤ patchDegrees angle ∧ patchDegrees angle ≤ 269 := by
  have hlo := angle.le_toInt
  have hhi := angle.toInt_lt
  rw [patchDegrees, shiftFloor_eq]
  omega

/-- What the description of a feature is: the orientation of the field at its place, the patch of
the padded image turned by it, and the signs of the projections of the patch. -/
structure Described {S : Type} (floats : ExtractFloats S) (field padded : List UInt8)
    (weights : List Int16) (x y : UInt8) (degrees : S) (descriptor : Vector UInt8 16) : Prop where
  turned : ∃ angle fixed patch,
    interpolateOrientation field 27 21 (8 + 16 * x.toNat) (8 + 16 * y.toNat) = some angle ∧
      degrees = floats.ofInt (patchDegrees angle) ∧
      floats.transform 16 25 x y degrees = some fixed ∧
      (∀ py < 16, ∀ px < 16, PositionInside 140 116 (roiAffine fixed 14 14) px py) ∧
      patch.length = 256 ∧
      (∀ j < 256, patch.getD j 0 = patchValue padded 140 16 (roiAffine fixed 14 14) j) ∧
      fpcProjectDescriptor patch weights 16 = .ok descriptor.toList

/-- The signs of a patch, in as many bytes as asked for. -/
theorem fpcProjectDescriptor_ok {patch : List UInt8} {weights : List Int16}
    (hpatch : patch.length = 256) (hweights : weights.length = 16384) :
    ∃ descriptor : Vector UInt8 16, fpcProjectDescriptor patch weights 16 = .ok descriptor.toList ∧
      ∀ read, fpcProjectDescriptor patch weights 16 = .ok read →
        (Vector.ofFn fun i : Fin 16 => read.getD i 0) = descriptor := by
  have hguard : ¬(patch.length = 0 ∨ 16 = 0 ∨ 16 % 2 ≠ 0 ∨ 16 < 16 ∨
      (2 ^ 64 - 1) / (16 * 4) < patch.length ∨ weights.length ≠ patch.length * 16 * 4) := by
    rw [hpatch, hweights]
    decide
  obtain ⟨read, hread, hlength⟩ : ∃ read, fpcProjectDescriptor patch weights 16 = .ok read ∧
      read.length = 16 := by
    rw [fpcProjectDescriptor, if_neg hguard]
    exact ⟨_, rfl, by simp⟩
  refine ⟨Vector.ofFn fun i : Fin 16 => read.getD i 0, ?_, fun other hother => ?_⟩
  · rw [hread]
    congr 1
    refine List.ext_getElem (by simp [hlength]) fun i hi₁ hi₂ => ?_
    simp [List.getElem?_eq_getElem hi₁]
  · obtain rfl := Except.ok.inj (hread.symm.trans hother)
    rfl

/-- **Describing a feature never fails**, wherever in the admitted part of the image it lies and
whatever the field and the image are. -/
theorem describeFeature_ok {S : Type} {floats : ExtractFloats S} (hrotates : RotatesPatches floats)
    (field padded : List UInt8) {weights : List Int16} (hweights : weights.length = 16384)
    {point : Keypoint S} (hx : 4 ≤ point.x.toNat ∧ point.x.toNat < 108)
    (hy : 4 ≤ point.y.toNat ∧ point.y.toNat < 84) :
    ∃ degrees descriptor, describeFeature floats field padded weights point =
        .ok (degrees, descriptor) ∧
      Described floats field padded weights point.x point.y degrees descriptor := by
  obtain ⟨angle, hangle⟩ := @interpolateOrientation_isSome field 27 21
    (8 + 16 * point.x.toNat) (8 + 16 * point.y.toNat) (by decide) (by decide) (by omega) (by omega)
  obtain ⟨hlow, hhigh⟩ := patchDegrees_range angle
  obtain ⟨fixed, c, s, hfixed, hnear⟩ := hrotates point.x point.y (patchDegrees angle) hlow hhigh
  have hinside : ∀ py < 16, ∀ px < 16, PositionInside 140 116 (roiAffine fixed 14 14) px py :=
    fun py hpy px hpx => roiAffine_inside hnear hx hy hpx hpy
  obtain ⟨patch, hpatch, hlength, hvalues⟩ := @sampleAffineQ15_inside padded
    (List.replicate 256 0) 140 116 140 16 (roiAffine fixed 14 14) (by decide) (by decide)
    List.length_replicate hinside
  obtain ⟨descriptor, hdescriptor, hread⟩ := fpcProjectDescriptor_ok hlength hweights
  have hsampled : sampleDescriptorRoi floats padded 140 116 140 (List.replicate 256 0) 16 25
      point.x point.y (floats.ofInt (patchDegrees angle)) 14 14 = (0, patch) := by
    rw [sampleDescriptorRoi, if_neg (by decide), hfixed]
    exact hpatch
  refine ⟨floats.ofInt (patchDegrees angle), descriptor, ?_,
    ⟨angle, fixed, patch, hangle, rfl, hfixed, hinside, hlength, hvalues, hdescriptor⟩⟩
  rw [describeFeature, hangle]
  dsimp only
  rw [hsampled, if_neg (by simp), hdescriptor]
  dsimp only
  rw [hread _ hdescriptor]

/-! ### All features -/

/-- A place where the scores have a maximum of their own under the mask, away from the edges. -/
def FeaturePlace {S : Type} [Inhabited S] (floats : ExtractFloats S) (input : ExtractInput S)
    (q : ℕ × ℕ) : Prop :=
  (4 ≤ q.1 ∧ q.1 < 84 ∧ 4 ≤ q.2 ∧ q.2 < 108) ∧
    input.mask.getD (q.1 * input.maskStride + q.2) 0 ≠ 0 ∧
    ∀ r, Adjacent r q → floats.lt (input.scores.getD (r.1 * 112 + r.2) default)
      (input.scores.getD (q.1 * 112 + q.2) default) = true

/-- The feature at a place. -/
def featureAt {S : Type} [Inhabited S] (input : ExtractInput S) (q : ℕ × ℕ) : Keypoint S :=
  ⟨UInt8.ofNat q.2, UInt8.ofNat q.1, 0, input.scores.getD (q.1 * 112 + q.2) default⟩

section All

variable {S : Type} [Inhabited S] {floats : ExtractFloats S} {input : ExtractInput S}

/-- What the selection returns: features at places of their own. -/
theorem selectFloatMaxima_places (hasymm : ∀ a b, floats.lt a b = true → floats.lt b a = true →
      False) {points : List (Keypoint S)}
    (h : selectFloatMaxima floats.lt input.scores 112 88 112 input.mask input.maskStride 4 2048 =
      .ok points) :
    ∃ places : List (ℕ × ℕ), places.Nodup ∧ (∀ q ∈ places, FeaturePlace floats input q) ∧
      points = places.map (featureAt input) := by
  obtain ⟨hpoints, hborder, -, -⟩ := selectFloatMaxima_eq_ok h
  obtain ⟨hmem, hsorted⟩ := @peakPlaces_spec _ floats.lt
    (fun y x => input.scores.getD (y * 112 + x) default)
    (fun y x => input.mask.getD (y * input.maskStride + x) 0 != 0) 112 88 4 hasymm hborder
  rw [collectPeaks_eq, ← List.map_take] at hpoints
  refine ⟨_, ?_, ?_, hpoints⟩
  · have hnodup : (peakPlaces floats.lt (fun y x => input.scores.getD (y * 112 + x) default)
        (fun y x => input.mask.getD (y * input.maskStride + x) 0 != 0) 112 88 4).Nodup := by
      refine hsorted.imp fun {q r} horder => ?_
      rintro rfl
      omega
    exact hnodup.sublist (List.take_sublist _ _)
  · rintro ⟨y, x⟩ hq
    obtain ⟨hplace, hmask, hpeak⟩ := (hmem y x).1 (List.mem_of_mem_take hq)
    exact ⟨⟨by omega, by omega, by omega, by omega⟩, by simpa using hmask, hpeak⟩

/-- What is drawn from features at places of their own is at places of its own. -/
theorem Drawn.places {places : List (ℕ × ℕ)} {kept : List (Keypoint S)} {n : ℕ}
    (h : Drawn (places.map (featureAt input)) n kept) (hnodup : places.Nodup) :
    ∃ chosen : List (ℕ × ℕ), chosen.Nodup ∧ (∀ q ∈ chosen, q ∈ places) ∧
      kept = chosen.map (featureAt input) := by
  obtain ⟨positions, hpositions, -, hkept⟩ := h
  have hinside : ∀ p ∈ positions, p < places.length := by
    intro p hp
    have hsome : (places.map (featureAt input))[p]? ∈ kept.map some := by
      rw [hkept]
      exact List.mem_map_of_mem hp
    obtain ⟨point, -, hpoint⟩ := List.mem_map.1 hsome
    by_contra hlarge
    rw [List.getElem?_eq_none (by simpa using hlarge)] at hpoint
    cases hpoint
  refine ⟨positions.map fun p => places.getD p (0, 0), ?_, ?_, ?_⟩
  · refine List.Nodup.map_on ?_ hpositions
    intro p hp q hq heq
    rw [List.getD_eq_getElem?_getD, List.getD_eq_getElem?_getD,
      List.getElem?_eq_getElem (hinside p hp), List.getElem?_eq_getElem (hinside q hq)] at heq
    exact (List.Nodup.getElem_inj_iff hnodup).1 heq
  · intro q hq
    obtain ⟨p, hp, rfl⟩ := List.mem_map.1 hq
    rw [List.getD_eq_getElem?_getD, List.getElem?_eq_getElem (hinside p hp)]
    exact List.getElem_mem _
  · refine List.map_injective_iff.2 (Option.some_injective _) ?_
    rw [hkept, List.map_map, List.map_map]
    refine List.map_congr_left fun p hp => ?_
    rw [Function.comp_apply, Function.comp_apply, List.getElem?_map, List.getD_eq_getElem?_getD,
      List.getElem?_eq_getElem (hinside p hp)]
    rfl

omit [Inhabited S] in
/-- Describing features none of which fails. -/
theorem describeFeatures_ok {describe : Keypoint S → Except ℤ (S × Vector UInt8 16)}
    {P : Keypoint S → S → Vector UInt8 16 → Prop} {points : List (Keypoint S)}
    (h : ∀ point ∈ points, ∃ degrees descriptor, describe point = .ok (degrees, descriptor) ∧
      P point degrees descriptor) :
    ∃ features, describeFeatures describe points = (0, features) ∧
      List.Forall₂ (fun point feature => feature.point = point ∧
        P point feature.degrees feature.descriptor) points features := by
  induction points with
  | nil => exact ⟨[], rfl, .nil⟩
  | cons point points ih =>
      obtain ⟨degrees, descriptor, hpoint, hP⟩ := h point List.mem_cons_self
      obtain ⟨features, hfeatures, hall⟩ := ih fun p hp => h p (List.mem_cons_of_mem point hp)
      refine ⟨⟨point, degrees, descriptor⟩ :: features, ?_, .cons ⟨rfl, hP⟩ hall⟩
      rw [describeFeatures, hpoint]
      dsimp only
      rw [hfeatures]

/-- The budget draws from the maxima. -/
theorem limited_places {places : List (ℕ × ℕ)} {kept : List (Keypoint S)}
    (h : KeptByLevel (places.map (featureAt input))
      [⟨(places.map (featureAt input)).length, 16384, 16384, 8, 8⟩] 300 kept)
    (hnodup : places.Nodup) :
    ∃ chosen : List (ℕ × ℕ), chosen.Nodup ∧ (∀ q ∈ chosen, q ∈ places) ∧
      kept = chosen.map (featureAt input) := by
  obtain ⟨levels, hlength, hkept, hdrawn⟩ := h
  have hone : levels = [levels.getD 0 []] := by
    match levels, hlength with
    | [level], _ => rfl
  have hlevel := hdrawn 0 (by simp)
  rw [levelPoints, levelCount] at hlevel
  simp only [List.take_zero, List.map_nil, List.sum_nil, List.drop_zero, List.getElem?_cons_zero,
    Option.map_some, Option.getD_some, List.take_length] at hlevel
  have hsame : kept = levels.getD 0 [] := by
    rw [hkept, hone]
    simp
  rw [hsame]
  exact hlevel.places hnodup

end All

/-- **An extraction is all or nothing.**  One that fails has written no feature; one that does not
has written at most three hundred and counted them.  Each is a maximum of the scores under the mask
at a place of its own, no two of them next to each other, and each is described by the patch around
it, which lies inside the padded image. -/
theorem extraction_sound {S : Type} [Inhabited S] {floats : ExtractFloats S}
    (hasymm : ∀ a b, floats.lt a b = true → floats.lt b a = true → False)
    (hrotates : RotatesPatches floats) (input : ExtractInput S) (allocated selectAllocated : Bool)
    (capacity : ℕ) :
    ∃ r, extractProfile300Prepared floats.budget allocated selectAllocated
        (extractStages floats input) input.stride input.maskStride input.weights.length capacity =
          .ok r ∧
      (r.status ≠ 0 → r.features = [] ∧ (r.count = none ∨ r.count = some 0)) ∧
      (r.status = 0 → r.count = some r.features.length ∧ r.features.length ≤ 300 ∧
        (r.features ≠ [] → input.field.isSome = true ∧ input.padded.isSome = true) ∧
        ∃ chosen : List (ℕ × ℕ), chosen.Nodup ∧ (∀ q ∈ chosen, FeaturePlace floats input q) ∧
          (∀ q ∈ chosen, ∀ q' ∈ chosen, ¬ Adjacent q q') ∧
          List.Forall₂ (fun q (feature : ExtractedFeature S) => feature.point = featureAt input q ∧
            Described floats (input.field.getD []) (input.padded.getD []) input.weights
              feature.point.x feature.point.y feature.degrees feature.descriptor)
            chosen r.features) := by
  rw [extractProfile300Prepared]
  split_ifs with hguard hallocated hdetect
  · exact ⟨_, rfl, fun _ => ⟨rfl, .inl rfl⟩, fun h => absurd h (by norm_num)⟩
  · exact ⟨_, rfl, fun _ => ⟨rfl, .inr rfl⟩, fun h => absurd h (by norm_num)⟩
  · exact ⟨_, rfl, fun _ => ⟨rfl, .inr rfl⟩, fun h => absurd h hdetect⟩
  have hweights : input.weights.length = 16384 := by
    by_contra hne
    exact hguard (.inr (.inr (.inr (.inr (.inl hne)))))
  -- the maxima were selected
  obtain ⟨points, hselect⟩ : ∃ points, selectFloatMaxima floats.lt input.scores 112 88 112
      input.mask input.maskStride 4 2048 = .ok points := by
    cases hselect : selectFloatMaxima floats.lt input.scores 112 88 112 input.mask
        input.maskStride 4 2048 with
    | ok points => exact ⟨points, rfl⟩
    | error fault =>
        refine absurd (?_ : detectStatus (extractStages floats input) ≠ 0) hdetect
        have hmaxima : (extractStages floats input).selectFloatMaxima = (-1, []) := by
          rw [extractStages]
          dsimp only
          rw [hselect]
        rw [detectStatus, hmaxima]
        split_ifs with h₁ h₂
        · exact h₁
        · exact h₂
        · norm_num
  have hdetected : (extractStages floats input).selectFloatMaxima.2 = points := by
    rw [extractStages]
    dsimp only
    rw [hselect]
  obtain ⟨places, hnodup, hplaces, hpoints⟩ := selectFloatMaxima_places hasymm hselect
  dsimp only
  rw [hdetected, hpoints]
  rcases limitFeatureBudget_kept (places.map (featureAt input))
    [⟨(places.map (featureAt input)).length, 16384, 16384, 8, 8⟩] 300 floats.budget selectAllocated
    112 88 2048 with hrefused | ⟨limited, hlimited, hall, hlevels, hbudget⟩
  · rw [hrefused]
    exact ⟨_, rfl, fun _ => ⟨rfl, .inr rfl⟩, fun h => absurd h (by norm_num)⟩
  rw [hlimited]
  dsimp only
  obtain ⟨chosen, hchosen, hsubset, hkept⟩ := limited_places hlevels hnodup
  have hlength : limited.output.length ≤ 300 := by
    by_cases hless : (300 : ℤ) < (places.map (featureAt input)).length
    · have := hbudget (by decide) hless
      omega
    · rw [hall (Or.inr (not_lt.1 hless))]
      omega
  by_cases hprepare : prepareStatus (extractStages floats input) limited.output ≠ 0
  · rw [if_pos hprepare]
    exact ⟨_, rfl, fun _ => ⟨rfl, .inr rfl⟩, fun h => absurd h hprepare⟩
  rw [if_neg hprepare]
  have hplace : ∀ q ∈ chosen, FeaturePlace floats input q := fun q hq => hplaces q (hsubset q hq)
  -- no description fails
  obtain ⟨features, hfeatures, hdescribed⟩ := @describeFeatures_ok S
    (extractStages floats input).describe
    (fun point degrees descriptor => Described floats (input.field.getD [])
      (input.padded.getD []) input.weights point.x point.y degrees descriptor) limited.output (by
      intro point hpoint
      rw [hkept] at hpoint
      obtain ⟨q, hq, rfl⟩ := List.mem_map.1 hpoint
      obtain ⟨⟨hy₀, hy₁, hx₀, hx₁⟩, -, -⟩ := hplace q hq
      have hx : (featureAt input q).x.toNat = q.2 := by
        rw [featureAt]
        exact Nat.mod_eq_of_lt (by omega)
      have hy : (featureAt input q).y.toNat = q.1 := by
        rw [featureAt]
        exact Nat.mod_eq_of_lt (by omega)
      exact describeFeature_ok hrotates _ _ hweights (by omega) (by omega))
  rw [hfeatures]
  dsimp only
  have hsame : limited.output.length = features.length := hdescribed.length_eq
  refine ⟨_, rfl, fun h => absurd rfl h, fun _ => ⟨by rw [if_pos rfl, hsame],
    hsame ▸ hlength, ?_, chosen, hchosen, hplace, ?_, ?_⟩⟩
  · intro hsome
    have hnonempty : limited.output.isEmpty = false := by
      cases hempty : limited.output with
      | nil =>
          rw [hempty] at hsame
          exact absurd (List.length_eq_zero_iff.1 hsame.symm) hsome
      | cons point points => rfl
    rw [prepareStatus, hnonempty, if_neg (by decide), extractStages] at hprepare
    cases hfield : input.field.isSome <;> cases hpadded : input.padded.isSome <;>
      simp [hfield, hpadded] at hprepare ⊢
  · -- of two neighbours only one has the greater score
    intro q hq q' hq' hadjacent
    have hback : Adjacent q' q := by
      obtain ⟨hne, h₁, h₂, h₃, h₄⟩ := hadjacent
      exact ⟨fun h => hne h.symm, h₂, h₁, h₄, h₃⟩
    exact hasymm _ _ ((hplace q' hq').2.2 q hadjacent) ((hplace q hq).2.2 q' hback)
  · rw [hkept] at hdescribed
    rw [List.forall₂_map_left_iff] at hdescribed
    exact hdescribed.imp fun q feature h => ⟨h.1, by rw [h.1]; exact h.2⟩

/-- Scores that are whole numbers, and the half turn that belongs to the orientation 0. -/
def halfTurnFloats : ExtractFloats ℕ where
  budget := wholeFloats
  lt := fun a b => decide (a < b)
  ofInt := Int.toNat
  transform := fun _ _ x y _ =>
    some ![-52428, 0, (x.toNat + 12) * 32768, 0, -52428, (y.toNat + 12) * 32768]

theorem halfTurnFloats_rotates : RotatesPatches halfTurnFloats := by
  intro x y d _ _
  have hscale : |((-52428 : ℤ) : ℝ) - 32768 * (1.6 * (-1))| ≤ 2 := by
    rw [abs_le]
    constructor <;> norm_num
  have hmiddle : ∀ n : ℕ, |(((n + 12) * 32768 : ℤ) : ℝ) - 32768 * (n - (-1) * 12)| ≤ 2 := by
    intro n
    have hzero : (((n + 12) * 32768 : ℤ) : ℝ) - 32768 * (n - (-1) * 12) = 0 := by
      push_cast
      ring
    exact (congrArg abs hzero).trans_le (by norm_num)
  have hnone : ∀ z : ℝ, z = 0 → |((0 : ℤ) : ℝ) - 32768 * z| ≤ 2 := by
    rintro z rfl
    norm_num
  refine ⟨_, -1, 0, rfl, by norm_num, hscale, hnone _ (by norm_num), ?_, hnone _ (by norm_num),
    hscale, ?_⟩
  · rw [sub_zero]
    exact hmiddle x.toNat
  · rw [add_zero]
    exact hmiddle y.toNat

/-- A flat image with one maximum. -/
def flatInput : ExtractInput ℕ where
  image := List.replicate 9856 9
  stride := 112
  mask := List.replicate 9856 255
  maskStride := 112
  weights := List.replicate 16384 1
  hessianPlanes := 0
  scores := List.replicate 4530 0 ++ [5]
  kernel := demoKernel
  fieldAllocated := true

theorem extraction_sound_flat :
    ∃ r, extractProfile300Prepared halfTurnFloats.budget true true
        (extractStages halfTurnFloats flatInput) 112 112 flatInput.weights.length 300 = .ok r ∧
      (r.status = 0 → r.features.length ≤ 300) := by
  have hasymm : ∀ a b, halfTurnFloats.lt a b = true → halfTurnFloats.lt b a = true → False := by
    intro a b hab hba
    simp only [halfTurnFloats, decide_eq_true_eq] at hab hba
    omega
  obtain ⟨r, hr, -, hdone⟩ :=
    extraction_sound hasymm halfTurnFloats_rotates flatInput true true 300
  exact ⟨r, hr, fun h => (hdone h).2.1⟩

end Fpc
