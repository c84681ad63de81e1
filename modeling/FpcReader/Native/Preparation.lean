/-
**Preparing an image.**

An image of the sensor is prepared before it is matched or enrolled.  Its pixels are classified,
dead ones are replaced by the mean of their neighbours, the contrast is stretched before and after
the ridges are enhanced, the part that a finger covers is found, and features are extracted there.

What computes in floating point is left opaque: the conversion of pixels, the correction by
projections, the enhancement, the orientation of ridges with its confidence, and the scores of the
features.

Main definitions:

* `Fpc.classifyRawPixels` — which pixels are black, white, dead or usable;
* `Fpc.profile300Prepare` — the preparation;
* `Fpc.PreparedImage.capture` — what enrollment and verification use of a prepared image;
* `Fpc.Measurable` — the pixels that count as measured.

Main results:

* `Fpc.classifyRawPixels_getD` — the class of every pixel;
* `Fpc.profile300Prepare_sound` — **what is known of a prepared image**;
* `Fpc.preparedImages_match` — **prepared images can always be matched**.
-/

import FpcReader.Native.CaptureMask
import FpcReader.Native.Defects
import FpcReader.Native.Extraction
import FpcReader.Native.MatchTotal
import FpcReader.Native.Normalize
import FpcReader.Native.UpdateSound

set_option relaxedAutoImplicit false
set_option autoImplicit false

namespace Fpc

open PackedBits Words

/-! ### The source's functions -/

/-- The class of a pixel that is not dead: black, white or usable. -/
def pixelClass (pixel : UInt8) : UInt8 := if pixel = 0 then 1 else if pixel = 255 then 16 else 2

/-- The inner loop of the classification. -/
def classifyRow (image : List UInt8) (width imageStride flagsStride : ℕ) (flags : List UInt8)
    (y : ℕ) : List UInt8 :=
  (List.range width).foldl (fun flags x =>
    flags.set (y * flagsStride + x) (pixelClass (image.getD (y * imageStride + x) 0))) flags

/-- The classes of all pixels, in a buffer of flags; dead pixels are marked last. -/
def classifyRawPixels (image : List UInt8) (width height imageStride : ℕ)
    (defective : List UInt16) (flags : List UInt8) (flagsStride : ℕ) : Option (List UInt8) :=
  if width = 0 ∨ height = 0 ∨ imageStride < width ∨ flagsStride < width ∨
      (2 ^ 64 - 1) / width < height ∨ (2 ^ 64 - 1) / imageStride < height ∨
      (2 ^ 64 - 1) / flagsStride < height then none
  else if defective.any fun index => decide (width * height ≤ index.toNat) then none
  else
    let classified := (List.range height).foldl
      (classifyRow image width imageStride flagsStride) flags
    some (defective.foldl (fun flags index =>
      flags.set (index.toNat / width * flagsStride + index.toNat % width) 4) classified)

/-- The stages that compute in floating point, and the tables of the extraction. -/
structure PrepareFloats (F S : Type) where
  pixels : PixelFloats F
  ofByte : UInt8 → F
  q6 : F → ℤ
  correctProjection : List ℤ → ℤ × List ℤ
  percentile : PercentileFloats
  enhance : List ℤ → List ℤ
  hessianOrientation : List UInt8 → ℤ × List UInt8
  coveragePercent : ℕ → ℤ
  hessianPlanes : List UInt8 → ℤ
  scores : List UInt8 → List S
  extract : ExtractFloats S
  kernel : List Int16
  weights : List Int16

/-- A prepared image. -/
structure PreparedImage (S : Type) where
  pixels : List UInt8
  mask : List UInt8
  preparedMask : List (BitVec 32)
  packedMask : List (BitVec 32)
  quality : ℤ
  filterReason : ℤ
  confidence : ℤ
  coverage : ℤ
  isFinger : Bool
  features : List (ExtractedFeature S)

/-- A pixel of the stretched image as a byte. -/
def pixelByte (v : ℤ) : UInt8 := ⟨word 8 (shiftFloor (v + 32) 6)⟩

/-- The valid pixels as bytes. -/
def validBytes (flags : List UInt8) : List UInt8 :=
  (List.range 9856).map fun i => if flags.getD i 0 &&& 14 != 0 then 255 else 0

/-- The bits of the valid pixels. -/
def preparedBits (flags : List UInt8) : List (BitVec 32) :=
  (List.range 9856).foldl (fun words i =>
    if flags.getD i 0 &&& 14 != 0 then putBit words (i / 112 * 128 + i % 112) 1#32 else words)
    noBits

/-- The confidence of the ridges, as a mean over the pixels of the mask. -/
def maskConfidence (mask confidence : List UInt8) (valid : ℕ) : ℕ :=
  (List.range 9856).foldl (fun sum i =>
    if mask.getD i 0 != 0 then sum + (confidence.getD i 0).toNat else sum) 0 / (valid + 1)

section Prepare

variable {F S : Type} [Inhabited S] (floats : PrepareFloats F S)

/-- What the extraction reads of an image and its mask. -/
def PrepareFloats.extractInput (fieldAllocated : Bool) (image mask : List UInt8) :
    ExtractInput S where
  image := image
  stride := 112
  mask := mask
  maskStride := 112
  weights := floats.weights
  hessianPlanes := floats.hessianPlanes image
  scores := floats.scores image
  kernel := floats.kernel
  fieldAllocated := fieldAllocated

/-- The stages after the mask has been found. -/
def prepareMasked (extractAllocated selectAllocated fieldAllocated : Bool) (reason : ℤ)
    (pixels : List UInt8) (prepared : List (BitVec 32))
    (masked : List UInt8 × List (BitVec 32) × ℕ) : Except ℤ (PreparedImage S) :=
  let orientation := floats.hessianOrientation pixels
  if orientation.1 ≠ 0 then .error orientation.1
  else
    let confidence := maskConfidence masked.1 orientation.2 masked.2.2
    let coverage := floats.coveragePercent masked.2.2
    match extractProfile300Prepared floats.extract.budget extractAllocated selectAllocated
        (extractStages floats.extract (floats.extractInput fieldAllocated pixels masked.1)) 112 112
        floats.weights.length 300 with
    | .error _ => .error (-1)
    | .ok extracted =>
        if extracted.status ≠ 0 then .error extracted.status
        else .ok
          { pixels := pixels, mask := masked.1, preparedMask := prepared, packedMask := masked.2.1
            quality := 100, filterReason := reason, confidence := confidence, coverage := coverage
            isFinger := decide (20 ≤ (confidence : ℤ) ∧ 30 ≤ coverage)
            features := extracted.features }

/-- The stages after the pixels have been corrected. -/
def prepareCorrected (extractAllocated selectAllocated fieldAllocated : Bool) (flags : List UInt8)
    (working : List F) : Except ℤ (PreparedImage S) :=
  let image := (List.range 9856).map fun i => floats.q6 (working.getD i floats.pixels.zero)
  let corrected := floats.correctProjection image
  let enhanced := floats.enhance (normalize floats.percentile corrected.2 flags false)
  let stretched := normalize floats.percentile enhanced flags true
  prepareMasked floats extractAllocated selectAllocated fieldAllocated corrected.1
    ((List.range 9856).map fun i => pixelByte (stretched.getD i 0)) (preparedBits flags)
    (captureMask (validBytes flags) noBits)

/-- The preparation; the flags say which buffers could be had. -/
def profile300Prepare (allocated extractAllocated selectAllocated fieldAllocated : Bool)
    (pixels : List UInt8) (dead : List UInt16) : Except ℤ (PreparedImage S) :=
  if pixels.length ≠ 9856 ∨ 560 < dead.length then .error (-1)
  else if !allocated then .error 2
  else
    match classifyRawPixels pixels 112 88 112 dead (List.replicate 9856 0) 112 with
    | none => .error (-1)
    | some flags =>
        let working := (List.range 9856).map fun i => floats.ofByte (pixels.getD i 0)
        -- mode 0 leaves the flags alone
        let defects := processRawPixelDefects floats.pixels 112 88 (0, working) working dead 0 560
          true
        if defects.1 ≠ 0 then .error defects.1
        else prepareCorrected floats extractAllocated selectAllocated fieldAllocated flags defects.2

end Prepare

/-- What enrollment and verification use of a prepared image. -/
def PreparedImage.capture {S : Type} (image : PreparedImage S) : PreparedCapture where
  quality := image.quality
  confidence := image.confidence
  coverage := image.coverage
  features := image.features.map fun feature =>
    ⟨feature.point.x, feature.point.y, feature.descriptor⟩

/-! ### Classes of pixels -/

section Classes

variable {image flags : List UInt8} {width height imageStride flagsStride : ℕ}

theorem eq_grid_iff {x y s j : ℕ} (hx : x < s) : j = y * s + x ↔ j / s = y ∧ j % s = x := by
  constructor
  · rintro rfl
    have hpos : 0 < s := by omega
    rw [Nat.mul_comm, Nat.mul_add_div hpos, Nat.mul_add_mod, Nat.div_eq_of_lt hx,
      Nat.mod_eq_of_lt hx]
    exact ⟨rfl, rfl⟩
  · rintro ⟨rfl, rfl⟩
    rw [Nat.mul_comm]
    exact (Nat.div_add_mod j s).symm

theorem classifyRow_getD (hstride : width ≤ flagsStride) {y : ℕ}
    (hend : (y + 1) * flagsStride ≤ flags.length) :
    (classifyRow image width imageStride flagsStride flags y).length = flags.length ∧
      ∀ j, (classifyRow image width imageStride flagsStride flags y).getD j 0 =
        if j / flagsStride = y ∧ j % flagsStride < width then
          pixelClass (image.getD (y * imageStride + j % flagsStride) 0)
        else flags.getD j 0 := by
  rw [classifyRow]
  refine Loops.foldl_range (fun n (s : List UInt8) => s.length = flags.length ∧ ∀ j, s.getD j 0 =
    if j / flagsStride = y ∧ j % flagsStride < n then
      pixelClass (image.getD (y * imageStride + j % flagsStride) 0) else flags.getD j 0)
    ⟨rfl, fun j => by simp⟩ ?_
  rintro x hx s ⟨hlength, hs⟩
  have hlt : y * flagsStride + x < s.length := by
    rw [Nat.succ_mul] at hend
    omega
  refine ⟨List.length_set.trans hlength, fun j => ?_⟩
  rw [Scans.getD_set hlt, hs j]
  by_cases hj : j = y * flagsStride + x
  · obtain ⟨hdiv, hmod⟩ := (eq_grid_iff (hx.trans_le hstride)).1 hj
    rw [if_pos hj, if_pos ⟨hdiv, by omega⟩, hmod]
  · have hkey : (j / flagsStride = y ∧ j % flagsStride < x + 1) ↔
        (j / flagsStride = y ∧ j % flagsStride < x) := by
      refine and_congr_right fun hdiv => ?_
      have hne : j % flagsStride ≠ x := fun hmod =>
        hj ((eq_grid_iff (hx.trans_le hstride)).2 ⟨hdiv, hmod⟩)
      omega
    rw [if_neg hj]
    simp only [hkey]

theorem classifyRows_getD (hstride : width ≤ flagsStride)
    (hend : height * flagsStride ≤ flags.length) :
    ((List.range height).foldl (classifyRow image width imageStride flagsStride) flags).length =
        flags.length ∧
      ∀ j, ((List.range height).foldl (classifyRow image width imageStride flagsStride)
          flags).getD j 0 =
        if j / flagsStride < height ∧ j % flagsStride < width then
          pixelClass (image.getD (j / flagsStride * imageStride + j % flagsStride) 0)
        else flags.getD j 0 := by
  refine Loops.foldl_range (fun n (s : List UInt8) => s.length = flags.length ∧ ∀ j, s.getD j 0 =
    if j / flagsStride < n ∧ j % flagsStride < width then
      pixelClass (image.getD (j / flagsStride * imageStride + j % flagsStride) 0)
    else flags.getD j 0) ⟨rfl, fun j => by simp⟩ ?_
  rintro y hy s ⟨hlength, hs⟩
  have hroom : (y + 1) * flagsStride ≤ s.length := by
    rw [hlength]
    exact (Nat.mul_le_mul_right _ hy).trans hend
  obtain ⟨hlength', hrow⟩ := @classifyRow_getD image s width imageStride flagsStride hstride y hroom
  refine ⟨hlength'.trans hlength, fun j => ?_⟩
  rw [hrow j, hs j]
  by_cases hj : j / flagsStride = y
  · rw [hj]
    simp
  · have hkey : j / flagsStride < y + 1 ↔ j / flagsStride < y := by omega
    simp [hj, hkey]

theorem foldl_mark (defective : List UInt16) (place : UInt16 → ℕ) {flags : List UInt8}
    (hplace : ∀ d ∈ defective, place d < flags.length) (j : ℕ) :
    (defective.foldl (fun flags index => flags.set (place index) 4) flags).getD j 0 =
      if ∃ d ∈ defective, j = place d then 4 else flags.getD j 0 := by
  induction defective generalizing flags with
  | nil => simp
  | cons d defective ih =>
      rw [List.foldl_cons, ih fun e he => by
        rw [List.length_set]
        exact hplace e (List.mem_cons_of_mem _ he)]
      rw [Scans.getD_set (hplace d List.mem_cons_self)]
      by_cases hd : j = place d
      · simp [hd]
      · simp [hd]

/-- **The class of every pixel**: dead pixels are marked, whatever they show. -/
theorem classifyRawPixels_getD {defective : List UInt16} {result : List UInt8}
    (hend : height * flagsStride ≤ flags.length)
    (h : classifyRawPixels image width height imageStride defective flags flagsStride =
      some result) {x y : ℕ} (hx : x < width) (hy : y < height) :
    result.getD (y * flagsStride + x) 0 =
      if ∃ d ∈ defective, d.toNat = y * width + x then 4
      else pixelClass (image.getD (y * imageStride + x) 0) := by
  rw [classifyRawPixels] at h
  split_ifs at h with hguard hdefective
  obtain rfl := Option.some.inj h
  have hstride : width ≤ flagsStride := by omega
  obtain ⟨hlength, hrows⟩ := @classifyRows_getD image flags width height imageStride flagsStride
    hstride hend
  have hin : ∀ d ∈ defective, d.toNat < width * height := by
    intro d hd
    by_contra hout
    exact hdefective (List.any_eq_true.2 ⟨d, hd, by simpa using not_lt.1 hout⟩)
  have hplace : ∀ d ∈ defective, d.toNat / width * flagsStride + d.toNat % width <
      ((List.range height).foldl (classifyRow image width imageStride flagsStride)
        flags).length := by
    intro d hd
    rw [hlength]
    refine lt_of_lt_of_le (grid_lt ?_ ?_) hend
    · exact (Nat.mod_lt _ (by omega)).trans_le hstride
    · exact Nat.div_lt_of_lt_mul (hin d hd)
  rw [foldl_mark defective _ hplace, hrows]
  have hdiv : (y * flagsStride + x) / flagsStride = y ∧ (y * flagsStride + x) % flagsStride = x :=
    (eq_grid_iff (hx.trans_le hstride)).1 rfl
  rw [hdiv.1, hdiv.2, if_pos (show y < height ∧ x < width from ⟨hy, hx⟩)]
  have hkey : (∃ d ∈ defective,
      y * flagsStride + x = d.toNat / width * flagsStride + d.toNat % width) ↔
      ∃ d ∈ defective, d.toNat = y * width + x := by
    refine exists_congr fun d => and_congr_right fun _ => ?_
    have hmod : d.toNat % width < flagsStride := (Nat.mod_lt _ (by omega)).trans_le hstride
    rw [eq_grid_iff hx]
    constructor
    · intro heq
      obtain ⟨hcol, hrow⟩ := grid_inj (hx.trans_le hstride) hmod heq
      exact ⟨hrow.symm, hcol.symm⟩
    · rintro ⟨hrow, hcol⟩
      rw [hrow, hcol]
  simp only [hkey]

end Classes

/-! ### What the preparation leaves behind -/

/-- The pixels that count as measured: those that are dead, which are replaced, and those that are
neither black nor white. -/
def Measurable (pixels : List UInt8) (dead : List UInt16) (i : ℕ) : Prop :=
  (∃ d ∈ dead, d.toNat = i) ∨ (pixels.getD i 0 ≠ 0 ∧ pixels.getD i 0 ≠ 255)

/-- A pixel is valid iff it counts as measured. -/
theorem valid_iff_measurable {pixels : List UInt8} {dead : List UInt16} {flags : List UInt8}
    (h : classifyRawPixels pixels 112 88 112 dead (List.replicate 9856 0) 112 = some flags) {i : ℕ}
    (hi : i < 9856) : (flags.getD i 0 &&& 14 != 0) = true ↔ Measurable pixels dead i := by
  have hroom : 88 * 112 ≤ (List.replicate 9856 (0 : UInt8)).length :=
    Nat.le_of_eq List.length_replicate.symm
  have hclass := @classifyRawPixels_getD pixels (List.replicate 9856 0) 112 88 112 112 dead flags
    hroom h (i % 112) (i / 112) (Nat.mod_lt i (by norm_num)) (by omega)
  rw [Nat.mul_comm, Nat.div_add_mod] at hclass
  rw [hclass, Measurable]
  by_cases hdead : ∃ d ∈ dead, d.toNat = i
  · rw [if_pos hdead]
    exact iff_of_true (by decide) (Or.inl hdead)
  · rw [if_neg hdead, or_iff_right hdead, pixelClass]
    generalize pixels.getD i 0 = pixel
    by_cases hblack : pixel = 0
    · subst hblack
      decide
    · by_cases hwhite : pixel = 255
      · subst hwhite
        decide
      · rw [if_neg hblack, if_neg hwhite]
        exact iff_of_true (by decide) ⟨hblack, hwhite⟩

/-- The packed bits are those of the valid pixels. -/
theorem maskBit_preparedBits (flags : List UInt8) {x y : ℕ} (hx : x < 128) (hy : y < 88) :
    maskBit (preparedBits flags) 128 x y = true ↔
      x < 112 ∧ (flags.getD (y * 112 + x) 0 &&& 14 != 0) = true := by
  have hstep : ∀ words : List (BitVec 32), ∀ i ∈ List.range 9856, words.length = 352 →
      (if flags.getD i 0 &&& 14 != 0 then putBit words (i / 112 * 128 + i % 112) 1#32
        else words).length = 352 ∧
      ∀ j, bitAt (if flags.getD i 0 &&& 14 != 0 then putBit words (i / 112 * 128 + i % 112) 1#32
        else words) j = (bitAt words j ||
          ((flags.getD i 0 &&& 14 != 0) && decide (j = i / 112 * 128 + i % 112))) := by
    intro words i hi hlen
    have hi := List.mem_range.1 hi
    by_cases hvalid : (flags.getD i 0 &&& 14 != 0) = true
    · rw [if_pos hvalid, hvalid]
      refine ⟨by rw [putBit_length, hlen], fun j => ?_⟩
      have hbit : IsBit (1#32) true := isBit_and_one (1#32)
      rw [bitAt_putBit (by norm_num) (by rw [hlen]; omega) hbit]
      simp
    · rw [if_neg hvalid, Bool.eq_false_iff.2 hvalid]
      exact ⟨hlen, fun j => by simp⟩
  obtain ⟨-, hbits⟩ := bitAt_foldl hstep noBits_length
  rw [maskBit, preparedBits, hbits, noBits, bitAt_replicate, Bool.false_or, List.any_eq_true]
  constructor
  · rintro ⟨i, hi, h⟩
    simp only [Bool.and_eq_true, decide_eq_true_eq] at h
    have hmod : i % 112 < 128 := by omega
    obtain ⟨rfl, rfl⟩ := grid_inj hx hmod h.2
    refine ⟨Nat.mod_lt i (by norm_num), ?_⟩
    rw [Nat.mul_comm, Nat.div_add_mod]
    exact h.1
  · rintro ⟨hlt, h⟩
    refine ⟨y * 112 + x, List.mem_range.2 (by omega), ?_⟩
    obtain ⟨hdiv, hmod⟩ := (@eq_grid_iff x y 112 (y * 112 + x) hlt).1 rfl
    simp only [hdiv, hmod, decide_true, Bool.and_true]
    exact h

/-- A sum of bytes over some of the first `n` numbers. -/
theorem foldl_bytes_le (p : ℕ → Bool) (f : ℕ → UInt8) (n : ℕ) :
    (List.range n).foldl (fun sum i => if p i then sum + (f i).toNat else sum) 0 ≤
      255 * ((List.range n).filter p).length := by
  induction n with
  | zero => exact le_rfl
  | succ n ih =>
      have hbyte := (f n).toNat_lt
      rw [Scans.foldl_range_succ, List.range_succ, List.filter_append, List.length_append]
      cases hp : p n
      · simpa [hp] using ih
      · simp only [hp, if_true, List.filter_cons_of_pos, List.filter_nil, List.length_singleton]
        omega

/-- **The confidence is a mean of bytes**, over one pixel more than the mask has. -/
theorem maskConfidence_le {mask : List UInt8} {valid : ℕ} (confidence : List UInt8)
    (hvalid : ((List.range 9856).filter fun i => mask.getD i 0 != 0).length = valid) :
    (0 : ℤ) ≤ maskConfidence mask confidence valid ∧
      (maskConfidence mask confidence valid : ℤ) ≤ 254 := by
  have hsum := foldl_bytes_le (fun i => mask.getD i 0 != 0) (fun i => confidence.getD i 0) 9856
  rw [hvalid] at hsum
  have hlt : 255 * valid < 255 * (valid + 1) := by omega
  have hle : maskConfidence mask confidence valid ≤ 254 :=
    Nat.le_of_lt_succ ((Nat.div_lt_iff_lt_mul (Nat.succ_pos valid)).2 (hsum.trans_lt hlt))
  exact ⟨Int.natCast_nonneg _, by omega⟩

/-- The count of a mask is the number of its pixels. -/
theorem captureMask_count {valid : List UInt8} (hvalid : valid.length = 9856) :
    ((List.range 9856).filter fun i => (captureMask valid noBits).1.getD i 0 != 0).length =
      (captureMask valid noBits).2.2 := by
  obtain ⟨-, -, hbytes, -, hcount⟩ := captureMask_spec hvalid noBits_length
  rw [hcount]
  refine congrArg List.length (List.filter_congr fun i hi => ?_)
  rw [hbytes i (List.mem_range.1 hi)]
  cases gridAt (captureGrid valid) (i / 112 + 6) (i % 112 + 6) <;> rfl

theorem validBytes_getD (flags : List UInt8) {i : ℕ} (hi : i < 9856) :
    (validBytes flags).getD i 0 = if flags.getD i 0 &&& 14 != 0 then 255 else 0 := by
  rw [validBytes, List.getD_eq_getElem?_getD, List.getElem?_map, List.getElem?_range hi,
    Option.map_some, Option.getD_some]

section Sound

variable {F S : Type} [Inhabited S] {floats : PrepareFloats F S}
variable {allocated extractAllocated selectAllocated fieldAllocated : Bool}
variable {pixels : List UInt8} {dead : List UInt16} {image : PreparedImage S}

/-- What is known of an image whose pixels have these classes. -/
structure PreparedFrom (flags : List UInt8) (image : PreparedImage S) : Prop where
  pixels : image.pixels.length = 9856
  mask : ∃ valid, captureMask (validBytes flags) noBits = (image.mask, image.packedMask, valid)
  prepared : image.preparedMask = preparedBits flags
  confidence : 0 ≤ image.confidence ∧ image.confidence ≤ 254
  few : image.features.length ≤ 300

/-- The last stages keep the pixels and the mask, and what they add is within its bounds. -/
theorem prepareMasked_ok {reason : ℤ} {bytes : List UInt8} {bits : List (BitVec 32)}
    {masked : List UInt8 × List (BitVec 32) × ℕ}
    (hcount : ((List.range 9856).filter fun i => masked.1.getD i 0 != 0).length = masked.2.2)
    (h : prepareMasked floats extractAllocated selectAllocated fieldAllocated reason bytes bits
      masked = .ok image) :
    image.pixels = bytes ∧ image.preparedMask = bits ∧
      masked = (image.mask, image.packedMask, masked.2.2) ∧
      (0 ≤ image.confidence ∧ image.confidence ≤ 254) ∧ image.features.length ≤ 300 := by
  rw [prepareMasked] at h
  dsimp only at h
  split at h
  · cases h
  split at h
  · cases h
  rename_i extracted hextracted
  split at h
  · cases h
  obtain rfl := Except.ok.inj h
  obtain ⟨r, hr, hfew, -⟩ := extractProfile300Prepared_le floats.extract.budget extractAllocated
    selectAllocated _ 112 112 floats.weights.length 300
  rw [hr] at hextracted
  obtain rfl := Except.ok.inj hextracted
  exact ⟨rfl, rfl, rfl, maskConfidence_le _ hcount, hfew⟩

theorem prepareCorrected_ok {flags : List UInt8} {working : List F}
    (h : prepareCorrected floats extractAllocated selectAllocated fieldAllocated flags working =
      .ok image) : PreparedFrom flags image := by
  have hlength (f : ℕ → UInt8) : ((List.range 9856).map f).length = 9856 := by
    rw [List.length_map, List.length_range]
  rw [prepareCorrected] at h
  obtain ⟨hpixels, hprepared, hmask, hconfidence, hfew⟩ :=
    prepareMasked_ok (@captureMask_count (validBytes flags) (hlength _)) h
  exact
    { pixels := by rw [hpixels, hlength]
      mask := ⟨_, hmask⟩
      prepared := hprepared
      confidence := hconfidence
      few := hfew }

theorem profile300Prepare_ok
    (h : profile300Prepare floats allocated extractAllocated selectAllocated fieldAllocated pixels
      dead = .ok image) :
    ∃ flags, classifyRawPixels pixels 112 88 112 dead (List.replicate 9856 0) 112 = some flags ∧
      PreparedFrom flags image := by
  rw [profile300Prepare] at h
  split at h
  · cases h
  split at h
  · cases h
  split at h
  · cases h
  rename_i flags hflags
  dsimp only at h
  split at h
  · cases h
  exact ⟨flags, hflags, prepareCorrected_ok h⟩

/-- **What is known of a prepared image.**  Its first packed mask has the pixels that count as
measured, its second one those of the mask that the features come from; where everything within ten
pixels was measured, the mask is set. -/
theorem profile300Prepare_sound
    (h : profile300Prepare floats allocated extractAllocated selectAllocated fieldAllocated pixels
      dead = .ok image) :
    image.pixels.length = 9856 ∧ image.features.length ≤ 300 ∧
    (0 ≤ image.confidence ∧ image.confidence ≤ 254) ∧
    (∀ y < 88, ∀ x < 128, maskBit image.preparedMask 128 x y = true ↔
      x < 112 ∧ Measurable pixels dead (y * 112 + x)) ∧
    (∀ y < 88, ∀ x < 128, maskBit image.packedMask 128 x y = true ↔
      x < 112 ∧ image.mask.getD (y * 112 + x) 0 ≠ 0) ∧
    ∀ (y : Fin 88) (x : Fin 112),
      (∀ (y' : Fin 88) (x' : Fin 112), (y : ℕ) ≤ y' + 10 → (y' : ℕ) ≤ y + 10 →
        (x : ℕ) ≤ x' + 10 → (x' : ℕ) ≤ x + 10 → Measurable pixels dead (y' * 112 + x')) →
      image.mask.getD (y * 112 + x) 0 = 255 := by
  obtain ⟨flags, hflags, hpixels, ⟨valid, hmask⟩, hprepared, hconfidence, hfew⟩ :=
    profile300Prepare_ok h
  have hlength : (validBytes flags).length = 9856 := by
    rw [validBytes, List.length_map, List.length_range]
  refine ⟨hpixels, hfew, hconfidence, ?_, ?_, ?_⟩
  · intro y hy x hx
    rw [hprepared, maskBit_preparedBits flags hx hy]
    exact and_congr_right fun hlt => valid_iff_measurable hflags (by omega)
  · intro y hy x hx
    obtain ⟨-, -, hbytes, hbits, -⟩ := captureMask_spec hlength noBits_length
    rw [hmask] at hbytes hbits
    obtain ⟨hdiv, hmod⟩ := (@eq_grid_iff x y 128 (y * 128 + x) hx).1 rfl
    have hbit := hbits (y * 128 + x)
    rw [noBits, bitAt_replicate, hdiv, hmod] at hbit
    rw [maskBit, hbit, or_iff_right Bool.false_ne_true]
    refine and_congr_right fun hlt => ?_
    obtain ⟨hdiv', hmod'⟩ := (@eq_grid_iff x y 112 (y * 112 + x) hlt).1 rfl
    have hplace : y * 112 + x < 9856 := by omega
    rw [and_iff_right hplace, hbytes _ hplace, hdiv', hmod']
    cases gridAt (captureGrid (validBytes flags)) (y + 6) (x + 6) <;> decide
  · intro y x hwindow
    have hkeeps := @captureMask_keeps (validBytes flags) noBits hlength noBits_length y x (by
      intro y' x' h₁ h₂ h₃ h₄
      have hplace : (y' : ℕ) * 112 + x' < 9856 := by omega
      rw [validBytes_getD _ hplace,
        if_pos ((valid_iff_measurable hflags hplace).2 (hwindow y' x' h₁ h₂ h₃ h₄))]
      decide)
    rwa [hmask] at hkeeps

omit [Inhabited S] in
/-- The capture of a prepared image can be matched. -/
theorem PreparedFrom.usable {flags : List UInt8} (h : PreparedFrom flags image) (enrolled : Bool)
    (fresh : ℕ) : ∃ capture, captureFromPrepared image.capture enrolled fresh = .ok capture ∧
      capture.view.Usable := by
  have hcount : image.capture.features.length ≤ 300 := by
    rw [PreparedImage.capture, List.length_map]
    exact h.few
  have hloaded := captureFromPrepared_total hcount enrolled fresh
  obtain ⟨-, -, hfits⟩ := captureFromPrepared_sound hloaded
  exact ⟨_, hloaded, ⟨hfits, rfl, rfl, rfl, hcount⟩⟩

/-- **Prepared images can always be matched.**  The captures of two of them can be written and
loaded, and the matcher has a result for what was loaded. -/
theorem preparedImages_match {other : PreparedImage S} {otherPixels : List UInt8}
    {otherDead : List UInt16}
    (h : profile300Prepare floats allocated extractAllocated selectAllocated fieldAllocated pixels
      dead = .ok image)
    (hother : profile300Prepare floats allocated extractAllocated selectAllocated fieldAllocated
      otherPixels otherDead = .ok other) (enrolled otherEnrolled : Bool) (fresh otherFresh : ℕ) :
    ∃ a b verified, captureFromPrepared image.capture enrolled fresh = .ok a ∧
      captureFromPrepared other.capture otherEnrolled otherFresh = .ok b ∧
      matchProfile300Captures a.view b.view (b.view.membership.getD []) 300 = some verified := by
  obtain ⟨flags, -, hprepared⟩ := profile300Prepare_ok h
  obtain ⟨otherFlags, -, hotherPrepared⟩ := profile300Prepare_ok hother
  obtain ⟨a, ha, husable⟩ := hprepared.usable enrolled fresh
  obtain ⟨b, hb, hotherUsable⟩ := hotherPrepared.usable otherEnrolled otherFresh
  have hmembership := hotherUsable.fits.membership rfl
  obtain ⟨verified, hverified⟩ := matchProfile300Captures_isSome husable hotherUsable
    hmembership.ge husable.few
  exact ⟨a, b, verified, ha, hb, hverified⟩

end Sound

/-! ### Images with a feature -/

/-- Scores with one maximum, in row 40 and column 50. -/
def peakScores : List ℕ := List.replicate 4530 0 ++ [5]

/-- Stages that leave the pixels as they are and find one maximum. -/
def peakFloats : PrepareFloats ℕ ℕ where
  pixels := ⟨0, (· + ·), (· / ·)⟩
  ofByte := fun b => b.toNat
  q6 := fun v => 64 * v
  correctProjection := fun image => (0, image)
  percentile := shareFloats
  enhance := id
  hessianOrientation := fun image => (0, image)
  coveragePercent := fun valid => valid / 100
  hessianPlanes := fun _ => 0
  scores := fun _ => peakScores
  extract := halfTurnFloats
  kernel := demoKernel
  weights := List.replicate 16384 0

theorem peakScores_getD (i : ℕ) : peakScores.getD i default = if i = 4530 then 5 else 0 := by
  rw [peakScores, List.getD_eq_getElem?_getD, List.getElem?_append, List.length_replicate]
  rcases lt_trichotomy i 4530 with hlt | rfl | hgt
  · rw [if_pos hlt, List.getElem?_replicate_of_lt hlt, if_neg hlt.ne]
    rfl
  · rw [if_neg (lt_irrefl _), Nat.sub_self]
    rfl
  · rw [if_neg hgt.not_gt, if_neg hgt.ne', List.getElem?_eq_none (by simp; omega)]
    rfl

/-- The maximum is found where the mask has it. -/
theorem selectFloatMaxima_peak {mask : List UInt8} (hmask : mask.getD 4530 0 ≠ 0) :
    selectFloatMaxima peakFloats.extract.lt peakScores 112 88 112 mask 112 4 2048 =
      .ok [⟨50, 40, 0, 5⟩] := by
  obtain ⟨points, hpoints⟩ : ∃ points, selectFloatMaxima peakFloats.extract.lt peakScores 112 88
      112 mask 112 4 2048 = .ok points := by
    rw [selectFloatMaxima, if_neg (by norm_num), if_neg (by norm_num)]
    exact ⟨_, rfl⟩
  have hlt : ∀ a b, peakFloats.extract.lt a b = true ↔ a < b := fun a b => decide_eq_true_iff
  obtain ⟨places, hmem, hsorted, -, hread⟩ := selectFloatMaxima_exact (fun a b hab hba =>
    absurd ((hlt a b).1 hab) ((hlt b a).1 hba).not_gt) hpoints
  have hin : (40, 50) ∈ places := by
    refine (hmem 40 50).2 ⟨by decide, hmask, ?_⟩
    rintro ⟨y, x⟩ ⟨hne, h₁, h₂, h₃, h₄⟩
    have hplace : y * 112 + x ≠ 4530 := by
      intro heq
      dsimp only at h₁ h₂ h₃ h₄
      exact hne (Prod.ext (show y = 40 by omega) (show x = 50 by omega))
    rw [peakScores_getD, peakScores_getD, if_neg hplace, hlt]
    decide
  have hall : ∀ q ∈ places, q = (40, 50) := by
    rintro ⟨y, x⟩ hq
    obtain ⟨⟨h₁, h₂, h₃, h₄⟩, -, hgreatest⟩ := (hmem y x).1 hq
    have hscore := hgreatest (y + 1, x) ⟨by simp [Prod.ext_iff], by simp,
      Nat.le_add_right_of_le (Nat.le_succ _), by simp, by simp⟩
    rw [hlt, peakScores_getD (y * 112 + x)] at hscore
    split_ifs at hscore with hplace
    · exact Prod.ext (show y = 40 by omega) (show x = 50 by omega)
    · exact absurd hscore (Nat.not_lt_zero _)
  have hone : places = [(40, 50)] := by
    cases places with
    | nil => cases hin
    | cons q rest =>
        obtain rfl := hall q List.mem_cons_self
        cases rest with
        | nil => rfl
        | cons r rest =>
            obtain rfl := hall r (List.mem_cons_of_mem _ List.mem_cons_self)
            have hapart := (List.pairwise_cons.1 hsorted).1 (40, 50) List.mem_cons_self
            omega
  rw [hone] at hread
  rw [hpoints, hread, List.map_singleton, peakScores_getD]
  rfl

/-- Without weights every sum is zero. -/
theorem projectBit_zero {weights : List Int16} (hweight : ∀ k, weights.getD k 0 = 0)
    (patch : List UInt8) (projections column : ℕ) :
    projectBit patch weights projections column = (0, 0) := by
  rw [projectBit]
  refine List.foldlRecOn (motive := fun sums => sums = (0, 0)) _ _ rfl ?_
  rintro sums rfl pixel -
  simp only [hweight]
  simp

/-- Without weights every descriptor is clear. -/
theorem fpcProjectDescriptor_zero {weights : List Int16} (hweight : ∀ k, weights.getD k 0 = 0)
    (hlength : weights.length = 16384) {patch : List UInt8} (hpatch : patch.length = 256) :
    fpcProjectDescriptor patch weights 16 = .ok (List.replicate 16 0) := by
  rw [fpcProjectDescriptor, if_neg (by rw [hpatch, hlength]; decide)]
  simp only [projectBit_zero hweight]
  rfl

theorem peakFloats_weights :
    peakFloats.weights.length = 16384 ∧ ∀ k, peakFloats.weights.getD k 0 = 0 := by
  refine ⟨List.length_replicate, fun k => ?_⟩
  rw [peakFloats, List.getD_eq_getElem?_getD, List.getElem?_replicate]
  split_ifs <;> rfl

/-- The maximum becomes the feature. -/
theorem extract_peak (image : List UInt8) {mask : List UInt8} (hmask : mask.getD 4530 0 ≠ 0) :
    ∃ degrees, extractProfile300Prepared peakFloats.extract.budget true true
      (extractStages peakFloats.extract (peakFloats.extractInput true image mask)) 112 112
        peakFloats.weights.length 300 =
          .ok ⟨0, some 1, [⟨⟨50, 40, 0, 5⟩, degrees, Vector.replicate 16 0⟩]⟩ := by
  obtain ⟨hweights, hclear⟩ := peakFloats_weights
  have hfield : (peakFloats.extractInput true image mask).field.isSome = true := by
    dsimp only [ExtractInput.field, PrepareFloats.extractInput]
    rw [buildOrientationField, if_neg (by decide)]
    dsimp only
    rw [if_neg (by decide), if_neg (by decide)]
    rfl
  have hpadded : (peakFloats.extractInput true image mask).padded.isSome = true := by
    dsimp only [ExtractInput.padded, PrepareFloats.extractInput]
    rw [padImageEdges, if_neg (by decide)]
    rfl
  obtain ⟨degrees, descriptor, hdescribe, ⟨-, -, patch, -, -, -, -, hpatch, -, hproject⟩⟩ :=
    @describeFeature_ok ℕ peakFloats.extract halfTurnFloats_rotates
      ((peakFloats.extractInput true image mask).field.getD [])
      ((peakFloats.extractInput true image mask).padded.getD []) peakFloats.weights hweights
      ⟨50, 40, 0, 5⟩ (by decide) (by decide)
  obtain rfl : descriptor = Vector.replicate 16 0 := by
    rw [← Vector.toList_inj]
    exact Except.ok.inj (hproject.symm.trans (fpcProjectDescriptor_zero hclear hweights hpatch))
  have hstage : (extractStages peakFloats.extract
      (peakFloats.extractInput true image mask)).selectFloatMaxima = (0, [⟨50, 40, 0, 5⟩]) := by
    rw [extractStages]
    dsimp only [PrepareFloats.extractInput]
    rw [show peakFloats.scores image = peakScores from rfl, selectFloatMaxima_peak hmask]
  have hdetect : detectStatus (extractStages peakFloats.extract
      (peakFloats.extractInput true image mask)) = 0 := by
    rw [detectStatus, hstage]
    rfl
  have hbudget : limitFeatureBudget peakFloats.extract.budget true [⟨50, 40, 0, 5⟩]
      [⟨1, 16384, 16384, 8, 8⟩] 112 88 300 2048 = .ok ⟨1, [⟨50, 40, 0, 5⟩], [1, 0]⟩ := by rfl
  have hprepare : prepareStatus (extractStages peakFloats.extract
      (peakFloats.extractInput true image mask)) [⟨50, 40, 0, 5⟩] = 0 := by
    rw [prepareStatus, extractStages]
    simp [hfield, hpadded]
  refine ⟨degrees, ?_⟩
  rw [extractProfile300Prepared, hweights, if_neg (by norm_num), if_neg (by decide),
    if_neg (not_not.2 hdetect), hstage]
  dsimp only [List.length_cons, List.length_nil]
  rw [hbudget]
  dsimp only
  rw [if_neg (not_not.2 hprepare)]
  have hdescribed : describeFeatures (extractStages peakFloats.extract
      (peakFloats.extractInput true image mask)).describe [⟨50, 40, 0, 5⟩] =
        (0, [⟨⟨50, 40, 0, 5⟩, degrees, Vector.replicate 16 0⟩]) := by
    rw [describeFeatures]
    dsimp only [extractStages]
    rw [show (peakFloats.extractInput true image mask).weights = peakFloats.weights from rfl,
      hdescribe]
    rfl
  rw [hdescribed]
  rfl

/-- The last stages find the feature where the mask has it. -/
theorem prepareMasked_peak (reason : ℤ) (pixels : List UInt8) (prepared : List (BitVec 32))
    {masked : List UInt8 × List (BitVec 32) × ℕ} (hmask : masked.1.getD 4530 0 ≠ 0) :
    ∃ image degrees, prepareMasked peakFloats true true true reason pixels prepared masked =
        .ok image ∧
      image.features = [⟨⟨50, 40, 0, 5⟩, degrees, Vector.replicate 16 0⟩] := by
  obtain ⟨degrees, hextract⟩ := extract_peak pixels hmask
  have horientation : (peakFloats.hessianOrientation pixels).1 = 0 := rfl
  rw [prepareMasked, if_neg (not_not.2 horientation), hextract]
  dsimp only
  rw [if_neg (by decide)]
  exact ⟨_, degrees, rfl, rfl⟩

/-- An even image with a black pixel and a white one. -/
def greyPixels (v : UInt8) : List UInt8 := 0 :: 255 :: List.replicate 9854 v

theorem greyPixels_getD (v : UInt8) {i : ℕ} (hlow : 2 ≤ i) (hhigh : i < 9856) :
    (greyPixels v).getD i 0 = v := by
  obtain ⟨j, rfl⟩ := Nat.exists_eq_add_of_le' hlow
  rw [greyPixels, List.getD_cons_succ, List.getD_cons_succ, List.getD_eq_getElem?_getD,
    List.getElem?_replicate_of_lt (by omega)]
  rfl

/-- **An image with dead, black, white and usable pixels is prepared, and has its feature.** -/
theorem prepared_grey {v : UInt8} (hv : v ≠ 0 ∧ v ≠ 255) {dead : List UInt16}
    (hfew : dead.length ≤ 560)
    (hin : (dead.any fun index => decide (112 * 88 ≤ index.toNat)) = false)
    (hdefects : (processRawPixelDefects peakFloats.pixels 112 88
      (0, (List.range 9856).map fun i => peakFloats.ofByte ((greyPixels v).getD i 0))
      ((List.range 9856).map fun i => peakFloats.ofByte ((greyPixels v).getD i 0)) dead 0 560
        true).1 = 0) :
    ∃ (image : PreparedImage ℕ) (degrees : ℕ),
      profile300Prepare peakFloats true true true true (greyPixels v) dead = .ok image ∧
        image.features = [⟨⟨50, 40, 0, 5⟩, degrees, Vector.replicate 16 0⟩] := by
  have hlength : (greyPixels v).length = 9856 := by
    rw [greyPixels, List.length_cons, List.length_cons, List.length_replicate]
  obtain ⟨flags, hflags⟩ : ∃ flags, classifyRawPixels (greyPixels v) 112 88 112 dead
      (List.replicate 9856 0) 112 = some flags := by
    rw [classifyRawPixels, if_neg (by norm_num), hin, if_neg Bool.false_ne_true]
    exact ⟨_, rfl⟩
  have hvalid : (validBytes flags).length = 9856 := by
    rw [validBytes, List.length_map, List.length_range]
  -- the surroundings of the feature are usable
  have hmask : (captureMask (validBytes flags) noBits).1.getD 4530 0 ≠ 0 := by
    obtain ⟨row, hrow⟩ : ∃ row : Fin 88, (row : ℕ) = 40 := ⟨⟨40, by norm_num⟩, rfl⟩
    obtain ⟨column, hcolumn⟩ : ∃ column : Fin 112, (column : ℕ) = 50 := ⟨⟨50, by norm_num⟩, rfl⟩
    have hkeeps := @captureMask_keeps (validBytes flags) noBits hvalid noBits_length row column (by
        intro y x hy _ hx _
        rw [hrow] at hy
        rw [hcolumn] at hx
        have hplace : (y : ℕ) * 112 + x < 9856 := by omega
        have husable : Measurable (greyPixels v) dead (y * 112 + x) := by
          refine .inr ?_
          rw [greyPixels_getD v (by omega) hplace]
          exact hv
        rw [validBytes_getD _ hplace, if_pos ((valid_iff_measurable hflags hplace).2 husable)]
        decide)
    rw [hrow, hcolumn] at hkeeps
    rw [hkeeps]
    decide
  obtain ⟨working, hworking⟩ : ∃ working, working =
      (List.range 9856).map fun i => peakFloats.ofByte ((greyPixels v).getD i 0) := ⟨_, rfl⟩
  rw [← hworking] at hdefects
  rw [profile300Prepare, if_neg (by omega), if_neg (by decide), hflags]
  dsimp only
  rw [← hworking, if_neg (not_not.2 hdefects), prepareCorrected]
  exact prepareMasked_peak _ _ _ hmask

/-- The two images of the demonstration, each with a dead pixel of its own. -/
theorem prepared_grey_images :
    (∃ (image : PreparedImage ℕ) (degrees : ℕ),
      profile300Prepare peakFloats true true true true (greyPixels 90) [113] = .ok image ∧
        image.features = [⟨⟨50, 40, 0, 5⟩, degrees, Vector.replicate 16 0⟩]) ∧
    ∃ (image : PreparedImage ℕ) (degrees : ℕ),
      profile300Prepare peakFloats true true true true (greyPixels 120) [226] = .ok image ∧
        image.features = [⟨⟨50, 40, 0, 5⟩, degrees, Vector.replicate 16 0⟩] :=
  ⟨prepared_grey (by decide) (by decide) (by decide) (by decide +kernel),
    prepared_grey (by decide) (by decide) (by decide) (by decide +kernel)⟩

theorem profile300Prepare_sound_grey : ∃ image : PreparedImage ℕ,
    profile300Prepare peakFloats true true true true (greyPixels 90) [113] = .ok image ∧
      image.features.length = 1 ∧ maskBit image.preparedMask 128 0 0 = false ∧
      maskBit image.preparedMask 128 1 1 = true ∧ maskBit image.packedMask 128 50 40 = true := by
  obtain ⟨⟨image, degrees, h, hfeatures⟩, -⟩ := prepared_grey_images
  obtain ⟨-, -, -, hprepared, hpacked, hkept⟩ := profile300Prepare_sound h
  obtain ⟨row, hrow⟩ : ∃ row : Fin 88, (row : ℕ) = 40 := ⟨⟨40, by norm_num⟩, rfl⟩
  obtain ⟨column, hcolumn⟩ : ∃ column : Fin 112, (column : ℕ) = 50 := ⟨⟨50, by norm_num⟩, rfl⟩
  have hmask := hkept row column fun y x hy _ hx _ => by
    rw [hrow] at hy
    rw [hcolumn] at hx
    refine .inr ?_
    rw [greyPixels_getD 90 (by omega) (by omega)]
    decide
  rw [hrow, hcolumn] at hmask
  refine ⟨image, h, by rw [hfeatures]; rfl, ?_, ?_, ?_⟩
  · rw [Bool.eq_false_iff, ne_eq, hprepared 0 (by norm_num) 0 (by norm_num)]
    rintro ⟨-, ⟨d, hd, hplace⟩ | ⟨hblack, -⟩⟩
    · obtain rfl := List.mem_singleton.1 hd
      exact absurd hplace (by decide)
    · exact hblack rfl
  · exact (hprepared 1 (by norm_num) 1 (by norm_num)).2
      ⟨by norm_num, .inl ⟨113, List.mem_singleton_self 113, rfl⟩⟩
  · refine (hpacked 40 (by norm_num) 50 (by norm_num)).2 ⟨by norm_num, ?_⟩
    rw [hmask]
    decide

/-- A capture with the one feature, and its match with another. -/
theorem match_peak :
    (matchProfile300Captures
      ((preparedView ⟨0, 0, 0, [⟨50, 40, Vector.replicate 16 0⟩]⟩ true).selected defaultFlags)
      ((preparedView ⟨0, 0, 0, [⟨50, 40, Vector.replicate 16 0⟩]⟩ false).selected defaultFlags)
      [0] 300).map VerifiedGeometry.pairs = some [⟨0, 0, 0, 0⟩] := by decide +kernel

theorem preparedImages_match_grey : ∃ (image other : PreparedImage ℕ) (a b : LoadedCapture)
    (verified : VerifiedGeometry),
    profile300Prepare peakFloats true true true true (greyPixels 90) [113] = .ok image ∧
      profile300Prepare peakFloats true true true true (greyPixels 120) [226] = .ok other ∧
      captureFromPrepared image.capture true 0 = .ok a ∧
      captureFromPrepared other.capture false 1 = .ok b ∧
      matchProfile300Captures a.view b.view (b.view.membership.getD []) 300 = some verified ∧
      verified.pairs = [⟨0, 0, 0, 0⟩] := by
  obtain ⟨⟨image, degrees, h, hfeatures⟩, other, degrees', hother, hfeatures'⟩ :=
    prepared_grey_images
  obtain ⟨a, b, verified, ha, hb, hverified⟩ := preparedImages_match h hother true false 0 1
  refine ⟨image, other, a, b, verified, h, hother, ha, hb, hverified, ?_⟩
  have hcapture : image.capture.features = [⟨50, 40, Vector.replicate 16 0⟩] := by
    rw [PreparedImage.capture, hfeatures]
    rfl
  have hcapture' : other.capture.features = [⟨50, 40, Vector.replicate 16 0⟩] := by
    rw [PreparedImage.capture, hfeatures']
    rfl
  -- a view has the features of its image and nothing else
  have hview (p : PreparedCapture) (enrolled : Bool) :
      preparedView p enrolled = preparedView ⟨0, 0, 0, p.features⟩ enrolled := rfl
  rw [captureFromPrepared_total (by rw [hcapture]; decide)] at ha
  rw [captureFromPrepared_total (by rw [hcapture']; decide)] at hb
  obtain rfl := Except.ok.inj ha
  obtain rfl := Except.ok.inj hb
  rw [hview image.capture, hview other.capture, hcapture, hcapture'] at hverified
  have hpairs := match_peak
  rw [show ([0] : List UInt8) = ((preparedView ⟨0, 0, 0, [⟨50, 40, Vector.replicate 16 0⟩]⟩
    false).selected defaultFlags).membership.getD [] from by decide, hverified] at hpairs
  exact Option.some.inj hpairs

end Fpc
