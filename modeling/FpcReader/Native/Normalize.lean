/-
**Stretching the contrast of an image.**

The preparation of an image stretches its contrast twice.  The first time the least and the greatest
valid pixel become black and white.  The second time the ends are taken from a histogram, so that a
few outliers do not decide: a small share of the valid pixels may lie below the lower end, and a
larger one above the upper end.

A pixel is mapped by a product of 32 bits that wraps, as the source keeps it.  How many pixels a
share amounts to is computed in single precision and is a parameter.

Main definitions:

* `Fpc.normalize` — the source's function;
* `Fpc.pixelBin`, `Fpc.percentileEnds` — the histogram of the valid pixels and its ends;
* `Fpc.rescalePixel` — how one pixel is mapped.

Main results:

* `Fpc.rescalePixel_mono` — between the ends the mapping keeps the order;
* `Fpc.percentileEnds_spec` — the ends leave out no more than the shares;
* `Fpc.normalize_stretches` — **what the contrast is after stretching**.
-/

import FpcReader.Lib.Histogram
import FpcReader.Lib.Words
import FpcReader.Native.GeometrySound

set_option relaxedAutoImplicit false
set_option autoImplicit false

namespace Fpc

open Histogram Words

/-! ### The source's function -/

/-- The pixels that the flags count as valid, in order. -/
def validPixels (image : List ℤ) (flags : List UInt8) : List ℤ :=
  ((List.range 9856).filter fun i => flags.getD i 0 &&& 14 != 0).map fun i => image.getD i 0

/-- The least and the greatest pixel. -/
def pixelExtremes (pixels : List ℤ) : ℤ × ℤ :=
  pixels.foldl (fun ends v =>
    (if v < ends.1 then v else ends.1, if ends.2 < v then v else ends.2)) (32767, -32768)

/-- The bin of a pixel among 512. -/
def pixelBin (minimum maximum v : ℤ) : ℕ :=
  let scale := if maximum = minimum then 1024 else 33488896 / (maximum - minimum)
  let bin := shiftFloor (scale * (v - minimum) + 32768) 16
  (if 511 < (if bin < 0 then 0 else bin) then 511 else if bin < 0 then 0 else bin).toNat

/-- How many pixels a share of the valid ones amounts to, below and above. -/
structure PercentileFloats where
  lower : ℕ → ℕ
  upper : ℕ → ℕ

/-- The ends of the window in the histogram; a scan that finds none leaves the histogram. -/
def percentileEnds (floats : PercentileFloats) (bins : List ℕ) : ℕ × ℤ :=
  let histogram := tally 512 bins
  (firstAbove (floats.lower bins.length) histogram 0,
    511 - firstAbove (floats.upper bins.length) histogram.reverse 0)

/-- The ends that the histogram gives, as pixels; `none` when there are none. -/
def percentileRange (floats : PercentileFloats) (minimum maximum : ℤ) (pixels : List ℤ) :
    Option (ℤ × ℤ) :=
  let ends := percentileEnds floats (pixels.map (pixelBin minimum maximum))
  if ends.1 = 512 ∨ ends.2 < 0 then none
  else
    let range := maximum - minimum
    let high := minimum + ends.2 * range / 511
    let low := minimum + ends.1 * range / 511
    some (if low < 0 then 0 else low, if 16320 < high then 16320 else high)

/-- A pixel is mapped; the product wraps and is shifted arithmetically. -/
def rescalePixel (minimum scale v : ℤ) : ℤ :=
  let value := shiftFloor (signedU32 (word 32 (v - minimum) * word 32 scale)) 8
  if 16320 < (if value < 0 then 0 else value) then 16320 else if value < 0 then 0 else value

/-- The image is mapped to the full range of brightness, if the ends differ. -/
def stretch (image : List ℤ) (minimum maximum : ℤ) : List ℤ :=
  if maximum ≤ minimum then image
  else image.map (rescalePixel minimum (4177920 / (maximum - minimum)))

/-- The contrast of an image is stretched, between its extremes or between percentiles. -/
def normalize (floats : PercentileFloats) (image : List ℤ) (flags : List UInt8)
    (percentile : Bool) : List ℤ :=
  let pixels := validPixels image flags
  let (minimum, maximum) := pixelExtremes pixels
  if pixels.length = 0 ∨ minimum = 32767 ∨ maximum = -32768 then image
  else if percentile then
    match percentileRange floats minimum maximum pixels with
    | none => image
    | some (low, high) => stretch image low high
  else stretch image minimum maximum

/-! ### One pixel -/

section Pixel

variable {minimum maximum v w : ℤ}

/-- Every mapped pixel lies in the range of brightness. -/
theorem rescalePixel_range (minimum scale v : ℤ) :
    0 ≤ rescalePixel minimum scale v ∧ rescalePixel minimum scale v ≤ 16320 := by
  rw [rescalePixel]
  split_ifs <;> omega

/-- Above the lower end, as far as the product does not wrap, a pixel is mapped to a share of the
scale, cut off at the full brightness. -/
theorem rescalePixel_eq {scale : ℤ} (hscale : 0 ≤ scale) (hv : minimum ≤ v)
    (hfit : (v - minimum) * scale < 2 ^ 31) :
    rescalePixel minimum scale v = min ((v - minimum) * scale / 256) 16320 := by
  have hpos : 0 ≤ (v - minimum) * scale := mul_nonneg (by omega) hscale
  have hword : signedU32 (word 32 (v - minimum) * word 32 scale) = (v - minimum) * scale := by
    rw [word_mul]
    exact signedU32_u32 (by omega) (by omega)
  have hshare : 0 ≤ (v - minimum) * scale / 256 := Int.ediv_nonneg hpos (by norm_num)
  rw [rescalePixel, hword, shiftFloor_eq]
  norm_num
  split_ifs <;> omega

/-- **Between the ends the mapping keeps the order.** -/
theorem rescalePixel_mono {scale : ℤ} (hscale : 0 ≤ scale) (hv : minimum ≤ v) (hvw : v ≤ w)
    (hfit : (w - minimum) * scale < 2 ^ 31) :
    rescalePixel minimum scale v ≤ rescalePixel minimum scale w := by
  have hle : (v - minimum) * scale ≤ (w - minimum) * scale :=
    mul_le_mul_of_nonneg_right (by omega) hscale
  rw [rescalePixel_eq hscale hv (by omega), rescalePixel_eq hscale (by omega) hfit]
  exact min_le_min_right _ (Int.ediv_le_ediv (by norm_num) hle)

/-- The products between the ends do not wrap. -/
theorem scale_fits (hlt : minimum < maximum) (hv : v ≤ maximum) :
    (v - minimum) * (4177920 / (maximum - minimum)) ≤ 4177920 := by
  have hscale : 0 ≤ 4177920 / (maximum - minimum) := Int.ediv_nonneg (by norm_num) (by omega)
  calc (v - minimum) * (4177920 / (maximum - minimum))
      ≤ (maximum - minimum) * (4177920 / (maximum - minimum)) :=
        mul_le_mul_of_nonneg_right (by omega) hscale
    _ ≤ 4177920 := Int.mul_ediv_self_le (by omega)

/-- The upper end becomes white, but for a rounding. -/
theorem rescalePixel_top (hlt : minimum < maximum) :
    16320 - (maximum - minimum) / 256 ≤
      rescalePixel minimum (4177920 / (maximum - minimum)) maximum + 1 := by
  have hfit := scale_fits hlt le_rfl
  have hmod := Int.emod_lt_of_pos 4177920 (by omega : 0 < maximum - minimum)
  have hdiv := Int.mul_ediv_add_emod 4177920 (maximum - minimum)
  rw [rescalePixel_eq (Int.ediv_nonneg (by norm_num) (by omega)) hlt.le (by omega)]
  omega

end Pixel

/-! ### The ends -/

theorem foldl_extremes (pixels : List ℤ) (ends : ℤ × ℤ) :
    (pixels.foldl (fun ends v =>
      (if v < ends.1 then v else ends.1, if ends.2 < v then v else ends.2)) ends).1 ≤ ends.1 ∧
    ends.2 ≤ (pixels.foldl (fun ends v =>
      (if v < ends.1 then v else ends.1, if ends.2 < v then v else ends.2)) ends).2 ∧
    ∀ v ∈ pixels,
      (pixels.foldl (fun ends v =>
        (if v < ends.1 then v else ends.1, if ends.2 < v then v else ends.2)) ends).1 ≤ v ∧
      v ≤ (pixels.foldl (fun ends v =>
        (if v < ends.1 then v else ends.1, if ends.2 < v then v else ends.2)) ends).2 := by
  induction pixels generalizing ends with
  | nil => exact ⟨le_rfl, le_rfl, by simp⟩
  | cons pixel pixels ih =>
      obtain ⟨hleast, hgreatest, hall⟩ :=
        ih (if pixel < ends.1 then pixel else ends.1, if ends.2 < pixel then pixel else ends.2)
      rw [List.foldl_cons]
      have hfirst : (if pixel < ends.1 then pixel else ends.1) ≤ ends.1 ∧
          (if pixel < ends.1 then pixel else ends.1) ≤ pixel := by
        split_ifs <;> omega
      have hsecond : ends.2 ≤ (if ends.2 < pixel then pixel else ends.2) ∧
          pixel ≤ (if ends.2 < pixel then pixel else ends.2) := by
        split_ifs <;> omega
      refine ⟨hleast.trans hfirst.1, hsecond.1.trans hgreatest, fun v hv => ?_⟩
      rcases List.mem_cons.1 hv with rfl | hv
      · exact ⟨hleast.trans hfirst.2, hsecond.2.trans hgreatest⟩
      · exact hall v hv

/-- The extremes bound every pixel. -/
theorem pixelExtremes_bound (pixels : List ℤ) :
    ∀ v ∈ pixels, (pixelExtremes pixels).1 ≤ v ∧ v ≤ (pixelExtremes pixels).2 :=
  (foldl_extremes pixels (32767, -32768)).2.2

theorem pixelBin_lt (minimum maximum v : ℤ) : pixelBin minimum maximum v < 512 := by
  rw [pixelBin]
  split_ifs <;> omega

/-- **The ends leave out no more than the shares**, and there is something between them. -/
theorem percentileEnds_spec {floats : PercentileFloats} {bins : List ℕ}
    (hshares : floats.lower bins.length + floats.upper bins.length < bins.length)
    (hbins : ∀ b ∈ bins, b < 512) :
    ∃ low high : ℕ, percentileEnds floats bins = (low, (high : ℤ)) ∧ low ≤ high ∧ high < 512 ∧
      bins.countP (· < low) ≤ floats.lower bins.length ∧
      floats.lower bins.length < bins.countP (· ≤ low) ∧
      bins.countP (high < ·) ≤ floats.upper bins.length ∧
      floats.upper bins.length < bins.countP (high ≤ ·) := by
  obtain ⟨hlow, hbelow, hreached⟩ :=
    @firstAbove_tally (floats.lower bins.length) 512 bins hbins (by omega)
  obtain ⟨hhigh, habove, hreached'⟩ :=
    @firstAbove_reverse (floats.upper bins.length) 512 bins hbins (by omega)
  have hwindow := window hbins hshares
  refine ⟨_, 512 - 1 - firstAbove (floats.upper bins.length) (tally 512 bins).reverse 0, ?_,
    hwindow, by omega, hbelow, hreached, habove, hreached'⟩
  rw [percentileEnds]
  refine Prod.ext rfl ?_
  dsimp only
  omega

/-- The pixels that lie in the window, in bins. -/
structure PercentileWindow (floats : PercentileFloats) (pixels : List ℤ) (low high : ℕ) : Prop where
  le : low ≤ high
  lt : high < 512
  below : pixels.countP (fun v =>
    pixelBin (pixelExtremes pixels).1 (pixelExtremes pixels).2 v < low) ≤
      floats.lower pixels.length
  reached : floats.lower pixels.length < pixels.countP fun v =>
    pixelBin (pixelExtremes pixels).1 (pixelExtremes pixels).2 v ≤ low
  above : pixels.countP (fun v =>
    high < pixelBin (pixelExtremes pixels).1 (pixelExtremes pixels).2 v) ≤
      floats.upper pixels.length
  reached' : floats.upper pixels.length < pixels.countP fun v =>
    high ≤ pixelBin (pixelExtremes pixels).1 (pixelExtremes pixels).2 v

/-- The pixel at an end of the window. -/
def windowPixel (pixels : List ℤ) (bin : ℕ) : ℤ :=
  (pixelExtremes pixels).1 + bin * ((pixelExtremes pixels).2 - (pixelExtremes pixels).1) / 511

theorem percentileRange_spec {floats : PercentileFloats} {pixels : List ℤ}
    (hshares : floats.lower pixels.length + floats.upper pixels.length < pixels.length) :
    ∃ low high : ℕ, PercentileWindow floats pixels low high ∧
      percentileRange floats (pixelExtremes pixels).1 (pixelExtremes pixels).2 pixels =
        some (max (windowPixel pixels low) 0, min (windowPixel pixels high) 16320) := by
  obtain ⟨low, high, hends, hle, hlt, hbelow, hreached, habove, hreached'⟩ :=
    @percentileEnds_spec floats
      (pixels.map (pixelBin (pixelExtremes pixels).1 (pixelExtremes pixels).2))
      (by rwa [List.length_map]) (by
        intro b hb
        obtain ⟨v, -, rfl⟩ := List.mem_map.1 hb
        exact pixelBin_lt _ _ v)
  rw [List.length_map] at hbelow hreached habove hreached'
  rw [List.countP_map] at hbelow hreached habove hreached'
  refine ⟨low, high, ⟨hle, hlt, hbelow, hreached, habove, hreached'⟩, ?_⟩
  have hguard : ¬(low = 512 ∨ (high : ℤ) < 0) := by omega
  rw [percentileRange, hends]
  dsimp only
  rw [if_neg hguard, windowPixel, windowPixel, max_comm, max_def, min_def]
  congr 2
  · split_ifs <;> omega
  · split_ifs <;> omega

/-- **What the contrast is after stretching between percentiles.**  There is a window of bins that
leaves out no more valid pixels than the shares, but would with one bin less at an end.  If the
pixels at its ends do not differ in the range of brightness, the image stays as it is; otherwise
every pixel is mapped into that range, the lower end to black, the upper end to white but for a
rounding, and what lies between in order. -/
theorem normalize_stretches {floats : PercentileFloats} {image : List ℤ} {flags : List UInt8}
    (hshares : floats.lower (validPixels image flags).length +
      floats.upper (validPixels image flags).length < (validPixels image flags).length)
    (hleast : (pixelExtremes (validPixels image flags)).1 ≠ 32767)
    (hgreatest : (pixelExtremes (validPixels image flags)).2 ≠ -32768) :
    ∃ low high : ℕ, PercentileWindow floats (validPixels image flags) low high ∧
      ∃ black white : ℤ, black = max (windowPixel (validPixels image flags) low) 0 ∧
        white = min (windowPixel (validPixels image flags) high) 16320 ∧
        (white ≤ black → normalize floats image flags true = image) ∧
        (black < white → ∃ f : ℤ → ℤ, normalize floats image flags true = image.map f ∧
          (∀ v, 0 ≤ f v ∧ f v ≤ 16320) ∧ f black = 0 ∧ 16256 ≤ f white ∧
          ∀ v w, black ≤ v → v ≤ w → w ≤ white → f v ≤ f w) := by
  obtain ⟨low, high, hwindow, hrange⟩ := percentileRange_spec hshares
  have hguard : ¬((validPixels image flags).length = 0 ∨
      (pixelExtremes (validPixels image flags)).1 = 32767 ∨
      (pixelExtremes (validPixels image flags)).2 = -32768) := by
    rintro (h | h | h)
    · omega
    · exact hleast h
    · exact hgreatest h
  have hnormalize : normalize floats image flags true =
      stretch image (max (windowPixel (validPixels image flags) low) 0)
        (min (windowPixel (validPixels image flags) high) 16320) := by
    rw [normalize]
    dsimp only
    rw [if_neg hguard, if_pos rfl, hrange]
  refine ⟨low, high, hwindow, _, _, rfl, rfl, ?_, ?_⟩
  · intro hflat
    rw [hnormalize, stretch, if_pos hflat]
  · rw [hnormalize]
    have hnonneg : 0 ≤ max (windowPixel (validPixels image flags) low) 0 := le_max_right _ _
    have hbounded : min (windowPixel (validPixels image flags) high) 16320 ≤ 16320 :=
      min_le_right _ _
    generalize max (windowPixel (validPixels image flags) low) 0 = black at *
    generalize min (windowPixel (validPixels image flags) high) 16320 = white at *
    intro hlt
    have hscale : 0 ≤ 4177920 / (white - black) := Int.ediv_nonneg (by norm_num) (by omega)
    refine ⟨rescalePixel black (4177920 / (white - black)), ?_,
      rescalePixel_range black _, ?_, ?_, ?_⟩
    · rw [stretch, if_neg (not_le.2 hlt)]
    · rw [rescalePixel_eq hscale le_rfl (by simp)]
      simp
    · have htop := rescalePixel_top hlt
      omega
    · intro v w hv hvw hw
      have hfit := scale_fits hlt hw
      exact rescalePixel_mono hscale hv hvw (by omega)

/-- One pixel in a thousand below, and one in a hundred above. -/
def shareFloats : PercentileFloats := ⟨fun n => n / 1000, fun n => n / 100⟩

/-- Every brightness once, all of them usable. -/
def rampImage : List ℤ := (List.range 9856).map fun i : ℕ => (i : ℤ)

def allUsable : List UInt8 := List.replicate 9856 2

theorem validPixels_ramp : validPixels rampImage allUsable = rampImage := by
  have hall : ((List.range 9856).filter fun i => allUsable.getD i 0 &&& 14 != 0) =
      List.range 9856 := by
    refine List.filter_eq_self.2 fun i hi => ?_
    rw [allUsable, List.getD_replicate _ (List.mem_range.1 hi)]
    rfl
  rw [validPixels, hall]
  refine List.map_congr_left fun i hi => ?_
  have hlt := List.mem_range.1 hi
  rw [rampImage, List.getD_eq_getElem _ _ (by simpa using hlt)]
  simp

theorem normalize_stretches_ramp :
    ∃ low high, PercentileWindow shareFloats (validPixels rampImage allUsable) low high := by
  have hlength : (validPixels rampImage allUsable).length = 9856 := by
    rw [validPixels_ramp, rampImage, List.length_map, List.length_range]
  have hbound := pixelExtremes_bound (validPixels rampImage allUsable) 5 (by
    rw [validPixels_ramp, rampImage]
    exact List.mem_map.2 ⟨5, List.mem_range.2 (by norm_num), rfl⟩)
  obtain ⟨low, high, hwindow, -⟩ := @normalize_stretches shareFloats rampImage allUsable
    (by rw [hlength]; decide) (by omega) (by omega)
  exact ⟨low, high, hwindow⟩

end Fpc
