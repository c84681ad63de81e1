/-
**Correcting defective pixels.**

The sensor comes with a list of defective pixels.  Each is replaced by the mean of the usable pixels
around it: first in a window of three, then of five if that has enough of them, then, near the
border, in larger windows; in mode four the corrected pixels are used in further passes to correct
what is left.  The corrections are written into the image they are computed from, entry by entry of
the list, and the list may name a pixel twice.

What makes the order of the list irrelevant is that a pass never reads a pixel it may write.  The
module says so by comparing the source's loops over the list with passes over the set of listed
pixels.  Sums and quotients of single-precision values are left opaque.

Main definitions:

* `Fpc.defectNeighborSum` — the usable pixels of a window, counted and summed in raster order;
* `Fpc.correctPass` — one pass over the list, for any of the four kinds;
* `Fpc.correctDefectivePixelsMode`, `Fpc.processRawPixelDefects` — the function;
* `Fpc.pixelPass`, `Fpc.pixelCorrection` — the same over a set of pixels.

Main results:

* `Fpc.defectNeighborSum_congr` — a sum depends on usable pixels only;
* `Fpc.correctPass_tracks` — **a pass over the list is a pass over the set**;
* `Fpc.correctDefectivePixelsMode_eq` — so is the whole correction;
* `Fpc.defects_order` — **the order of the list does not matter**.
-/

import FpcReader.Lib.Loops
import FpcReader.Lib.PackedBits

set_option relaxedAutoImplicit false
set_option autoImplicit false

namespace Fpc

/-! ### The source's functions -/

/-- The single-precision arithmetic of the correction. -/
structure PixelFloats (F : Type) where
  zero : F
  /-- `value + sum` -/
  add : F → F → F
  /-- `sum / (float)count` -/
  mean : F → ℕ → F

/-- How a pass treats an entry: the radius of its window, how many usable pixels it wants, which
pixels it leaves out, and what it marks a corrected entry with. -/
structure DefectRule where
  radius : ℕ
  accepts : ℕ → Bool
  skips : ℕ → Bool
  mark : UInt8

/-- The image, and for every entry of the list whether it has been corrected. -/
structure Defects (F : Type) where
  image : List F
  resolved : List UInt8

section Source

variable {F : Type} (floats : PixelFloats F) (width height : ℕ)

/-- The number of usable pixels of a window, and their sum. -/
def defectNeighborSum (image : List F) (excluded : List Bool) (index radius : ℕ) : ℕ × F :=
  let x := index % width
  let y := index / width
  let x0 := if radius < x then x - radius else 0
  let y0 := if radius < y then y - radius else 0
  let x1 := if x + radius < width then x + radius else width - 1
  let y1 := if y + radius < height then y + radius else height - 1
  (List.range' y0 (y1 + 1 - y0)).foldl (fun acc row =>
    (List.range' x0 (x1 + 1 - x0)).foldl (fun acc col =>
      let pixel := row * width + col
      if excluded.getD pixel false then acc
      else (acc.1 + 1, floats.add (image.getD pixel floats.zero) acc.2)) acc) (0, floats.zero)

/-- One entry of the list. -/
def correctOne (rule : DefectRule) (excluded : List Bool) (indices : List UInt16)
    (s : Defects F) (i : ℕ) : Defects F :=
  if s.resolved.getD i 0 ≠ 0 then s
  else
    let index := (indices.getD i 0).toNat
    if rule.skips index then s
    else
      let neighbors := defectNeighborSum floats width height s.image excluded index rule.radius
      if rule.accepts neighbors.1 then
        { image := s.image.set index (floats.mean neighbors.2 neighbors.1)
          resolved := s.resolved.set i rule.mark }
      else s

/-- One pass over the list. -/
def correctPass (rule : DefectRule) (excluded : List Bool) (indices : List UInt16)
    (s : Defects F) : Defects F :=
  (List.range indices.length).foldl (correctOne floats width height rule excluded indices) s

/-- A window of three wants one usable pixel, a window of five more than five. -/
def windowRule (window : ℕ) : DefectRule :=
  ⟨window / 2, fun n => decide (n ≠ 0) && (decide (window ≠ 5) || decide (5 < n)),
    fun _ => false, 1⟩

/-- Near the border one usable pixel is enough in windows of five and seven. -/
def borderRule (window : ℕ) : DefectRule :=
  ⟨window / 2, fun n => decide (n ≠ 0),
    fun index => decide (1 < index % width) && decide (index % width + 2 < width) &&
      decide (1 < index / width) && decide (index / width + 2 < height), 1⟩

/-- Propagation wants more than five usable pixels; what it corrects stays out until the next
pass. -/
def propagationRule : DefectRule := ⟨2, fun n => decide (5 < n), fun _ => false, 255⟩

/-- The pixels of the entries that are still to be corrected. -/
def excludedPixels (indices : List UInt16) (resolved : List UInt8) : List Bool :=
  (List.range indices.length).foldl (fun excluded i =>
    if resolved.getD i 0 = 0 then excluded.set (indices.getD i 0).toNat true else excluded)
    (List.replicate (width * height) false)

/-- Some entry is still to be corrected. -/
def unresolved (indices : List UInt16) (resolved : List UInt8) : Bool :=
  (List.range indices.length).any fun i => decide (resolved.getD i 0 = 0)

/-- The passes of mode four. -/
def propagate (indices : List UInt16) : ℕ → Defects F → Defects F
  | 0, s => s
  | passes + 1, s =>
      if !unresolved indices s.resolved then s
      else
        let excluded := excludedPixels width height indices s.resolved
        let s := correctPass floats width height propagationRule excluded indices s
        propagate indices passes
          { s with resolved := s.resolved.map fun mark => if mark = 255 then 1 else mark }

/-- The passes of every mode. -/
def correctWindows (indices : List UInt16) (s : Defects F) : Defects F :=
  -- the four passes leave out every listed pixel, corrected or not
  let excluded := excludedPixels width height indices s.resolved
  let s := correctPass floats width height (windowRule 3) excluded indices s
  let s := correctPass floats width height (windowRule 5) excluded indices s
  let s := correctPass floats width height (borderRule width height 5) excluded indices s
  correctPass floats width height (borderRule width height 7) excluded indices s

/-- The correction: its status, and the image it leaves. -/
def correctDefectivePixelsMode (image : List F) (indices : List UInt16)
    (maximumCount : UInt16) (requireAll : Bool) (mode : ℕ) : ℤ × List F :=
  if width = 0 ∨ height = 0 ∨ 2 ^ 31 - 1 < width ∨ 2 ^ 31 - 1 < height ∨
      (2 ^ 64 - 1) / width < height ∨ 65535 < indices.length then (-1, image)
  else if indices.any fun index => decide (width * height ≤ index.toNat) then (-1, image)
  else if indices.length = 0 then (0, image)
  else if requireAll ∧ maximumCount.toNat < indices.length then (1001, image)
  else
    -- the maximum count bounds the list above and the passes of mode four below
    let s := correctWindows floats width height indices
      ⟨image, List.replicate indices.length 0⟩
    let s := if mode = 4 then propagate floats width height indices maximumCount.toNat s else s
    (if requireAll && unresolved indices s.resolved then 1001 else 0, s.image)

/-- The dispatch; `saturated` is what modes one to three do. -/
def processRawPixelDefects (saturated : ℤ × List F) (image : List F) (indices : List UInt16)
    (mode : ℕ) (maximumCount : UInt16) (requireAll : Bool) : ℤ × List F :=
  if 4 < mode then (105, image)
  else if width = 0 ∨ height = 0 ∨ (2 ^ 64 - 1) / width < height ∨ 65535 < indices.length then
    (-1, image)
  else if indices.any fun index => decide (width * height ≤ index.toNat) then (-1, image)
  else if mode = 0 ∨ mode = 4 then
    correctDefectivePixelsMode floats width height image indices maximumCount requireAll mode
  else saturated

end Source

/-! ### Sums over a window -/

/-- The pixels of the window around a pixel, in raster order. -/
def windowPixels (width height index radius : ℕ) : List ℕ :=
  let x := index % width
  let y := index / width
  let x0 := if radius < x then x - radius else 0
  let y0 := if radius < y then y - radius else 0
  let x1 := if x + radius < width then x + radius else width - 1
  let y1 := if y + radius < height then y + radius else height - 1
  (List.range' y0 (y1 + 1 - y0)).flatMap fun row =>
    (List.range' x0 (x1 + 1 - x0)).map fun col => row * width + col

section Sums

variable {F : Type} (floats : PixelFloats F) {width height : ℕ}

/-- The sum of some pixels, added up one after the other. -/
def pixelSum (image : List F) (pixels : List ℕ) : F :=
  pixels.foldl (fun sum pixel => floats.add (image.getD pixel floats.zero) sum) floats.zero

/-- A sum over a window is the sum of its usable pixels. -/
theorem defectNeighborSum_eq (image : List F) (excluded : List Bool) (index radius : ℕ) :
    defectNeighborSum floats width height image excluded index radius =
      (((windowPixels width height index radius).filter fun p => !excluded.getD p false).length,
        pixelSum floats image
          ((windowPixels width height index radius).filter fun p => !excluded.getD p false)) := by
  have hfold : ∀ (pixels : List ℕ) (acc : ℕ × F),
      pixels.foldl (fun acc pixel => if excluded.getD pixel false then acc
        else (acc.1 + 1, floats.add (image.getD pixel floats.zero) acc.2)) acc =
      (acc.1 + (pixels.filter fun p => !excluded.getD p false).length,
        (pixels.filter fun p => !excluded.getD p false).foldl
          (fun sum pixel => floats.add (image.getD pixel floats.zero) sum) acc.2) := by
    intro pixels
    induction pixels with
    | nil => simp
    | cons p pixels ih =>
        intro acc
        rw [List.foldl_cons, ih, List.filter_cons]
        cases hp : excluded.getD p false with
        | true => simp only [if_true, Bool.not_true, Bool.false_eq_true, if_false]
        | false =>
            simp only [Bool.false_eq_true, if_false, Bool.not_false, if_true, List.length_cons,
              List.foldl_cons, Nat.add_assoc, Nat.add_comm 1]
  have hall := hfold (windowPixels width height index radius) (0, floats.zero)
  rw [Nat.zero_add] at hall
  rw [pixelSum, ← hall, defectNeighborSum, windowPixels, List.foldl_flatMap]
  simp only [List.foldl_map]

/-- **A sum depends on usable pixels only.** -/
theorem defectNeighborSum_congr (width height : ℕ) {image image' : List F} {excluded : List Bool}
    (h : ∀ p, excluded.getD p false = false →
      image.getD p floats.zero = image'.getD p floats.zero) (index radius : ℕ) :
    defectNeighborSum floats width height image excluded index radius =
      defectNeighborSum floats width height image' excluded index radius := by
  rw [defectNeighborSum_eq, defectNeighborSum_eq]
  congr 1
  have hfold : ∀ (pixels : List ℕ) (sum : F), (∀ p ∈ pixels, excluded.getD p false = false) →
      pixels.foldl (fun sum pixel => floats.add (image.getD pixel floats.zero) sum) sum =
        pixels.foldl (fun sum pixel => floats.add (image'.getD pixel floats.zero) sum) sum := by
    intro pixels
    induction pixels with
    | nil => exact fun _ _ => rfl
    | cons p pixels ih =>
        intro sum hp
        rw [List.foldl_cons, List.foldl_cons, h p (hp p List.mem_cons_self)]
        exact ih _ fun q hq => hp q (List.mem_cons_of_mem _ hq)
  refine hfold _ _ fun p hp => ?_
  simpa using (List.mem_filter.1 hp).2

end Sums

/-! ### Passes over the set of listed pixels -/

/-- The image, and for every pixel whether it has been corrected. -/
structure Pixels (F : Type) where
  image : List F
  resolved : ℕ → UInt8

/-- The pixel is on the list. -/
def listed (indices : List UInt16) (p : ℕ) : Bool := indices.any fun index => index.toNat = p

theorem listed_iff {indices : List UInt16} {p : ℕ} :
    listed indices p = true ↔ ∃ i, i < indices.length ∧ (indices.getD i 0).toNat = p := by
  rw [listed, List.any_eq_true]
  constructor
  · rintro ⟨index, hmem, hp⟩
    obtain ⟨i, hi, rfl⟩ := List.mem_iff_getElem.1 hmem
    exact ⟨i, hi, by rw [List.getD_eq_getElem _ _ hi]; simpa using hp⟩
  · rintro ⟨i, hi, hp⟩
    rw [List.getD_eq_getElem _ _ hi] at hp
    exact ⟨indices[i], List.getElem_mem hi, by simpa using hp⟩

section Set

variable {F : Type} (floats : PixelFloats F) (width height : ℕ)

/-- What a rule makes of a pixel. -/
def fillPixel (rule : DefectRule) (excluded : List Bool) (image : List F) (p : ℕ) : Option F :=
  let neighbors := defectNeighborSum floats width height image excluded p rule.radius
  if !rule.skips p && rule.accepts neighbors.1 then some (floats.mean neighbors.2 neighbors.1)
  else none

/-- A pixel of the set is open in a pass. -/
def openPixel (marks : ℕ → Bool) (s : Pixels F) (p : ℕ) : Bool :=
  marks p && decide (s.resolved p = 0)

/-- One pass over a set of pixels: all of them are computed from the image before the pass. -/
def pixelPass (rule : DefectRule) (excluded : List Bool) (marks : ℕ → Bool) (s : Pixels F) :
    Pixels F where
  image := s.image.mapIdx fun p old =>
    if openPixel marks s p then (fillPixel floats width height rule excluded s.image p).getD old
    else old
  resolved p :=
    if openPixel marks s p && (fillPixel floats width height rule excluded s.image p).isSome then
      rule.mark
    else s.resolved p

/-- The open pixels as an array. -/
def openPixels (marks : ℕ → Bool) (s : Pixels F) : List Bool :=
  (List.range (width * height)).map (openPixel marks s)

/-- The passes of mode four. -/
def pixelPropagate (marks : ℕ → Bool) : ℕ → Pixels F → Pixels F
  | 0, s => s
  | passes + 1, s =>
      if !(List.range (width * height)).any (openPixel marks s) then s
      else
        let s := pixelPass floats width height propagationRule (openPixels width height marks s)
          marks s
        pixelPropagate marks passes
          { s with resolved := fun p => if s.resolved p = 255 then 1 else s.resolved p }

/-- The passes of every mode. -/
def pixelWindows (marks : ℕ → Bool) (s : Pixels F) : Pixels F :=
  let excluded := openPixels width height marks s
  let s := pixelPass floats width height (windowRule 3) excluded marks s
  let s := pixelPass floats width height (windowRule 5) excluded marks s
  let s := pixelPass floats width height (borderRule width height 5) excluded marks s
  pixelPass floats width height (borderRule width height 7) excluded marks s

/-- The correction of a set of pixels. -/
def pixelCorrection (marks : ℕ → Bool) (maximumCount : ℕ) (mode : ℕ) (image : List F) :
    Pixels F :=
  let s := pixelWindows floats width height marks ⟨image, fun _ => 0⟩
  if mode = 4 then pixelPropagate floats width height marks maximumCount s else s

end Set

/-! ### The list and the set -/

/-- The entries of the list agree with what is known of their pixels. -/
structure Tracks {F : Type} (indices : List UInt16) (s : Defects F) (t : Pixels F) : Prop where
  image : s.image = t.image
  resolved : s.resolved = indices.map fun index => t.resolved index.toNat

section Tracking

variable {F : Type} (floats : PixelFloats F) {width height : ℕ} {indices : List UInt16}

theorem Tracks.getD {s : Defects F} {t : Pixels F} (h : Tracks indices s t) {i : ℕ}
    (hi : i < indices.length) :
    s.resolved.getD i 0 = t.resolved (indices.getD i 0).toNat := by
  rw [h.resolved, List.getD_eq_getElem _ _ (by simpa using hi), List.getElem_map,
    List.getD_eq_getElem _ _ hi]

/-- Marking pixel after pixel marks those pixels. -/
theorem foldl_set_true (indices : List UInt16) (marked : ℕ → Bool) (n : ℕ) (start : List Bool)
    (p : ℕ) :
    ((List.range n).foldl (fun excluded i =>
      if marked i then excluded.set (indices.getD i 0).toNat true else excluded) start).length =
        start.length ∧
      (((List.range n).foldl (fun excluded i =>
        if marked i then excluded.set (indices.getD i 0).toNat true else excluded) start).getD p
          false = true ↔
        start.getD p false = true ∨
          (p < start.length ∧ ∃ i < n, marked i = true ∧ (indices.getD i 0).toNat = p)) := by
  induction n with
  | zero => simp
  | succ n ih =>
      obtain ⟨hlen, hiff⟩ := ih
      rw [Scans.foldl_range_succ]
      cases hn : marked n with
      | false =>
          rw [if_neg Bool.false_ne_true]
          refine ⟨hlen, hiff.trans (or_congr_right (and_congr_right fun _ => ?_))⟩
          constructor
          · rintro ⟨i, hi, hmark, hp⟩
            exact ⟨i, by omega, hmark, hp⟩
          · rintro ⟨i, hi, hmark, hp⟩
            rcases Nat.lt_succ_iff_lt_or_eq.1 hi with hi | rfl
            · exact ⟨i, hi, hmark, hp⟩
            · rw [hn] at hmark
              cases hmark
      | true =>
          rw [if_pos rfl]
          refine ⟨by rw [List.length_set, hlen], ?_⟩
          rw [List.getD_eq_getElem?_getD, List.getElem?_set, hlen]
          by_cases hp : (indices.getD n 0).toNat = p
          · rw [if_pos hp, hp]
            by_cases hlt : p < start.length
            · rw [if_pos hlt]
              exact ⟨fun _ => Or.inr ⟨hlt, n, by omega, hn, hp⟩, fun _ => rfl⟩
            · rw [if_neg hlt]
              have hout : start.getD p false = false := List.getD_eq_default _ _ (by omega)
              rw [hout]
              exact ⟨fun h => by simp at h, fun h => by
                rcases h with h | ⟨h, -⟩
                · cases h
                · exact absurd h hlt⟩
          · rw [if_neg hp, ← List.getD_eq_getElem?_getD, hiff]
            refine or_congr_right (and_congr_right fun _ => ?_)
            constructor
            · rintro ⟨i, hi, hmark, hp'⟩
              exact ⟨i, by omega, hmark, hp'⟩
            · rintro ⟨i, hi, hmark, hp'⟩
              rcases Nat.lt_succ_iff_lt_or_eq.1 hi with hi | rfl
              · exact ⟨i, hi, hmark, hp'⟩
              · exact absurd hp' hp

/-- **The excluded pixels are the open ones**, however often the list names them. -/
theorem excludedPixels_eq {s : Defects F} {t : Pixels F} (h : Tracks indices s t) :
    excludedPixels width height indices s.resolved =
      openPixels width height (listed indices) t := by
  have hfold := foldl_set_true indices (fun i => decide (s.resolved.getD i 0 = 0))
    indices.length (List.replicate (width * height) false)
  have hsame : excludedPixels width height indices s.resolved =
      (List.range indices.length).foldl (fun excluded i =>
        if decide (s.resolved.getD i 0 = 0) = true then
          excluded.set (indices.getD i 0).toNat true
        else excluded) (List.replicate (width * height) false) := by
    simp only [excludedPixels, decide_eq_true_eq]
  have hlen := (hfold 0).1
  rw [← hsame, List.length_replicate] at hlen
  refine List.ext_getElem (by simp [openPixels, hlen]) ?_
  intro p h1 h2
  have hp : p < width * height := by omega
  have hiff := (hfold p).2
  rw [← hsame, List.getD_eq_getElem _ _ h1, List.length_replicate] at hiff
  have hstart : (List.replicate (width * height) false).getD p false = false := by
    rw [List.getD_eq_getElem?_getD, List.getElem?_replicate]
    split_ifs
    rfl
  rw [Bool.eq_iff_iff, hiff, hstart]
  simp only [openPixels, List.getElem_map, List.getElem_range, openPixel, Bool.and_eq_true,
    decide_eq_true_eq, Bool.false_eq_true, false_or, listed_iff]
  constructor
  · rintro ⟨-, i, hi, hzero, hpi⟩
    refine ⟨⟨i, hi, hpi⟩, ?_⟩
    rw [← hpi, ← h.getD hi]
    exact hzero
  · rintro ⟨⟨i, hi, hpi⟩, hzero⟩
    refine ⟨hp, i, hi, ?_, hpi⟩
    rw [h.getD hi, hpi]
    exact hzero

/-- Some entry is open exactly when some pixel is. -/
theorem unresolved_eq {s : Defects F} {t : Pixels F} (h : Tracks indices s t)
    (hin : ∀ index ∈ indices, index.toNat < width * height) :
    unresolved indices s.resolved =
      (List.range (width * height)).any (openPixel (listed indices) t) := by
  rw [Bool.eq_iff_iff, unresolved, List.any_eq_true, List.any_eq_true]
  simp only [List.mem_range, openPixel, Bool.and_eq_true, decide_eq_true_eq, listed_iff]
  constructor
  · rintro ⟨i, hi, hzero⟩
    refine ⟨(indices.getD i 0).toNat, ?_, ⟨i, hi, rfl⟩, by rw [← h.getD hi]; exact hzero⟩
    rw [List.getD_eq_getElem _ _ hi]
    exact hin _ (List.getElem_mem hi)
  · rintro ⟨p, -, ⟨i, hi, rfl⟩, hzero⟩
    exact ⟨i, hi, by rw [h.getD hi]; exact hzero⟩

theorem pixelPass_image (rule : DefectRule) (excluded : List Bool) (marks : ℕ → Bool)
    (t : Pixels F) (p : ℕ) :
    (pixelPass floats width height rule excluded marks t).image[p]? =
      t.image[p]?.map fun old =>
        if openPixel marks t p then
          (fillPixel floats width height rule excluded t.image p).getD old
        else old := by
  rw [pixelPass]
  exact List.getElem?_mapIdx

/-- A pass leaves the pixels alone that are not open. -/
theorem pixelPass_image_of_closed {rule : DefectRule} {excluded : List Bool} {marks : ℕ → Bool}
    {t : Pixels F} {p : ℕ} (h : openPixel marks t p = false) :
    (pixelPass floats width height rule excluded marks t).image[p]? = t.image[p]? := by
  rw [pixelPass_image]
  simp [h]

/-- The pass over the list after its first `i` entries. -/
structure PassUpTo (width height : ℕ) (rule : DefectRule) (excluded : List Bool)
    (indices : List UInt16) (t : Pixels F) (i : ℕ) (s : Defects F) : Prop where
  image : s.image = (pixelPass floats width height rule excluded (listed (indices.take i)) t).image
  length : s.resolved.length = indices.length
  resolved : ∀ j < indices.length, s.resolved.getD j 0 =
    if j < i then
      (pixelPass floats width height rule excluded (listed indices) t).resolved
        (indices.getD j 0).toNat
    else t.resolved (indices.getD j 0).toNat

theorem listed_take_succ {i : ℕ} (hi : i < indices.length) (p : ℕ) :
    listed (indices.take (i + 1)) p =
      (listed (indices.take i) p || decide ((indices.getD i 0).toNat = p)) := by
  rw [List.take_succ_eq_append_getElem hi, listed, List.any_append, List.getD_eq_getElem _ _ hi]
  simp [listed]

/-- What a rule makes of a pixel does not depend on the pixels corrected before. -/
theorem fillPixel_congr (width height : ℕ) (rule : DefectRule) {excluded : List Bool}
    {image image' : List F}
    (h : ∀ p, excluded.getD p false = false → image[p]? = image'[p]?) (p : ℕ) :
    fillPixel floats width height rule excluded image p =
      fillPixel floats width height rule excluded image' p := by
  have hsum := defectNeighborSum_congr floats width height
    (fun q hq => by rw [List.getD_eq_getElem?_getD, List.getD_eq_getElem?_getD, h q hq] :
      ∀ q, excluded.getD q false = false →
        image.getD q floats.zero = image'.getD q floats.zero) p rule.radius
  rw [fillPixel, fillPixel, hsum]

section Entry

variable {rule : DefectRule} {excluded : List Bool} {t : Pixels F}

/-- An entry is corrected when it is open and the rule makes something of its pixel. -/
theorem correctOne_eq (s : Defects F) (i : ℕ) :
    correctOne floats width height rule excluded indices s i =
      if s.resolved.getD i 0 = 0 then
        match fillPixel floats width height rule excluded s.image (indices.getD i 0).toNat with
        | none => s
        | some value =>
            { image := s.image.set (indices.getD i 0).toNat value
              resolved := s.resolved.set i rule.mark }
      else s := by
  rw [correctOne, fillPixel]
  by_cases hzero : s.resolved.getD i 0 = 0
  · rw [if_neg (not_not.2 hzero), if_pos hzero]
    dsimp only
    cases hskip : rule.skips (indices.getD i 0).toNat with
    | true => simp
    | false =>
        cases haccept : rule.accepts (defectNeighborSum floats width height s.image excluded
            (indices.getD i 0).toNat rule.radius).1 with
        | true => simp
        | false => simp
  · rw [if_pos hzero, if_neg hzero]

/-- What a pass reads it has not written. -/
theorem PassUpTo.reads {i : ℕ} {s : Defects F}
    (h : PassUpTo floats width height rule excluded indices t i s)
    (hcover : ∀ p, openPixel (listed indices) t p = true → excluded.getD p false = true) {p : ℕ}
    (hp : excluded.getD p false = false) : s.image[p]? = t.image[p]? := by
  rw [h.image]
  refine pixelPass_image_of_closed floats ?_
  by_contra hopen
  rw [Bool.not_eq_false, openPixel, Bool.and_eq_true] at hopen
  obtain ⟨j, hj, hjp⟩ := listed_iff.1 hopen.1
  have hj' := hj
  rw [List.length_take] at hj'
  have hfull : openPixel (listed indices) t p = true := by
    rw [openPixel, hopen.2, Bool.and_true]
    refine listed_iff.2 ⟨j, by omega, ?_⟩
    rw [← hjp, List.getD_eq_getElem _ _ (by omega), List.getD_eq_getElem _ _ hj,
      List.getElem_take]
  rw [hcover p hfull] at hp
  cases hp

/-- Entry `i` decides its own pixel and its own mark. -/
theorem PassUpTo.decided {i : ℕ} {s s' : Defects F}
    (h : PassUpTo floats width height rule excluded indices t i s)
    (hi : i < indices.length) (hlength : s'.resolved.length = s.resolved.length)
    (hothers : ∀ p, p ≠ (indices.getD i 0).toNat → s'.image[p]? = s.image[p]?)
    (hmarks : ∀ j, j ≠ i → s'.resolved.getD j 0 = s.resolved.getD j 0)
    (hpixel : s'.image[(indices.getD i 0).toNat]? =
      (pixelPass floats width height rule excluded (listed (indices.take (i + 1)))
        t).image[(indices.getD i 0).toNat]?)
    (hmark : s'.resolved.getD i 0 =
      (pixelPass floats width height rule excluded (listed indices) t).resolved
        (indices.getD i 0).toNat) :
    PassUpTo floats width height rule excluded indices t (i + 1) s' := by
  refine ⟨List.ext_getElem? fun p => ?_, hlength.trans h.length, fun j hj => ?_⟩
  · by_cases hp : p = (indices.getD i 0).toNat
    · rw [hp, hpixel]
    · have hlisted : listed (indices.take (i + 1)) p = listed (indices.take i) p := by
        rw [listed_take_succ hi, decide_eq_false (Ne.symm hp), Bool.or_false]
      rw [hothers p hp, h.image, pixelPass_image, pixelPass_image, openPixel, openPixel, hlisted]
  · by_cases hji : j = i
    · rw [hji, if_pos (Nat.lt_succ_self i), hmark]
    · have hiff : j < i + 1 ↔ j < i := by omega
      rw [hmarks j hji, h.resolved j hj]
      simp only [hiff]

/-- One entry. -/
theorem PassUpTo.next {i : ℕ} {s : Defects F}
    (h : PassUpTo floats width height rule excluded indices t i s)
    (hi : i < indices.length) (hin : (indices.getD i 0).toNat < t.image.length)
    (hcover : ∀ p, openPixel (listed indices) t p = true → excluded.getD p false = true) :
    PassUpTo floats width height rule excluded indices t (i + 1)
      (correctOne floats width height rule excluded indices s i) := by
  have hread : ∀ p, excluded.getD p false = false → s.image[p]? = t.image[p]? :=
    fun p hp => h.reads floats hcover hp
  have hlen : s.image.length = t.image.length := by
    rw [h.image, pixelPass, List.length_mapIdx]
  have hentry : s.resolved.getD i 0 = t.resolved (indices.getD i 0).toNat := by
    rw [h.resolved i hi, if_neg (lt_irrefl i)]
  have hlisted : listed indices (indices.getD i 0).toNat = true := listed_iff.2 ⟨i, hi, rfl⟩
  have htaken : listed (indices.take (i + 1)) (indices.getD i 0).toNat = true := by
    rw [listed_take_succ hi, decide_eq_true rfl, Bool.or_true]
  have hold : s.image[(indices.getD i 0).toNat]? =
      (pixelPass floats width height rule excluded (listed (indices.take i))
        t).image[(indices.getD i 0).toNat]? := by rw [h.image]
  rw [correctOne_eq, hentry]
  have hfill := fillPixel_congr floats width height rule hread
    (indices.getD i 0).toNat
  -- a duplicate is open as well, and computes the same value as the entry before it
  by_cases hzero : t.resolved (indices.getD i 0).toNat = 0
  · have hopen : openPixel (listed indices) t (indices.getD i 0).toNat = true := by
      rw [openPixel, hlisted, hzero]
      rfl
    have hopen' : openPixel (listed (indices.take (i + 1))) t (indices.getD i 0).toNat = true := by
      rw [openPixel, htaken, hzero]
      rfl
    rw [if_pos hzero, hfill]
    cases hv : fillPixel floats width height rule excluded t.image (indices.getD i 0).toNat with
    | none =>
        refine h.decided floats hi rfl (fun _ _ => rfl) (fun _ _ => rfl) ?_ ?_
        · rw [hold, pixelPass_image, pixelPass_image, hv]
          simp
        · simp only [hentry, pixelPass, hv, Option.isSome_none, Bool.and_false,
            Bool.false_eq_true, if_false]
    | some value =>
        refine h.decided floats hi (by simp) (fun p hp => List.getElem?_set_ne (Ne.symm hp))
          (fun j hj => ?_) ?_ ?_
        · rw [List.getD_eq_getElem?_getD, List.getElem?_set_ne (Ne.symm hj),
            ← List.getD_eq_getElem?_getD]
        · rw [List.getElem?_set_self (by omega), pixelPass_image, hopen', hv,
            List.getElem?_eq_getElem hin]
          simp
        · have hfits : i < s.resolved.length := by rw [h.length]; exact hi
          rw [List.getD_eq_getElem _ _ (by simpa using hfits), List.getElem_set_self]
          simp only [pixelPass, hopen, hv, Option.isSome_some, Bool.and_true, if_true]
  · have hclosed : ∀ marks, openPixel marks t (indices.getD i 0).toNat = false := by
      intro marks
      rw [openPixel, decide_eq_false hzero, Bool.and_false]
    rw [if_neg hzero]
    refine h.decided floats hi rfl (fun _ _ => rfl) (fun _ _ => rfl) ?_ ?_
    · rw [hold, pixelPass_image_of_closed floats (hclosed _),
        pixelPass_image_of_closed floats (hclosed _)]
    · simp only [hentry, pixelPass, hclosed, Bool.false_and, Bool.false_eq_true, if_false]

/-- **A pass over the list is a pass over the set**: every entry does what its pixel asks for,
whatever has been corrected before it. -/
theorem correctPass_tracks (width height : ℕ) (rule : DefectRule) {s : Defects F}
    (h : Tracks indices s t)
    (hin : ∀ index ∈ indices, index.toNat < t.image.length)
    (hcover : ∀ p, openPixel (listed indices) t p = true → excluded.getD p false = true) :
    Tracks indices (correctPass floats width height rule excluded indices s)
      (pixelPass floats width height rule excluded (listed indices) t) := by
  have hstart : PassUpTo floats width height rule excluded indices t 0 s := by
    refine ⟨List.ext_getElem? fun p => ?_, by rw [h.resolved, List.length_map], fun j hj => ?_⟩
    · rw [pixelPass_image_of_closed floats rfl, h.image]
    · rw [if_neg (Nat.not_lt_zero j), h.getD hj]
  have hrun : PassUpTo floats width height rule excluded indices t indices.length
      (correctPass floats width height rule excluded indices s) := Loops.foldl_range
    (fun i s => PassUpTo floats width height rule excluded indices t i s) hstart
    (fun i hi s hs => hs.next floats hi (by
      rw [List.getD_eq_getElem _ _ hi]
      exact hin _ (List.getElem_mem hi)) hcover)
  have htake : indices.take indices.length = indices := List.take_length
  refine ⟨?_, List.ext_getElem (by rw [List.length_map]; exact hrun.length) fun j h1 h2 => ?_⟩
  · have himage := hrun.image
    rw [htake] at himage
    exact himage
  · have hj : j < indices.length := by simpa using h2
    have hvalue := hrun.resolved j hj
    rw [if_pos hj, List.getD_eq_getElem _ _ h1, List.getD_eq_getElem _ _ hj] at hvalue
    rw [List.getElem_map]
    exact hvalue

end Entry

end Tracking

/-! ### The whole correction -/

section Correction

variable {F : Type} (floats : PixelFloats F) {width height : ℕ} {indices : List UInt16}

/-- A pass opens no pixel. -/
theorem openPixel_of_pass {rule : DefectRule} {excluded : List Bool} {marks : ℕ → Bool}
    {t : Pixels F} (hmark : rule.mark ≠ 0) {p : ℕ}
    (h : openPixel marks (pixelPass floats width height rule excluded marks t) p = true) :
    openPixel marks t p = true := by
  simp only [openPixel, pixelPass, Bool.and_eq_true, decide_eq_true_eq] at h ⊢
  refine ⟨h.1, ?_⟩
  have hzero := h.2
  split_ifs at hzero
  · exact absurd hzero hmark
  · exact hzero

@[simp] theorem pixelPass_image_length (rule : DefectRule) (excluded : List Bool)
    (marks : ℕ → Bool) (t : Pixels F) :
    (pixelPass floats width height rule excluded marks t).image.length = t.image.length := by
  simp [pixelPass]

theorem openPixels_getD {marks : ℕ → Bool} {t : Pixels F} {p : ℕ} (hp : p < width * height) :
    (openPixels width height marks t).getD p false = openPixel marks t p := by
  rw [List.getD_eq_getElem _ _ (by simpa [openPixels] using hp)]
  simp [openPixels]

theorem listed_lt (hin : ∀ index ∈ indices, index.toNat < width * height) {p : ℕ}
    (hp : listed indices p = true) : p < width * height := by
  obtain ⟨i, hi, rfl⟩ := listed_iff.1 hp
  rw [List.getD_eq_getElem _ _ hi]
  exact hin _ (List.getElem_mem hi)

/-- The open pixels are excluded when the excluded pixels have been found. -/
theorem openPixel_excluded (hin : ∀ index ∈ indices, index.toNat < width * height) {t : Pixels F}
    {p : ℕ} (hp : openPixel (listed indices) t p = true) :
    (openPixels width height (listed indices) t).getD p false = true := by
  rw [openPixels_getD]
  · exact hp
  · rw [openPixel, Bool.and_eq_true] at hp
    exact listed_lt hin hp.1

/-- The list and the set agree, and what may still be written is excluded from what is read. -/
structure Covered (indices : List UInt16) (excluded : List Bool) (s : Defects F) (t : Pixels F) :
    Prop where
  tracks : Tracks indices s t
  fits : ∀ index ∈ indices, index.toNat < t.image.length
  cover : ∀ p, openPixel (listed indices) t p = true → excluded.getD p false = true

/-- A pass keeps them so. -/
theorem Covered.pass {excluded : List Bool} {s : Defects F} {t : Pixels F}
    (h : Covered indices excluded s t) (width height : ℕ) (rule : DefectRule)
    (hmark : rule.mark ≠ 0) :
    Covered indices excluded (correctPass floats width height rule excluded indices s)
      (pixelPass floats width height rule excluded (listed indices) t) :=
  ⟨correctPass_tracks floats width height rule h.tracks h.fits h.cover,
    fun index hi => by rw [pixelPass_image_length]; exact h.fits index hi,
    fun p hp => h.cover p (openPixel_of_pass floats hmark hp)⟩

theorem Tracks.covered {s : Defects F} {t : Pixels F} (h : Tracks indices s t)
    (hin : ∀ index ∈ indices, index.toNat < width * height)
    (hlen : width * height ≤ t.image.length) :
    Covered indices (openPixels width height (listed indices) t) s t :=
  ⟨h, fun index hi => (hin index hi).trans_le hlen, fun _ hp => openPixel_excluded hin hp⟩

/-- The four passes of every mode. -/
theorem correctWindows_tracks {s : Defects F} {t : Pixels F} (h : Tracks indices s t)
    (hin : ∀ index ∈ indices, index.toNat < width * height)
    (hlen : width * height ≤ t.image.length) :
    Tracks indices (correctWindows floats width height indices s)
      (pixelWindows floats width height (listed indices) t) := by
  have hone : (1 : UInt8) ≠ 0 := by decide
  rw [correctWindows, pixelWindows, excludedPixels_eq h]
  have hstart := h.covered hin hlen
  have h3 := hstart.pass floats width height (windowRule 3) hone
  have h5 := h3.pass floats width height (windowRule 5) hone
  have hb5 := h5.pass floats width height (borderRule width height 5) hone
  exact (hb5.pass floats width height (borderRule width height 7) hone).tracks

theorem pixelWindows_length (marks : ℕ → Bool) (t : Pixels F) :
    (pixelWindows floats width height marks t).image.length = t.image.length := by
  simp [pixelWindows]

/-- The passes of mode four. -/
theorem propagate_tracks (passes : ℕ) {s : Defects F} {t : Pixels F} (h : Tracks indices s t)
    (hin : ∀ index ∈ indices, index.toNat < width * height)
    (hlen : width * height ≤ t.image.length) :
    Tracks indices (propagate floats width height indices passes s)
      (pixelPropagate floats width height (listed indices) passes t) := by
  induction passes generalizing s t with
  | zero => exact h
  | succ passes ih =>
      rw [propagate, pixelPropagate, unresolved_eq h hin]
      split_ifs with hdone
      · exact h
      · have hpass := ((h.covered hin hlen).pass floats width height
          propagationRule (by decide)).tracks
        rw [excludedPixels_eq h]
        refine ih ⟨hpass.image, ?_⟩ (by simpa using hlen)
        dsimp only
        rw [hpass.resolved, List.map_map]
        rfl

/-- **The correction of a list is the correction of its set.** -/
theorem correctDefectivePixelsMode_eq {image : List F} {maximumCount : UInt16}
    {requireAll : Bool} {mode : ℕ}
    (hguard : ¬(width = 0 ∨ height = 0 ∨ 2 ^ 31 - 1 < width ∨ 2 ^ 31 - 1 < height ∨
      (2 ^ 64 - 1) / width < height ∨ 65535 < indices.length))
    (hin : ∀ index ∈ indices, index.toNat < width * height) (hne : indices.length ≠ 0)
    (hfew : ¬(requireAll = true ∧ maximumCount.toNat < indices.length))
    (hlen : width * height ≤ image.length) :
    correctDefectivePixelsMode floats width height image indices maximumCount requireAll mode =
      (if requireAll && (List.range (width * height)).any (openPixel (listed indices)
          (pixelCorrection floats width height (listed indices) maximumCount.toNat mode image)) then
          1001 else 0,
        (pixelCorrection floats width height (listed indices) maximumCount.toNat mode
          image).image) := by
  have hany : ¬indices.any (fun index => decide (width * height ≤ index.toNat)) = true := by
    rw [List.any_eq_true]
    rintro ⟨index, hi, hle⟩
    have hlt := hin index hi
    have hle := of_decide_eq_true hle
    omega
  have hstart : Tracks indices ⟨image, List.replicate indices.length 0⟩
      (⟨image, fun _ => 0⟩ : Pixels F) := by
    refine ⟨rfl, ?_⟩
    rw [List.map_const']
  have hwindows := correctWindows_tracks floats hstart hin hlen
  rw [correctDefectivePixelsMode, if_neg hguard, if_neg hany, if_neg hne, if_neg hfew,
    pixelCorrection]
  dsimp only
  by_cases hmode : mode = 4
  · have hall := propagate_tracks floats maximumCount.toNat hwindows hin
      (by rw [pixelWindows_length]; exact hlen)
    rw [if_pos hmode, if_pos hmode, hall.image, unresolved_eq hall hin]
  · rw [if_neg hmode, if_neg hmode, hwindows.image, unresolved_eq hwindows hin]

/-- The list of defects enters only through its length and its set of pixels. -/
theorem correctDefectivePixelsMode_perm {indices' : List UInt16} (hperm : indices'.Perm indices)
    {image : List F} (hlen : width * height ≤ image.length) (maximumCount : UInt16)
    (requireAll : Bool) (mode : ℕ) :
    correctDefectivePixelsMode floats width height image indices' maximumCount requireAll mode =
      correctDefectivePixelsMode floats width height image indices maximumCount requireAll
        mode := by
  have hlisted : listed indices' = listed indices := by
    funext p
    exact hperm.any_eq
  have hlength := hperm.length_eq
  have hmem : ∀ index, index ∈ indices' ↔ index ∈ indices := fun index => hperm.mem_iff
  by_cases hguard : width = 0 ∨ height = 0 ∨ 2 ^ 31 - 1 < width ∨ 2 ^ 31 - 1 < height ∨
      (2 ^ 64 - 1) / width < height ∨ 65535 < indices.length
  · rw [correctDefectivePixelsMode, correctDefectivePixelsMode, hlength, if_pos hguard,
      if_pos hguard]
  by_cases hout : indices.any (fun index => decide (width * height ≤ index.toNat)) = true
  · rw [correctDefectivePixelsMode, correctDefectivePixelsMode, hlength, if_neg hguard,
      if_neg hguard, hperm.any_eq, if_pos hout, if_pos hout]
  by_cases hne : indices.length = 0
  · rw [correctDefectivePixelsMode, correctDefectivePixelsMode, hlength, if_neg hguard,
      if_neg hguard, hperm.any_eq, if_neg hout, if_neg hout, if_pos hne, if_pos hne]
  by_cases hfew : requireAll = true ∧ maximumCount.toNat < indices.length
  · rw [correctDefectivePixelsMode, correctDefectivePixelsMode, hlength, if_neg hguard,
      if_neg hguard, hperm.any_eq, if_neg hout, if_neg hout, if_neg hne, if_neg hne, if_pos hfew,
      if_pos hfew]
  have hin : ∀ index ∈ indices, index.toNat < width * height := by
    intro index hi
    by_contra hle
    exact hout (List.any_eq_true.2 ⟨index, hi, decide_eq_true (not_lt.1 hle)⟩)
  rw [correctDefectivePixelsMode_eq floats hguard hin hne hfew hlen,
    correctDefectivePixelsMode_eq floats (hlength ▸ hguard)
      (fun index hi => hin index ((hmem index).1 hi)) (hlength ▸ hne) (hlength ▸ hfew) hlen,
    hlisted]

/-! ### What the correction changes -/

/-- Pixels that are not on the list keep their values. -/
def KeepsUnlisted (marks : ℕ → Bool) (image : List F) (t : Pixels F) : Prop :=
  ∀ p, marks p = false → t.image[p]? = image[p]?

theorem KeepsUnlisted.pass {marks : ℕ → Bool} {image : List F} {t : Pixels F}
    (h : KeepsUnlisted marks image t) (rule : DefectRule) (excluded : List Bool) :
    KeepsUnlisted marks image (pixelPass floats width height rule excluded marks t) := by
  intro p hp
  have hclosed : openPixel marks t p = false := by rw [openPixel, hp, Bool.false_and]
  rw [pixelPass_image_of_closed floats hclosed]
  exact h p hp

theorem pixelPropagate_keeps {marks : ℕ → Bool} {image : List F} (passes : ℕ) {t : Pixels F}
    (h : KeepsUnlisted marks image t) :
    KeepsUnlisted marks image (pixelPropagate floats width height marks passes t) := by
  induction passes generalizing t with
  | zero => exact h
  | succ passes ih =>
      rw [pixelPropagate]
      split_ifs
      · exact h
      · exact ih (h.pass floats propagationRule _)

theorem pixelCorrection_keeps (marks : ℕ → Bool) (maximumCount mode : ℕ) (image : List F) :
    KeepsUnlisted marks image
      (pixelCorrection floats width height marks maximumCount mode image) := by
  have hstart : KeepsUnlisted marks image (⟨image, fun _ => 0⟩ : Pixels F) := fun _ _ => rfl
  have hwindows : KeepsUnlisted marks image
      (pixelWindows floats width height marks ⟨image, fun _ => 0⟩) :=
    (((hstart.pass floats _ _).pass floats _ _).pass floats _ _).pass floats _ _
  rw [pixelCorrection]
  split_ifs
  · exact pixelPropagate_keeps floats maximumCount hwindows
  · exact hwindows

/-- The pixels of a window that are not on the list. -/
def usablePixels (width height : ℕ) (marks : ℕ → Bool) (p radius : ℕ) : List ℕ :=
  (windowPixels width height p radius).filter fun q => !marks q

/-- The pixel has been replaced by the mean of pixels of the original image that are not on the
list. -/
def IsMean (width height : ℕ) (marks : ℕ → Bool) (image : List F) (p : ℕ) (value : F) : Prop :=
  ∃ radius, 1 ≤ radius ∧ radius ≤ 3 ∧ usablePixels width height marks p radius ≠ [] ∧
    value = floats.mean (pixelSum floats image (usablePixels width height marks p radius))
      (usablePixels width height marks p radius).length

/-- The pixels of a window lie in the image. -/
theorem windowPixels_lt {p q radius : ℕ} (hp : p < width * height)
    (hq : q ∈ windowPixels width height p radius) : q < width * height := by
  obtain ⟨row, hmemrow, hmem⟩ := List.mem_flatMap.1 hq
  obtain ⟨col, hmemcol, rfl⟩ := List.mem_map.1 hmem
  have hrow := (List.mem_range'_1.1 hmemrow).2
  have hcol := (List.mem_range'_1.1 hmemcol).2
  have hwidth : 0 < width := Nat.pos_of_mul_pos_right (Nat.zero_lt_of_lt hp)
  have hy : p / width < height := by
    rw [Nat.div_lt_iff_lt_mul hwidth, Nat.mul_comm]
    exact hp
  have hx := Nat.mod_lt p hwidth
  have hcolumn : col < width := by
    clear hmemrow hmemcol hrow hmem hq
    generalize p % width = x at *
    split_ifs at hcol <;> omega
  have hline : row < height := by
    clear hmemrow hmemcol hcol hmem hq
    generalize p / width = y at *
    split_ifs at hrow <;> omega
  rw [Nat.mul_comm width]
  exact PackedBits.grid_lt hcolumn hline

/-- Unlisted pixels are as in the original, and a listed one is as there or has been replaced by a
mean of such pixels. -/
structure MeansOnly (width height : ℕ) (marks : ℕ → Bool) (image : List F) (t : Pixels F) :
    Prop where
  keeps : KeepsUnlisted marks image t
  means : ∀ p < width * height, t.image[p]? = image[p]? ∨
    ∃ value, t.image[p]? = some value ∧ IsMean floats width height marks image p value

/-- A pass that reads unlisted pixels only keeps it so. -/
theorem MeansOnly.pass {marks : ℕ → Bool} {image : List F} {t : Pixels F} {excluded : List Bool}
    (h : MeansOnly floats width height marks image t) (rule : DefectRule)
    (hexcluded : ∀ p < width * height, excluded.getD p false = marks p)
    (hsome : rule.accepts 0 = false) (hradius : 1 ≤ rule.radius ∧ rule.radius ≤ 3) :
    MeansOnly floats width height marks image
      (pixelPass floats width height rule excluded marks t) := by
  refine ⟨h.keeps.pass floats rule excluded, fun p hp => ?_⟩
  have hfilter : (windowPixels width height p rule.radius).filter
      (fun q => !excluded.getD q false) = usablePixels width height marks p rule.radius :=
    List.filter_congr fun q hq => by rw [hexcluded q (windowPixels_lt hp hq)]
  -- the pixels that are summed are unlisted, so they are still those of the original
  have hsum : pixelSum floats t.image (usablePixels width height marks p rule.radius) =
      pixelSum floats image (usablePixels width height marks p rule.radius) := by
    refine List.foldl_ext _ _ _ fun sum q hq => ?_
    have hfree : marks q = false := by simpa using (List.mem_filter.1 hq).2
    rw [List.getD_eq_getElem?_getD, List.getD_eq_getElem?_getD, h.keeps q hfree]
  rw [pixelPass_image]
  cases hopen : openPixel marks t p with
  | false => simpa using h.means p hp
  | true =>
      cases hv : fillPixel floats width height rule excluded t.image p with
      | none => simpa using h.means p hp
      | some value =>
          rw [fillPixel, defectNeighborSum_eq, hfilter, hsum] at hv
          dsimp only at hv
          split_ifs at hv with haccept
          rw [Bool.and_eq_true] at haccept
          have hne : usablePixels width height marks p rule.radius ≠ [] := by
            intro hempty
            rw [hempty, List.length_nil, hsome] at haccept
            exact absurd haccept.2 Bool.false_ne_true
          cases himage : t.image[p]? with
          | none =>
              rcases h.means p hp with hkept | ⟨old, hold, -⟩
              · left
                rw [← hkept, himage]
                rfl
              · rw [himage] at hold
                cases hold
          | some old =>
              exact Or.inr ⟨value, rfl, rule.radius, hradius.1, hradius.2, hne,
                (Option.some.inj hv).symm⟩

theorem pixelWindows_means (marks : ℕ → Bool) (image : List F) :
    MeansOnly floats width height marks image
      (pixelWindows floats width height marks ⟨image, fun _ => 0⟩) := by
  have hstart : MeansOnly floats width height marks image (⟨image, fun _ => 0⟩ : Pixels F) :=
    ⟨fun _ _ => rfl, fun _ _ => Or.inl rfl⟩
  have hexcluded : ∀ p < width * height,
      (openPixels width height marks (⟨image, fun _ => 0⟩ : Pixels F)).getD p false = marks p := by
    intro p hp
    rw [openPixels_getD hp, openPixel]
    simp
  have h3 := hstart.pass floats (windowRule 3) hexcluded rfl (by decide)
  have h5 := h3.pass floats (windowRule 5) hexcluded rfl (by decide)
  have hb5 := h5.pass floats (borderRule width height 5) hexcluded rfl
    ⟨by norm_num [borderRule], by norm_num [borderRule]⟩
  exact hb5.pass floats (borderRule width height 7) hexcluded rfl
    ⟨by norm_num [borderRule], by norm_num [borderRule]⟩

end Correction

/-- The image is the one the correction of the set leaves, unless the call ended before. -/
theorem processRawPixelDefects_image {F : Type} (floats : PixelFloats F) (width height : ℕ)
    (saturated : ℤ × List F) (image : List F) (indices : List UInt16) {mode : ℕ}
    (maximumCount : UInt16) (requireAll : Bool) (hmode : mode = 0 ∨ mode = 4)
    (hlen : image.length = width * height) :
    (processRawPixelDefects floats width height saturated image indices mode maximumCount
        requireAll).2 = image ∨
      (processRawPixelDefects floats width height saturated image indices mode maximumCount
        requireAll).2 =
        (pixelCorrection floats width height (listed indices) maximumCount.toNat mode
          image).image := by
  rw [processRawPixelDefects, if_neg (by omega)]
  split_ifs with h1 h2
  · exact Or.inl rfl
  · exact Or.inl rfl
  · by_cases hguard : width = 0 ∨ height = 0 ∨ 2 ^ 31 - 1 < width ∨ 2 ^ 31 - 1 < height ∨
        (2 ^ 64 - 1) / width < height ∨ 65535 < indices.length
    · left
      rw [correctDefectivePixelsMode, if_pos hguard]
    by_cases hne : indices.length = 0
    · left
      rw [correctDefectivePixelsMode, if_neg hguard, if_neg h2, if_pos hne]
    by_cases hfew : requireAll = true ∧ maximumCount.toNat < indices.length
    · left
      rw [correctDefectivePixelsMode, if_neg hguard, if_neg h2, if_neg hne, if_pos hfew]
    right
    have hin : ∀ index ∈ indices, index.toNat < width * height := by
      intro index hi
      by_contra hle
      exact h2 (List.any_eq_true.2 ⟨index, hi, decide_eq_true (not_lt.1 hle)⟩)
    rw [correctDefectivePixelsMode_eq floats hguard hin hne hfew hlen.ge]

/-- **The order of the list does not matter.**  In modes zero and four, whatever single-precision
sums and quotients are: every permutation of the list of defects gives the same status and the same
image; only listed pixels change; and in mode zero a pixel that changes becomes the mean of pixels
of the original image that are not on the list, so no corrected pixel feeds another. -/
theorem defects_order {F : Type} (floats : PixelFloats F) (width height : ℕ)
    (saturated : ℤ × List F) (image : List F) (indices : List UInt16) (mode : ℕ)
    (maximumCount : UInt16) (requireAll : Bool) (hmode : mode = 0 ∨ mode = 4)
    (hlen : image.length = width * height) :
    (∀ indices' : List UInt16, indices'.Perm indices →
      processRawPixelDefects floats width height saturated image indices' mode maximumCount
          requireAll =
        processRawPixelDefects floats width height saturated image indices mode maximumCount
          requireAll) ∧
      (∀ p, (∀ index ∈ indices, index.toNat ≠ p) →
        (processRawPixelDefects floats width height saturated image indices mode maximumCount
          requireAll).2[p]? = image[p]?) ∧
      (mode = 0 → ∀ p < width * height,
        (processRawPixelDefects floats width height saturated image indices mode maximumCount
            requireAll).2[p]? = image[p]? ∨
          ∃ value, (processRawPixelDefects floats width height saturated image indices mode
              maximumCount requireAll).2[p]? = some value ∧
            IsMean floats width height (listed indices) image p value) := by
  have hunlisted : ∀ p, (∀ index ∈ indices, index.toNat ≠ p) → listed indices p = false := by
    intro p hp
    rw [← Bool.not_eq_true, listed, List.any_eq_true]
    rintro ⟨index, hi, heq⟩
    exact hp index hi (of_decide_eq_true heq)
  have himage := processRawPixelDefects_image floats width height saturated image indices
    maximumCount requireAll hmode hlen
  refine ⟨fun indices' hperm => ?_, fun p hp => ?_, fun hzero p hp => ?_⟩
  · rw [processRawPixelDefects, processRawPixelDefects, hperm.length_eq, hperm.any_eq,
      correctDefectivePixelsMode_perm floats hperm hlen.ge]
  · rcases himage with h | h
    · rw [h]
    · rw [h]
      exact pixelCorrection_keeps floats _ _ _ image p (hunlisted p hp)
  · rcases himage with h | h
    · exact Or.inl (by rw [h])
    · rw [h, pixelCorrection, if_neg (by omega)]
      exact (pixelWindows_means floats (listed indices) image).means p hp

/-- A three by three image whose middle pixel is listed twice. -/
theorem defects_order_middle :
    let floats : PixelFloats ℕ := ⟨0, fun a b => a + b, fun sum n => sum / n⟩
    (processRawPixelDefects floats 3 3 (0, []) [8, 8, 8, 8, 0, 8, 8, 8, 0] [4, 8, 4] 0 5
        true).2[4]? = some 8 ∧
      processRawPixelDefects floats 3 3 (0, []) [8, 8, 8, 8, 0, 8, 8, 8, 0] [4, 4, 8] 0 5 true =
        processRawPixelDefects floats 3 3 (0, []) [8, 8, 8, 8, 0, 8, 8, 8, 0] [4, 8, 4] 0 5
          true := by
  refine ⟨by decide, ?_⟩
  exact (defects_order ⟨0, fun a b => a + b, fun sum n => sum / n⟩ 3 3 (0, [])
    [8, 8, 8, 8, 0, 8, 8, 8, 0] [4, 8, 4] 0 5 true (Or.inl rfl) rfl).1 [4, 4, 8] (by decide)

end Fpc
