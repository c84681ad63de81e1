/-
**Captures as the matcher sees them.**

A capture is a view of parallel arrays: byte coordinates, sixteen-byte descriptors and a membership
bitmap for each feature, and five words for each level (the number of features, two Q14 scales and
two Q4 offsets).  The arrays hang off pointers, so each is optional here; where the code reads one
it has checked the pointer first.

Main definitions:

* `Fpc.le32`, `Fpc.le16` — little-endian words of a byte array;
* `Fpc.CapturePayloadView` — the view, with every array the payload flags can select;
* `Fpc.captureCompactLevelsValid`, `Fpc.captureCompactPoint` — the level checks, and the signed Q4
  position of a feature;
* `Fpc.LoadedCapture`, `Fpc.LoadedCollection` — captures that own their arrays;
* `Fpc.CapturePayloadView.IsProfile300` — the captures the reader itself produces.
-/

import FpcReader.Lib.Words

set_option relaxedAutoImplicit false
set_option autoImplicit false

namespace Fpc

open Words

/-! ### Little-endian words -/

/-- The four bytes at the start of `p`, as one 32-bit word. -/
def le32 (p : List UInt8) : BitVec 32 :=
  (p.getD 0 0).toBitVec.setWidth 32 ||| (p.getD 1 0).toBitVec.setWidth 32 <<< 8 |||
    (p.getD 2 0).toBitVec.setWidth 32 <<< 16 ||| (p.getD 3 0).toBitVec.setWidth 32 <<< 24

/-- The two bytes at the start of `p`, as one 16-bit word. -/
def le16 (p : List UInt8) : UInt16 :=
  (p.getD 0 0).toUInt16 ||| (p.getD 1 0).toUInt16 <<< 8

/-- A 32-bit word read as a signed number. -/
abbrev signedU32 (value : BitVec 32) : ℤ := value.toInt

/-- A 16-bit word read as a signed number. -/
abbrev signedU16 (value : BitVec 16) : ℤ := value.toInt

/-- The cast of a signed number to `uint32_t`. -/
abbrev u32 (z : ℤ) : BitVec 32 := word 32 z

/-- The cast of a signed number to `uint16_t`. -/
abbrev u16 (z : ℤ) : BitVec 16 := word 16 z

/-! ### The view -/

/-- A capture: counts, level words and the arrays selected by the payload flags. -/
structure CapturePayloadView where
  /-- The number of features, a `uint32_t`. -/
  count : ℕ
  mode : UInt8
  descriptorBytes : UInt8
  levels : UInt8
  tableWidth : UInt8
  /-- Five words for each level, in serialized order. -/
  levelFields : Option (List UInt16)
  /-- `tableWidth - 1` words for each level. -/
  levelExtra : Option (List UInt16)
  compactCoordinates : Option (List UInt8)
  descriptors : Option (List UInt8)
  membership : Option (List UInt8)
  coordinates : Option (List UInt32)
  scores : Option (List UInt32)
  angles : Option (List UInt32)
  deriving DecidableEq, Repr

/-- The number of features of level `l`. -/
def CapturePayloadView.levelCount (view : CapturePayloadView) (l : ℕ) : ℕ :=
  ((view.levelFields.getD []).getD (l * 5) 0).toNat

/-- A word of a level, read as `int16_t`. -/
def CapturePayloadView.levelField (view : CapturePayloadView) (l j : ℕ) : ℤ :=
  signedU16 ((view.levelFields.getD []).getD (l * 5 + j) 0).toBitVec

/-- The levels are there, none is oversized, and together they cover every feature. -/
def captureCompactLevelsValid (view : CapturePayloadView) : Bool :=
  if view.levels = 0 ∨ view.levelFields = none ∨
      (view.count ≠ 0 ∧ view.compactCoordinates = none) then false
  else
    let counts := (List.range view.levels.toNat).map view.levelCount
    counts.all (· ≤ 32767) && counts.sum == view.count

/-- The level feature `index` lies in, found by walking the level ends upwards; `fuel` is the
number of levels left. -/
def captureLevelOf (view : CapturePayloadView) (index : ℕ) : ℕ → ℕ → ℕ → ℕ
  | 0, level, _ => level
  | fuel + 1, level, finish =>
      if finish ≤ index then
        captureLevelOf view index fuel (level + 1) (finish + view.levelCount (level + 1))
      else level

/-- The floor of a Q14 product brought to Q4, with truncating division only. -/
def q4Floor (p : ℤ) : ℤ := if 0 ≤ p then p.tdiv 1024 else -((-p + 1023).tdiv 1024)

/-- The signed Q4 position of feature `index`. -/
def captureCompactPoint (view : CapturePayloadView) (index : ℕ) : ℤ × ℤ :=
  let level := captureLevelOf view index view.levels.toNat 0 (view.levelCount 0)
  let bytes := view.compactCoordinates.getD []
  let px := view.levelField level 1 * ((bytes.getD (2 * index) 0).toNat : ℤ)
  let py := view.levelField level 2 * ((bytes.getD (2 * index + 1) 0).toNat : ℤ)
  (signedU16 (u16 (q4Floor px + view.levelField level 3)),
    signedU16 (u16 (q4Floor py + view.levelField level 4)))

/-- Pointer arithmetic on descriptors: the bytes from descriptor `i` on. -/
def CapturePayloadView.descriptorAt (view : CapturePayloadView) (i : ℕ) : List UInt8 :=
  (view.descriptors.getD []).drop (i * 16)

/-- The membership bit of feature `i` in a bitmap. -/
def memberBit (membership : List UInt8) (i : ℕ) : Bool :=
  (membership.getD (i / 8) 0).toNat.testBit (i % 8)

/-! ### Owned captures -/

/-- A capture that owns its arrays; `storage` is the identity of their allocation. -/
structure LoadedCapture where
  view : CapturePayloadView
  storage : Option ℕ
  deriving DecidableEq, Repr

/-- The captures of one finger, with room for `capacity` of them. -/
structure LoadedCollection where
  captures : List LoadedCapture
  capacity : ℕ
  deriving DecidableEq, Repr

/-! ### The captures of the reader -/

/-- A profile-300 capture: mode 1, sixteen-byte descriptors, byte coordinates and a single level
that covers every feature at scale one with an offset of half a pixel. -/
structure CapturePayloadView.IsProfile300 (view : CapturePayloadView) : Prop where
  mode : view.mode = 1
  descriptorBytes : view.descriptorBytes = 16
  levels : view.levels = 1
  fields : view.levelFields = some [UInt16.ofNat view.count, 16384, 16384, 8, 8]
  coordinates : (view.compactCoordinates.getD []).length = 2 * view.count
  descriptors : (view.descriptors.getD []).length = 16 * view.count
  membership : (view.membership.getD []).length = (view.count + 7) / 8

theorem q4Floor_nonneg {p : ℤ} (h : 0 ≤ p) : q4Floor p = p / 1024 := by
  rw [q4Floor, if_pos h, Int.tdiv_eq_ediv_of_nonneg h]

/-- The Q4 position of a coordinate byte. -/
theorem q4Floor_byte (b : UInt8) :
    signedU16 (u16 (q4Floor (16384 * (b.toNat : ℤ)) + 8)) = 16 * (b.toNat : ℤ) + 8 := by
  have hb := b.toNat_lt
  rw [q4Floor_nonneg (by positivity)]
  have : (16384 * (b.toNat : ℤ)) / 1024 = 16 * (b.toNat : ℤ) := by omega
  rw [this]
  exact toInt_word (by norm_num) (by norm_num; omega) (by norm_num; omega)

/-- Every feature of a profile-300 capture lies in the image: both Q4 coordinates are those of a
byte. -/
theorem captureCompactPoint_range {view : CapturePayloadView} (h : view.IsProfile300) (index : ℕ)
    (hi : index < view.levelCount 0) :
    (8 ≤ (captureCompactPoint view index).1 ∧ (captureCompactPoint view index).1 ≤ 4088) ∧
      (8 ≤ (captureCompactPoint view index).2 ∧ (captureCompactPoint view index).2 ≤ 4088) := by
  have hlevel : captureLevelOf view index view.levels.toNat 0 (view.levelCount 0) = 0 := by
    rw [h.levels]
    exact if_neg (not_le.2 hi)
  have h1 : view.levelField 0 1 = 16384 := by rw [CapturePayloadView.levelField, h.fields]; rfl
  have h2 : view.levelField 0 2 = 16384 := by rw [CapturePayloadView.levelField, h.fields]; rfl
  have h3 : view.levelField 0 3 = 8 := by rw [CapturePayloadView.levelField, h.fields]; rfl
  have h4 : view.levelField 0 4 = 8 := by rw [CapturePayloadView.levelField, h.fields]; rfl
  have hx := ((view.compactCoordinates.getD []).getD (2 * index) 0).toNat_lt
  have hy := ((view.compactCoordinates.getD []).getD (2 * index + 1) 0).toNat_lt
  simp only [captureCompactPoint, hlevel, h1, h2, h3, h4, q4Floor_byte]
  omega

end Fpc
