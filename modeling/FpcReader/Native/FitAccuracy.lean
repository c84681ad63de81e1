/-
**How accurate a fit is.**

A fit normalizes the squared source distance to thirty-one bits and shifts both products by as many
places.  The target may be longer than the source by a sixteenth, so a shifted product can leave the
signed range although the norm does not; then its sign is lost and with it the rotation.  Otherwise
cosine and sine are accurate to two units of Q14.

Main definitions:

* `Fpc.MatchCoordinates.InRange` — coordinates of the Q4 range of bytes;
* `Fpc.sourceNorm`, `Fpc.dotProduct`, `Fpc.crossProduct` — the exact products;
* `Fpc.Accurate` — the fit is within two units of the exact cosine and sine;
* `Fpc.Representable` — both products stay below the next power of two.

Main results:

* `Fpc.fitQuotient_accurate_iff` — a rounded quotient is accurate exactly when nothing wrapped;
* `Fpc.fit_accurate_iff` — **a sampled fit is accurate exactly when its products are
  representable**;
* `Fpc.fit_accurate_wrapped` — a sampled fit that is not.
-/

import FpcReader.Native.GeometrySound
import Mathlib.Algebra.Order.Field.Basic
import Mathlib.Data.Nat.Size
import Mathlib.Tactic.LinearCombination

set_option relaxedAutoImplicit false
set_option autoImplicit false

namespace Fpc

open Words

/-! ### Exact products -/

/-- Coordinates from 0 to 4095, the Q4 range of bytes. -/
structure MatchCoordinates.InRange (p : MatchCoordinates) : Prop where
  x : 0 ≤ p.x ∧ p.x ≤ 4095
  y : 0 ≤ p.y ∧ p.y ≤ 4095
  targetX : 0 ≤ p.targetX ∧ p.targetX ≤ 4095
  targetY : 0 ≤ p.targetY ∧ p.targetY ≤ 4095

/-- The squared distance of the two source points. -/
def sourceNorm (a b : MatchCoordinates) : ℤ := (b.x - a.x) ^ 2 + (b.y - a.y) ^ 2

def targetNorm (a b : MatchCoordinates) : ℤ :=
  (b.targetX - a.targetX) ^ 2 + (b.targetY - a.targetY) ^ 2

def dotProduct (a b : MatchCoordinates) : ℤ :=
  (b.x - a.x) * (b.targetX - a.targetX) + (b.y - a.y) * (b.targetY - a.targetY)

def crossProduct (a b : MatchCoordinates) : ℤ :=
  (b.x - a.x) * (b.targetY - a.targetY) - (b.y - a.y) * (b.targetX - a.targetX)

/-- The least power of two above a number. -/
def powerAbove (n : ℤ) : ℤ := 2 ^ n.toNat.size

/-- A product whose shifted value, rounded up by half a divisor, is a signed word. -/
def ProductFits (n product : ℤ) : Prop :=
  -(32768 * (powerAbove n + product)) ≤ n ∧ n < 32768 * (powerAbove n - product)

/-- Both products stay below the power of two above the norm, up to the rounding. -/
def Representable (a b : MatchCoordinates) : Prop :=
  ProductFits (sourceNorm a b) (dotProduct a b) ∧ ProductFits (sourceNorm a b) (crossProduct a b)

instance (a b : MatchCoordinates) : Decidable (Representable a b) := by
  unfold Representable ProductFits
  infer_instance

/-- The fit exists and is within two units of the exact cosine and sine. -/
def Accurate (a b : MatchCoordinates) : Prop :=
  ∃ t, fitSimilarityPair a b = some t ∧
    |(t.c : ℚ) - 16384 * dotProduct a b / sourceNorm a b| ≤ 2 ∧
    |(t.s : ℚ) - 16384 * crossProduct a b / sourceNorm a b| ≤ 2

/-! ### One quotient -/

/-- The rounded quotient of a product by the norm, both shifted by `k` places. -/
def fitQuotient (n product : ℤ) (k : ℕ) : ℤ :=
  (signedU32 (u32 product <<< k + u32 (n * 2 ^ k / 2 ^ 14 / 2))).tdiv (n * 2 ^ k / 2 ^ 14)

section Quotient

variable {n product : ℤ} {k : ℕ}

theorem powerAbove_shift (hlo : 2 ^ 30 ≤ n * 2 ^ k) (hhi : n * 2 ^ k < 2 ^ 31) (hk : k ≤ 30) :
    powerAbove n * 2 ^ k = 2 ^ 31 := by
  have hpos : 0 < n := by
    by_contra hneg
    have : n * 2 ^ k ≤ 0 := mul_nonpos_of_nonpos_of_nonneg (not_lt.1 hneg) (by positivity)
    norm_num at hlo
    omega
  obtain ⟨m, rfl⟩ := Int.eq_ofNat_of_zero_le hpos.le
  have hlo' : 2 ^ 30 ≤ m * 2 ^ k := by exact_mod_cast hlo
  have hhi' : m * 2 ^ k < 2 ^ 31 := by exact_mod_cast hhi
  have hsplit30 : (2 : ℕ) ^ 30 = 2 ^ (30 - k) * 2 ^ k := by
    rw [← pow_add]
    congr 1
    omega
  have hsplit31 : (2 : ℕ) ^ 31 = 2 ^ (31 - k) * 2 ^ k := by
    rw [← pow_add]
    congr 1
    omega
  rw [hsplit30] at hlo'
  rw [hsplit31] at hhi'
  have hlow := Nat.le_of_mul_le_mul_right hlo' (Nat.two_pow_pos k)
  have hhigh := Nat.lt_of_mul_lt_mul_right hhi'
  have hsize : m.size = 31 - k := by
    have h1 : m.size ≤ 31 - k := Nat.size_le.2 hhigh
    have h2 : 30 - k < m.size := Nat.lt_size.2 hlow
    omega
  rw [powerAbove, Int.toNat_natCast, hsize]
  exact_mod_cast hsplit31.symm

/-- Whether a shifted product with half a divisor added is a signed word. -/
theorem productFits_iff (hlo : 2 ^ 30 ≤ n * 2 ^ k) (hhi : n * 2 ^ k < 2 ^ 31) (hk : k ≤ 30) :
    ProductFits n product ↔
      -2 ^ 31 ≤ product * 2 ^ k + n * 2 ^ k / 2 ^ 14 / 2 ∧
        product * 2 ^ k + n * 2 ^ k / 2 ^ 14 / 2 < 2 ^ 31 := by
  have hpower := powerAbove_shift hlo hhi hk
  have hpos : (0 : ℤ) < 2 ^ k := by positivity
  have hhalf : n * 2 ^ k / 2 ^ 14 / 2 = n * 2 ^ k / 2 ^ 15 := by omega
  rw [hhalf]
  unfold ProductFits
  have hlow : -(32768 * (powerAbove n + product)) ≤ n ↔
      (-2 ^ 31 - product * 2 ^ k) * 2 ^ 15 ≤ n * 2 ^ k := by
    rw [← mul_le_mul_iff_of_pos_right hpos, ← hpower]
    constructor <;> intro h <;> linarith
  have hhigh : n < 32768 * (powerAbove n - product) ↔
      n * 2 ^ k < (2 ^ 31 - product * 2 ^ k) * 2 ^ 15 := by
    rw [← mul_lt_mul_iff_of_pos_right hpos, ← hpower]
    constructor <;> intro h <;> linarith
  rw [hlow, hhigh, ← Int.le_ediv_iff_mul_le (by norm_num), ← Int.ediv_lt_iff_lt_mul (by norm_num)]
  omega

/-- The quotient of a word is off by what the rounding and the division leave. -/
theorem tdiv_off {w shifted : ℤ} (hlo : 2 ^ 30 ≤ shifted) (hhi : shifted < 2 ^ 31)
    (hquotient : |w.tdiv (shifted / 2 ^ 14)| ≤ 18433) :
    |w.tdiv (shifted / 2 ^ 14) * shifted - 2 ^ 14 * (w - shifted / 2 ^ 14 / 2)| ≤ 2 * shifted := by
  set divisor := shifted / 2 ^ 14 with hdivisor
  set q := w.tdiv divisor with hq
  have hdiv : 65536 ≤ divisor := by rw [hdivisor]; omega
  -- what the truncated division leaves over, and what the divisor leaves out of the norm
  have hrest : w.tmod divisor + q * divisor = w := Int.tmod_add_tdiv_mul w divisor
  have hrest_lt : w.tmod divisor < divisor := Int.tmod_lt_of_pos w (by omega)
  have hlt_rest : -divisor < w.tmod divisor := Int.lt_tmod_of_pos w (by omega)
  obtain ⟨low, hlow, hlow_nonneg, hlow_lt⟩ : ∃ low, shifted = divisor * 2 ^ 14 + low ∧
      0 ≤ low ∧ low < 2 ^ 14 := ⟨shifted - divisor * 2 ^ 14, by ring, by omega, by omega⟩
  have hcross : |q * low| ≤ 18433 * 16383 :=
    abs_mul_le hquotient (abs_le.2 ⟨by omega, by norm_num at hlow_lt; omega⟩)
  have hexpand : q * shifted - 2 ^ 14 * (w - divisor / 2) =
      2 ^ 14 * (divisor / 2 - w.tmod divisor) + q * low := by
    rw [hlow]
    linear_combination (2 ^ 14 : ℤ) * hrest
  rw [hexpand, abs_le]
  have hcross := abs_le.1 hcross
  constructor <;> norm_num <;> omega

/-- The word a shifted product with half a divisor added is read back as. -/
theorem fitQuotient_word (n product : ℤ) (k : ℕ) :
    signedU32 (u32 product <<< k + u32 (n * 2 ^ k / 2 ^ 14 / 2)) =
      (product * 2 ^ k + n * 2 ^ k / 2 ^ 14 / 2).bmod (2 ^ 32) := by
  rw [word_shiftLeft, word_add]
  exact toInt_word_eq_bmod 32 _

/-- **A rounded quotient is accurate exactly when nothing wrapped.** -/
theorem fitQuotient_accurate_iff (hlo : 2 ^ 30 ≤ n * 2 ^ k) (hhi : n * 2 ^ k < 2 ^ 31) (hk : k ≤ 30)
    (hproduct : 8 * |product| ≤ 9 * n) :
    |fitQuotient n product k * n - 2 ^ 14 * product| ≤ 2 * n ↔ ProductFits n product := by
  have hpos : (0 : ℤ) < 2 ^ k := by positivity
  have hbound : |fitQuotient n product k| ≤ 18433 := fitQuotient_le hlo hhi hproduct
  have hoff := tdiv_off hlo hhi hbound
  set value := product * 2 ^ k + n * 2 ^ k / 2 ^ 14 / 2 with hvalue
  -- both sides, with the norm and the product shifted
  have hscaled : |fitQuotient n product k * n - 2 ^ 14 * product| ≤ 2 * n ↔
      |fitQuotient n product k * (n * 2 ^ k) - 2 ^ 14 * (product * 2 ^ k)| ≤
        2 * (n * 2 ^ k) := by
    have hfactor : fitQuotient n product k * (n * 2 ^ k) - 2 ^ 14 * (product * 2 ^ k) =
        (fitQuotient n product k * n - 2 ^ 14 * product) * 2 ^ k := by ring
    rw [hfactor, abs_mul, abs_of_pos hpos, ← mul_assoc, mul_le_mul_iff_of_pos_right hpos]
  rw [hscaled, productFits_iff hlo hhi hk, ← hvalue]
  have hshifted : 8 * |product * 2 ^ k| ≤ 9 * (n * 2 ^ k) := by
    rw [abs_mul, abs_of_pos hpos]
    nlinarith
  have hshifted := abs_le.1 (show |product * 2 ^ k| ≤ 9 * (n * 2 ^ k) / 8 by omega)
  rw [fitQuotient_word, ← hvalue] at hoff
  have hq : fitQuotient n product k =
      (value.bmod (2 ^ 32)).tdiv (n * 2 ^ k / 2 ^ 14) := by
    rw [fitQuotient, fitQuotient_word]
  rw [hq]
  generalize (value.bmod (2 ^ 32)).tdiv (n * 2 ^ k / 2 ^ 14) * (n * 2 ^ k) = qn at *
  generalize n * 2 ^ k = shifted at *
  generalize product * 2 ^ k = scaled at *
  norm_num at hlo hhi
  constructor
  · intro hnear
    by_contra hwrapped
    have hbmod : value.bmod (2 ^ 32) = value - 2 ^ 32 ∨ value.bmod (2 ^ 32) = value + 2 ^ 32 := by
      have := Int.bmod_def value (2 ^ 32)
      norm_num at this hwrapped ⊢
      omega
    have hoff := abs_le.1 hoff
    have hnear := abs_le.1 hnear
    norm_num at hoff hnear hbmod
    omega
  · rintro ⟨hlow, hhigh⟩
    have hbmod : value.bmod (2 ^ 32) = value :=
      Int.bmod_eq_of_le (by norm_num at hlow ⊢; omega) (by norm_num at hhigh ⊢; omega)
    rw [hbmod] at hoff
    have hsame : value - shifted / 2 ^ 14 / 2 = scaled := by omega
    rwa [hsame] at hoff

end Quotient

/-! ### The validity test -/

section Fit

variable {a b : MatchCoordinates}

theorem MatchCoordinates.InRange.diff (ha : a.InRange) (hb : b.InRange) :
    |b.x - a.x| ≤ 4095 ∧ |b.y - a.y| ≤ 4095 ∧
      |b.targetX - a.targetX| ≤ 4095 ∧ |b.targetY - a.targetY| ≤ 4095 := by
  have h1 := ha.x; have h2 := ha.y; have h3 := ha.targetX; have h4 := ha.targetY
  have h5 := hb.x; have h6 := hb.y; have h7 := hb.targetX; have h8 := hb.targetY
  refine ⟨abs_le.2 ?_, abs_le.2 ?_, abs_le.2 ?_, abs_le.2 ?_⟩ <;> omega

theorem sq_le_of_abs_le {z : ℤ} (h : |z| ≤ 4095) : z ^ 2 ≤ 16769025 := by
  have := pow_le_pow_left₀ (abs_nonneg z) h 2
  rw [sq_abs] at this
  linarith

theorem sourceNorm_nonneg (a b : MatchCoordinates) : 0 ≤ sourceNorm a b := by
  unfold sourceNorm
  positivity

theorem sourceNorm_le (ha : a.InRange) (hb : b.InRange) : sourceNorm a b ≤ 33538050 := by
  obtain ⟨hx, hy, -, -⟩ := ha.diff hb
  have h1 := sq_le_of_abs_le hx
  have h2 := sq_le_of_abs_le hy
  unfold sourceNorm
  linarith

/-- **The validity test over the integers.** -/
theorem pairValid_iff (ha : a.InRange) (hb : b.InRange) :
    pairValid 3 a b = true ↔ 256 < sourceNorm a b ∧
      sourceNorm a b - sourceNorm a b / 8 < targetNorm a b ∧
        targetNorm a b < sourceNorm a b + sourceNorm a b / 8 := by
  obtain ⟨hx, hy, htx, hty⟩ := ha.diff hb
  have hn := sourceNorm_le ha hb
  have hpos := sourceNorm_nonneg a b
  simp only [pairValid, Bool.and_eq_true, decide_eq_true_eq]
  rw [signedU32_squares (hx.trans (by norm_num)) (hy.trans (by norm_num)),
    signedU32_squares (htx.trans (by norm_num)) (hty.trans (by norm_num)), shiftFloor_eq]
  show (256 < sourceNorm a b ∧ signedU32 (u32 (sourceNorm a b) -
      u32 (sourceNorm a b / 2 ^ (3 % 32))) < targetNorm a b) ∧
      targetNorm a b < signedU32 (u32 (sourceNorm a b) +
        u32 (sourceNorm a b / 2 ^ (3 % 32))) ↔ _
  rw [word_sub, word_add]
  norm_num
  rw [signedU32_u32 (by omega) (by omega), signedU32_u32 (by omega) (by omega), and_assoc]

/-- Both products are at most nine eighths of the norm. -/
theorem products_le (ha : a.InRange) (hb : b.InRange) (hvalid : pairValid 3 a b = true) :
    8 * |dotProduct a b| ≤ 9 * sourceNorm a b ∧ 8 * |crossProduct a b| ≤ 9 * sourceNorm a b := by
  obtain ⟨-, -, hhigh⟩ := (pairValid_iff ha hb).1 hvalid
  have hpos := sourceNorm_nonneg a b
  have hratio : 8 * targetNorm a b ≤ 9 * sourceNorm a b := by omega
  have hsquares : dotProduct a b ^ 2 + crossProduct a b ^ 2 = sourceNorm a b * targetNorm a b := by
    unfold dotProduct crossProduct sourceNorm targetNorm
    ring
  exact ⟨projection_le _ _ hpos hratio hsquares,
    projection_le _ _ hpos hratio ((add_comm _ _).trans hsquares)⟩

/-! ### The fit -/

/-- The number of places the norm is shifted. -/
def fitShift (n : ℤ) : ℕ := (leadingFrom (u32 n) 32 + 31) % 32

theorem fitShift_eq (n : ℤ) : (leadingFrom (u32 n) 32 + 31) % 32 = fitShift n := rfl

theorem fitQuotient_eq (n product : ℤ) (k : ℕ) :
    (signedU32 (u32 product <<< k + u32 (n * 2 ^ k / 2 ^ 14 / 2))).tdiv (n * 2 ^ k / 2 ^ 14) =
      fitQuotient n product k := rfl

/-- A fit of two correspondences that passed the test exists, and has the two quotients. -/
theorem fitSimilarityPair_quotients (ha : a.InRange) (hb : b.InRange)
    (hvalid : pairValid 3 a b = true) :
    ∃ t, fitSimilarityPair a b = some t ∧
      t.c = fitQuotient (sourceNorm a b) (dotProduct a b) (fitShift (sourceNorm a b)) ∧
      t.s = fitQuotient (sourceNorm a b) (crossProduct a b) (fitShift (sourceNorm a b)) := by
  obtain ⟨hbig, -, -⟩ := (pairValid_iff ha hb).1 hvalid
  obtain ⟨hdot, hcross⟩ := products_le ha hb hvalid
  have hle := sourceNorm_le ha hb
  have hlt : sourceNorm a b < 2 ^ 31 := by norm_num; omega
  obtain ⟨hlo, hhi⟩ : 2 ^ 30 ≤ sourceNorm a b * 2 ^ fitShift (sourceNorm a b) ∧
      sourceNorm a b * 2 ^ fitShift (sourceNorm a b) < 2 ^ 31 := leading_shift (by omega) hlt
  have hc : |fitQuotient (sourceNorm a b) (dotProduct a b) (fitShift (sourceNorm a b))| ≤ 18433 :=
    fitQuotient_le hlo hhi hdot
  have hs : |fitQuotient (sourceNorm a b) (crossProduct a b) (fitShift (sourceNorm a b))| ≤
      18433 := fitQuotient_le hlo hhi hcross
  have hnorm : u32 (b.x - a.x) * u32 (b.x - a.x) + u32 (b.y - a.y) * u32 (b.y - a.y) =
      u32 (sourceNorm a b) := by
    rw [word_mul, word_mul, word_add]
    congr 1
    unfold sourceNorm
    ring
  have hdotw : u32 (b.x - a.x) * u32 (b.targetX - a.targetX) +
      u32 (b.y - a.y) * u32 (b.targetY - a.targetY) = u32 (dotProduct a b) := by
    rw [word_mul, word_mul, word_add]
    rfl
  have hcrossw : u32 (b.x - a.x) * u32 (b.targetY - a.targetY) -
      u32 (b.y - a.y) * u32 (b.targetX - a.targetX) = u32 (crossProduct a b) := by
    rw [word_mul, word_mul, word_sub]
    rfl
  have hnonzero : u32 (sourceNorm a b) ≠ 0 := fun hzero => by
    have := (word_eq_zero_iff (by omega) (by norm_num; omega)).1 hzero
    omega
  have hdivisor : shiftFloor (signedU32 (u32 (sourceNorm a b) <<< fitShift (sourceNorm a b))) 14 =
      sourceNorm a b * 2 ^ fitShift (sourceNorm a b) / 2 ^ 14 := by
    rw [shiftFloor_eq, word_shiftLeft, signedU32_u32 (by norm_num at hlo; omega)
      (by norm_num at hhi; omega)]
  have hdivisor_ne : sourceNorm a b * 2 ^ fitShift (sourceNorm a b) / 2 ^ 14 ≠ 0 := by omega
  have hc := abs_le.1 hc
  have hs := abs_le.1 hs
  simp only [fitSimilarityPair, hnorm, hdotw, hcrossw, fitShift_eq, hdivisor, shiftFloor_eq _ 1,
    pow_one, fitQuotient_eq]
  rw [if_neg hnonzero, if_neg hdivisor_ne, if_neg (by norm_num; omega)]
  refine ⟨_, rfl, ?_, ?_⟩
  · exact signedU16_u16 (by omega) (by omega)
  · exact signedU16_u16 (by omega) (by omega)

/-- A quotient is within two units, as a rational and with the denominator cleared. -/
theorem near_iff {q n product : ℤ} (hn : 0 < n) :
    |(q : ℚ) - 16384 * product / n| ≤ 2 ↔ |q * n - 2 ^ 14 * product| ≤ 2 * n := by
  have hq : (0 : ℚ) < n := by exact_mod_cast hn
  have hclear : (q : ℚ) - 16384 * product / n = ((q * n - 2 ^ 14 * product : ℤ) : ℚ) / n := by
    push_cast
    rw [sub_div, mul_div_cancel_right₀ _ hq.ne']
  rw [hclear, abs_div, abs_of_pos hq, div_le_iff₀ hq]
  exact_mod_cast Iff.rfl

/-- **A sampled fit is accurate exactly when its products are representable.** -/
theorem fit_accurate_iff (ha : a.InRange) (hb : b.InRange) (hvalid : pairValid 3 a b = true) :
    Accurate a b ↔ Representable a b := by
  obtain ⟨t, ht, hc, hs⟩ := fitSimilarityPair_quotients ha hb hvalid
  obtain ⟨hbig, -, -⟩ := (pairValid_iff ha hb).1 hvalid
  obtain ⟨hdot, hcross⟩ := products_le ha hb hvalid
  have hle := sourceNorm_le ha hb
  have hpos : 0 < sourceNorm a b := by omega
  have hlt : sourceNorm a b < 2 ^ 31 := by norm_num; omega
  obtain ⟨hlo, hhi⟩ : 2 ^ 30 ≤ sourceNorm a b * 2 ^ fitShift (sourceNorm a b) ∧
      sourceNorm a b * 2 ^ fitShift (sourceNorm a b) < 2 ^ 31 := leading_shift hpos hlt
  have hshift : fitShift (sourceNorm a b) ≤ 30 := by
    by_contra hlarge
    have h31 : (2 : ℤ) ^ 31 ≤ 2 ^ fitShift (sourceNorm a b) :=
      pow_le_pow_right₀ (by norm_num) (by omega)
    have hmul : 1 * 2 ^ fitShift (sourceNorm a b) ≤
        sourceNorm a b * 2 ^ fitShift (sourceNorm a b) :=
      mul_le_mul_of_nonneg_right hpos (by positivity)
    rw [one_mul] at hmul
    exact absurd (h31.trans hmul) (not_le.2 hhi)
  have hiff : Accurate a b ↔ |(t.c : ℚ) - 16384 * dotProduct a b / sourceNorm a b| ≤ 2 ∧
      |(t.s : ℚ) - 16384 * crossProduct a b / sourceNorm a b| ≤ 2 := by
    constructor
    · rintro ⟨t', ht', hnear⟩
      obtain rfl := Option.some.inj (ht.symm.trans ht')
      exact hnear
    · exact fun hnear => ⟨t, ht, hnear⟩
  rw [hiff, near_iff hpos, near_iff hpos, hc, hs,
    fitQuotient_accurate_iff hlo hhi hshift hdot, fitQuotient_accurate_iff hlo hhi hshift hcross]
  rfl

end Fit

/-- Two correspondences that are turned by a right angle. -/
theorem fit_accurate_iff_turned : Accurate ⟨8, 8, 8, 8⟩ ⟨328, 8, 8, 328⟩ ↔
    Representable ⟨8, 8, 8, 8⟩ ⟨328, 8, 8, 328⟩ :=
  fit_accurate_iff ⟨by decide, by decide, by decide, by decide⟩
    ⟨by decide, by decide, by decide, by decide⟩ (by decide)

/-- The source distance is just below a power of two and the target is longer: the cosine comes out
with the wrong sign. -/
theorem fit_accurate_wrapped :
    ¬∀ a b : MatchCoordinates, a.InRange → b.InRange → pairValid 3 a b = true → Accurate a b := by
  intro hclaim
  have hfit : fitSimilarityPair ⟨8, 8, 8, 8⟩ ⟨728, 8, 760, 8⟩ = some ⟨-16027, 0, 744, 16⟩ := by
    decide
  obtain ⟨t, ht, hc, -⟩ := hclaim ⟨8, 8, 8, 8⟩ ⟨728, 8, 760, 8⟩
    ⟨by decide, by decide, by decide, by decide⟩ ⟨by decide, by decide, by decide, by decide⟩
    (by decide)
  obtain rfl := Option.some.inj (hfit.symm.trans ht)
  rw [near_iff (by decide)] at hc
  exact absurd hc (by decide)

end Fpc
