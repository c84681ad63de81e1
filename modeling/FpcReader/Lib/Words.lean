/-
**Two's-complement words as images of integers.**

Recovered C code computes on `uint32_t` and reads results back as signed numbers.  Every operation
of such an expression (sum, difference, product, left shift) is a ring operation modulo `2 ^ w`, so
the whole expression is the image of the same expression over `ℤ`; reading it back is exact as soon
as the integer value fits.  This module states both facts once, for every width.

Main definitions:

* `Words.word` — the word an integer is cast to;
* `Words.shiftFloor` — the explicit arithmetic shift to the right, as portable C writes it.

Main results:

* `Words.toInt_word` — **a value that fits is read back unchanged**;
* `Words.natAbs_toInt_word_le` — reading back never increases the absolute value, wrapped or not;
* `Words.shiftFloor_eq` — the portable shift is the floor division.
-/

import Mathlib.Tactic.Linarith
import Mathlib.Tactic.Ring
import Mathlib.Data.Int.Basic

set_option relaxedAutoImplicit false
set_option autoImplicit false

namespace Words

/-! ### Casting an integer to a word -/

/-- The word of width `w` an integer is cast to. -/
def word (w : ℕ) (z : ℤ) : BitVec w := BitVec.ofInt w z

@[simp] theorem word_mul (w : ℕ) (a b : ℤ) : word w a * word w b = word w (a * b) :=
  (BitVec.ofInt_mul a b).symm

@[simp] theorem word_add (w : ℕ) (a b : ℤ) : word w a + word w b = word w (a + b) :=
  (BitVec.ofInt_add a b).symm

@[simp] theorem word_sub (w : ℕ) (a b : ℤ) : word w a - word w b = word w (a - b) := by
  rw [BitVec.sub_eq_add_neg, word, word, ← BitVec.ofInt_neg, ← BitVec.ofInt_add, ← sub_eq_add_neg,
    word]

@[simp] theorem word_shiftLeft (w : ℕ) (a : ℤ) (k : ℕ) :
    word w a <<< k = word w (a * 2 ^ k) := by
  rw [BitVec.shiftLeft_eq_mul_twoPow, word, word, BitVec.ofInt_mul]
  congr 1
  apply BitVec.eq_of_toNat_eq
  rw [BitVec.toNat_twoPow, BitVec.toNat_ofInt]
  norm_cast

/-- A step added once more to a word that has been advanced `n` times. -/
theorem word_advance {w : ℕ} (r q : BitVec w) (n : ℕ) :
    r + BitVec.ofNat w n * q + q = r + BitVec.ofNat w (n + 1) * q := by
  rw [BitVec.ofNat_add, BitVec.add_mul, BitVec.add_assoc]
  simp

theorem toInt_word_eq_bmod (w : ℕ) (z : ℤ) : (word w z).toInt = z.bmod (2 ^ w) :=
  BitVec.toInt_ofInt z

/-- **A value that fits is read back unchanged.** -/
theorem toInt_word {w : ℕ} {z : ℤ} (hw : 0 < w) (hlo : -2 ^ (w - 1) ≤ z) (hhi : z < 2 ^ (w - 1)) :
    (word w z).toInt = z :=
  BitVec.toInt_ofInt_eq_self hw (by exact_mod_cast hlo) (by exact_mod_cast hhi)

/-- Reading a word back gives the least absolute residue: wrapped or not, its absolute value is at
most that of the integer the word was cast from. -/
theorem natAbs_toInt_word_le (w : ℕ) (z : ℤ) : (word w z).toInt.natAbs ≤ z.natAbs := by
  rw [toInt_word_eq_bmod]
  have hpos : 0 < 2 ^ w := Nat.two_pow_pos w
  have hlo := Int.le_bmod (x := z) hpos
  have hhi := Int.bmod_lt (x := z) hpos
  rcases Nat.lt_or_ge (2 * z.natAbs) (2 ^ w) with h | h
  · rw [Int.bmod_eq_of_le (by omega) (by omega)]
  · omega

theorem word_eq_zero_iff {w : ℕ} {z : ℤ} (hlo : -2 ^ w < z) (hhi : z < 2 ^ w) :
    word w z = 0 ↔ z = 0 := by
  constructor
  · intro h
    have hz : (BitVec.ofInt w z).toNat = 0 := by
      rw [word] at h
      rw [h]
      rfl
    rw [BitVec.toNat_ofInt] at hz
    have hdvd : ((2 ^ w : ℕ) : ℤ) ∣ z := by
      apply Int.dvd_of_emod_eq_zero
      have hnonneg := Int.emod_nonneg z (b := ((2 ^ w : ℕ) : ℤ)) (by positivity)
      omega
    obtain ⟨k, hk⟩ := hdvd
    have hp : (0 : ℤ) < 2 ^ w := by positivity
    push_cast at hk
    have hk0 : k = 0 := by
      rcases lt_trichotomy k 0 with h' | h' | h'
      · nlinarith
      · exact h'
      · nlinarith
    simp [hk, hk0]
  · rintro rfl
    rfl

/-! ### The portable arithmetic shift -/

/-- Explicit arithmetic right shift (floor division), with truncating division only. -/
def shiftFloor (value : ℤ) (bits : ℕ) : ℤ :=
  let divisor : ℤ := 2 ^ bits
  if 0 ≤ value then value.tdiv divisor else -((-value + divisor - 1).tdiv divisor)

/-- **The portable shift is the floor division.** -/
theorem shiftFloor_eq (value : ℤ) (bits : ℕ) : shiftFloor value bits = value / 2 ^ bits := by
  have hd : (0 : ℤ) < 2 ^ bits := by positivity
  simp only [shiftFloor]
  split_ifs with h
  · exact Int.tdiv_eq_ediv_of_nonneg h
  · have hneg : 0 ≤ -value + 2 ^ bits - 1 := by omega
    rw [Int.tdiv_eq_ediv_of_nonneg hneg]
    have h1 := Int.mul_ediv_add_emod (-value + 2 ^ bits - 1) (2 ^ bits)
    have h2 := Int.emod_nonneg (-value + 2 ^ bits - 1) hd.ne'
    have h3 := Int.emod_lt_of_pos (-value + 2 ^ bits - 1) hd
    symm
    rw [Int.ediv_eq_iff_of_pos hd]
    constructor <;> nlinarith

end Words
