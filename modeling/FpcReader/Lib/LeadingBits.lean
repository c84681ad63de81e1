/-
**The leading bit of a word.**

The number of zeros before the leading bit tells between which two powers of two a word lies.  A
signed number of a machine has as many bits as its exclusive or with its own half, which is the
same for a number and for its complement; so one count of leading zeros bounds several signed
numbers at once.

Main definitions:

* `LeadingBits.leadingZeros` — the position of the first set bit, from the top;
* `LeadingBits.folded` — a number, or the complement of a negative one.

Main results:

* `LeadingBits.leadingZeros_spec` — **a word lies between the powers of two around it**;
* `LeadingBits.gray_lt_iff` — a number has as many bits as its exclusive or with its half.
-/

import FpcReader.Lib.Words

set_option relaxedAutoImplicit false
set_option autoImplicit false

namespace LeadingBits

open Words

/-- The position of the first set bit, from the top; a word without one has 32. -/
def leadingZeros (w : BitVec 32) : ℕ :=
  ((List.range 32).find? fun i => w.getMsbD i).getD 32

/-- **A word lies between the powers of two around it.** -/
theorem leadingZeros_spec {w : BitVec 32} (hw : w ≠ 0) :
    leadingZeros w < 32 ∧ 2 ^ (31 - leadingZeros w) ≤ w.toNat ∧
      w.toNat < 2 ^ (32 - leadingZeros w) := by
  have hsome : ∃ i, (List.range 32).find? (fun i => w.getMsbD i) = some i := by
    rw [← Option.isSome_iff_exists, List.find?_isSome]
    by_contra hnone
    push Not at hnone
    apply hw
    apply BitVec.eq_of_getMsbD_eq
    intro i hi
    have hbit := hnone i (List.mem_range.2 hi)
    simpa using hbit
  obtain ⟨i, hi⟩ := hsome
  have hzeros : leadingZeros w = i := by rw [leadingZeros, hi, Option.getD_some]
  obtain ⟨hset, hrange, hbefore⟩ := List.find?_range_eq_some.1 hi
  have hlt : i < 32 := List.mem_range.1 hrange
  rw [hzeros]
  refine ⟨hlt, ?_, ?_⟩
  · apply Nat.ge_two_pow_of_testBit
    rw [BitVec.getMsbD_eq_getLsbD] at hset
    rw [BitVec.testBit_toNat]
    simpa [hlt] using hset
  · apply Nat.lt_pow_two_of_testBit
    intro j hj
    by_cases hj32 : j < 32
    · have hclear := hbefore (31 - j) (by omega)
      rw [BitVec.getMsbD_eq_getLsbD, show 32 - 1 - (31 - j) = j by omega] at hclear
      rw [BitVec.testBit_toNat]
      simpa [show 31 - j < 32 by omega] using hclear
    · exact Nat.testBit_lt_two_pow (lt_of_lt_of_le w.isLt (Nat.pow_le_pow_right (by omega)
        (by omega)))

/-- A number, or the complement of a negative one. -/
def folded (a : ℤ) : ℕ := (if 0 ≤ a then a else -a - 1).toNat

theorem folded_lt_iff (a : ℤ) (k : ℕ) : folded a < 2 ^ k ↔ -2 ^ k ≤ a ∧ a < 2 ^ k := by
  have hpos : (0 : ℤ) < 2 ^ k := by positivity
  have hcast : ((2 ^ k : ℕ) : ℤ) = 2 ^ k := by norm_cast
  rw [folded]
  split_ifs with hsign <;> omega

/-- A number has as many bits as its exclusive or with its half. -/
theorem gray_lt_iff (n k : ℕ) : n ^^^ (n / 2) < 2 ^ k ↔ n < 2 ^ k := by
  constructor
  · intro h
    by_contra hlarge
    -- the leading bit of `n` is not one of its half
    have hpos : n ≠ 0 := by
      have := Nat.two_pow_pos k
      omega
    have htop : n.testBit (Nat.log2 n) = true := by
      exact Nat.testBit_log2 hpos
    have hhalf : (n / 2).testBit (Nat.log2 n) = false := by
      rw [← Nat.testBit_succ]
      exact Nat.testBit_lt_two_pow Nat.lt_log2_self
    have hset : (n ^^^ (n / 2)).testBit (Nat.log2 n) = true := by
      rw [Nat.testBit_xor, htop, hhalf]
      rfl
    have hk : k ≤ Nat.log2 n := (Nat.le_log2 hpos).2 (not_lt.1 hlarge)
    exact absurd h (not_lt.2 ((Nat.pow_le_pow_right (by omega) hk).trans
      (Nat.ge_two_pow_of_testBit hset)))
  · intro h
    exact Nat.xor_lt_two_pow h (lt_of_le_of_lt (Nat.div_le_self n 2) h)

/-- Complementing both sides changes no bit of an exclusive or. -/
theorem toNat_not_xor_not (x y : BitVec 32) : (~~~x ^^^ ~~~y) = x ^^^ y := by
  rw [← BitVec.not_xor_left, ← BitVec.not_xor_right, BitVec.not_not]

theorem word_complement (m : ℕ) : word 32 (-(m : ℤ) - 1) = ~~~(BitVec.ofNat 32 m) := by
  rw [BitVec.not_eq_neg_add, ← word_sub, word, BitVec.ofInt_neg, BitVec.ofInt_natCast]
  rfl

theorem toNat_ofNat_xor {n m : ℕ} (hn : n < 2 ^ 32) (hm : m < 2 ^ 32) :
    (BitVec.ofNat 32 m ^^^ BitVec.ofNat 32 n).toNat = n ^^^ m := by
  rw [BitVec.toNat_xor, BitVec.toNat_ofNat, BitVec.toNat_ofNat, Nat.mod_eq_of_lt hn,
    Nat.mod_eq_of_lt hm, Nat.xor_comm]

/-- The exclusive or of a signed number with its half, as the machine computes it. -/
theorem toNat_xor_half {a : ℤ} (hlo : -2 ^ 31 ≤ a) (hhi : a < 2 ^ 31) :
    (word 32 (shiftFloor a 1) ^^^ word 32 a).toNat = folded a ^^^ (folded a / 2) := by
  rw [shiftFloor_eq, pow_one]
  by_cases hsign : 0 ≤ a
  · obtain ⟨n, rfl⟩ := Int.eq_ofNat_of_zero_le hsign
    have hhalf : ((n : ℤ) / 2) = ((n / 2 : ℕ) : ℤ) := by omega
    have hlt : n < 2 ^ 32 := by omega
    have hhalf_lt : n / 2 < 2 ^ 32 := by omega
    rw [folded, if_pos hsign, hhalf, word, word, BitVec.ofInt_natCast, BitVec.ofInt_natCast,
      Int.toNat_natCast, toNat_ofNat_xor hlt hhalf_lt]
  · obtain ⟨n, hn⟩ := Int.eq_ofNat_of_zero_le (show 0 ≤ -a - 1 by omega)
    have ha : a = -(n : ℤ) - 1 := by omega
    have hhalf : a / 2 = -((n / 2 : ℕ) : ℤ) - 1 := by omega
    have hlt : n < 2 ^ 32 := by omega
    have hhalf_lt : n / 2 < 2 ^ 32 := by omega
    rw [folded, if_neg hsign, hn, hhalf, ha, word_complement, word_complement, toNat_not_xor_not,
      Int.toNat_natCast, toNat_ofNat_xor hlt hhalf_lt]

end LeadingBits
