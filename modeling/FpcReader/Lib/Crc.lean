/-
**Reflected cyclic redundancy checks.**

The register of a reflected check moves right by one place a bit, and takes the polynomial in when a
one falls out.  The step is linear, so several bytes may be taken in at once as one word; and when
the top bit of the polynomial is set it is injective, so that nothing is forgotten: two messages
that differ only within one word end with different registers.

Main definitions:

* `Crc.bit`, `Crc.bits` — one step of the register, and several;
* `Crc.byte`, `Crc.run` — the register after a byte, and after a message.

Main results:

* `Crc.bit_injective` — **a step forgets nothing**;
* `Crc.run_word` — a word's worth of bytes is taken in at once;
* `Crc.run_residue` — a message with its own checksum ends with a fixed register;
* `Crc.run_window` — **messages that differ within one word end differently**.
-/

import FpcReader.Lib.Bytes
import Mathlib.Data.BitVec

set_option relaxedAutoImplicit false
set_option autoImplicit false

namespace Crc

variable {w : ℕ}

/-! ### Steps -/

/-- One step of the register. -/
def bit (poly r : BitVec w) : BitVec w :=
  if r.getLsbD 0 then (r >>> 1) ^^^ poly else r >>> 1

/-- A number of steps. -/
def bits (poly : BitVec w) : ℕ → BitVec w → BitVec w
  | 0, r => r
  | n + 1, r => bits poly n (bit poly r)

theorem bits_add (poly : BitVec w) (m n : ℕ) (r : BitVec w) :
    bits poly (m + n) r = bits poly n (bits poly m r) := by
  induction m generalizing r with
  | zero => rw [Nat.zero_add, bits]
  | succ m ih => rw [Nat.succ_add, bits, bits, ih]

/-- A step is linear. -/
theorem bit_xor (poly a b : BitVec w) : bit poly (a ^^^ b) = bit poly a ^^^ bit poly b := by
  simp only [bit, BitVec.getLsbD_xor, BitVec.ushiftRight_xor_distrib]
  cases a.getLsbD 0 with
  | false =>
      cases b.getLsbD 0 with
      | false => simp
      | true => simp [BitVec.xor_assoc]
  | true =>
      cases b.getLsbD 0 with
      | false =>
          have hcomm : poly ^^^ b >>> 1 = b >>> 1 ^^^ poly := BitVec.xor_comm _ _
          simp [BitVec.xor_assoc, hcomm]
      | true =>
          have hcancel : poly ^^^ (b >>> 1 ^^^ poly) = b >>> 1 := by
            rw [BitVec.xor_comm (b >>> 1), ← BitVec.xor_assoc, BitVec.xor_self, BitVec.zero_xor]
          simp [BitVec.xor_assoc, hcancel]

theorem bits_xor (poly : BitVec w) (n : ℕ) (a b : BitVec w) :
    bits poly n (a ^^^ b) = bits poly n a ^^^ bits poly n b := by
  induction n generalizing a b with
  | zero => rfl
  | succ n ih => rw [bits, bit_xor, ih, bits, bits]

/-- The bit that falls out becomes the top bit. -/
theorem bit_msb {poly : BitVec w} (hpoly : poly.msb = true) (r : BitVec w) :
    (bit poly r).msb = r.getLsbD 0 := by
  have hw : 0 < w := by
    rcases Nat.eq_zero_or_pos w with rfl | h
    · simp [BitVec.msb, BitVec.getMsbD] at hpoly
    · exact h
  have hshift : (r >>> 1).msb = false := by simp [BitVec.msb_ushiftRight]
  unfold bit
  split_ifs with h
  · rw [BitVec.msb_xor, hshift, hpoly, h]
    rfl
  · rw [hshift]
    simpa using h

/-- A word is its low bit and the others. -/
theorem eq_of_low_of_shift {a b : BitVec w} (hlow : a.getLsbD 0 = b.getLsbD 0)
    (hshift : a >>> 1 = b >>> 1) : a = b := by
  apply BitVec.eq_of_getLsbD_eq
  intro i hi
  cases i with
  | zero => exact hlow
  | succ i =>
      have := congrArg (fun r : BitVec w => r.getLsbD i) hshift
      simpa [BitVec.getLsbD_ushiftRight, Nat.add_comm 1 i] using this

/-- **A step forgets nothing.** -/
theorem bit_injective {poly : BitVec w} (hpoly : poly.msb = true) :
    Function.Injective (bit poly) := by
  intro a b h
  have hlow : a.getLsbD 0 = b.getLsbD 0 := by
    rw [← bit_msb hpoly a, ← bit_msb hpoly b, h]
  apply eq_of_low_of_shift hlow
  simp only [bit, hlow] at h
  split_ifs at h with hb
  · exact (BitVec.xor_left_inj poly).1 h
  · exact h

theorem bits_injective {poly : BitVec w} (hpoly : poly.msb = true) (n : ℕ) :
    Function.Injective (bits poly n) := by
  induction n with
  | zero => exact fun a b h => h
  | succ n ih => exact fun a b h => bit_injective hpoly (ih h)

/-- Bits that stand high enough only move down. -/
theorem bits_shiftLeft (poly : BitVec w) {n v : ℕ} (h : v * 2 ^ n < 2 ^ w) :
    bits poly n (BitVec.ofNat w (v * 2 ^ n)) = BitVec.ofNat w v := by
  induction n with
  | zero => rw [pow_zero, Nat.mul_one, bits]
  | succ n ih =>
      have hhalf : v * 2 ^ (n + 1) = 2 * (v * 2 ^ n) := by ring
      have hlow : (BitVec.ofNat w (v * 2 ^ (n + 1))).getLsbD 0 = false := by
        rw [hhalf, BitVec.getLsbD_ofNat]
        simp
      have hstep : bit poly (BitVec.ofNat w (v * 2 ^ (n + 1))) = BitVec.ofNat w (v * 2 ^ n) := by
        rw [bit, hlow, if_neg (by simp)]
        apply BitVec.eq_of_toNat_eq
        rw [BitVec.toNat_ushiftRight, BitVec.toNat_ofNat, BitVec.toNat_ofNat, Nat.mod_eq_of_lt h,
          Nat.shiftRight_eq_div_pow, Nat.mod_eq_of_lt (by omega), hhalf]
        omega
      rw [bits, hstep, ih (by omega)]

/-! ### Messages -/

/-- The register after a byte. -/
def byte (poly r : BitVec w) (b : UInt8) : BitVec w := bits poly 8 (r ^^^ BitVec.ofNat w b.toNat)

/-- The register after a message. -/
def run (poly : BitVec w) (r : BitVec w) (message : List UInt8) : BitVec w :=
  message.foldl (byte poly) r

@[simp]
theorem run_nil (poly r : BitVec w) : run poly r [] = r := rfl

@[simp]
theorem run_cons (poly r : BitVec w) (b : UInt8) (message : List UInt8) :
    run poly r (b :: message) = run poly (byte poly r b) message := rfl

@[simp]
theorem run_append (poly r : BitVec w) (first rest : List UInt8) :
    run poly r (first ++ rest) = run poly (run poly r first) rest := List.foldl_append

/-- What follows tells registers apart that were different before. -/
theorem run_injective {poly : BitVec w} (hpoly : poly.msb = true) (message : List UInt8) :
    Function.Injective fun r => run poly r message := by
  induction message with
  | nil => exact fun a b h => h
  | cons c message ih =>
      intro a b h
      have hbyte : byte poly a c = byte poly b c := ih h
      exact (BitVec.xor_left_inj _).1 (bits_injective hpoly 8 hbyte)

/-- The number of a message of at most one word has that many bits. -/
theorem leValue_lt_word {message : List UInt8} (h : 8 * message.length ≤ w) :
    Bytes.leValue message < 2 ^ w := by
  have hvalue := Bytes.leValue_lt message
  have hpow : (256 : ℕ) ^ message.length = 2 ^ (8 * message.length) := by
    rw [Nat.pow_mul]
  exact (hpow ▸ hvalue).trans_le (Nat.pow_le_pow_right (by norm_num) h)

/-- Numbers without a common bit. -/
theorem xor_eq_add {a n : ℕ} (ha : a < 2 ^ n) (b : ℕ) : a ^^^ 2 ^ n * b = 2 ^ n * b + a := by
  apply Nat.eq_of_testBit_eq
  intro i
  rw [Nat.testBit_xor, Nat.testBit_two_pow_mul, Nat.testBit_two_pow_mul_add _ ha]
  split_ifs with hi
  · simp [Nat.not_le.2 hi]
  · have hhigh : a.testBit i = false :=
      Nat.testBit_lt_two_pow (ha.trans_le (Nat.pow_le_pow_right (by norm_num) (Nat.not_lt.1 hi)))
    simp [hhigh, Nat.not_lt.1 hi]

/-- **A word's worth of bytes is taken in at once.** -/
theorem run_word (poly r : BitVec w) {message : List UInt8} (h : 8 * message.length ≤ w) :
    run poly r message =
      bits poly (8 * message.length) (r ^^^ BitVec.ofNat w (Bytes.leValue message)) := by
  induction message generalizing r with
  | nil => simp [Bytes.leValue, bits]
  | cons b message ih =>
      rw [List.length_cons] at h
      have hvalue : Bytes.leValue (b :: message) < 2 ^ w :=
        leValue_lt_word (by rw [List.length_cons]; exact h)
      have hb := b.toNat_lt
      have hrest : Bytes.leValue message * 2 ^ 8 < 2 ^ w := by
        rw [Bytes.leValue] at hvalue
        omega
      have hsmall : b.toNat < 2 ^ w := by
        rw [Bytes.leValue] at hvalue
        omega
      -- the two parts of the number have no bit in common
      have hsplit : BitVec.ofNat w (Bytes.leValue (b :: message)) =
          BitVec.ofNat w b.toNat ^^^ BitVec.ofNat w (Bytes.leValue message * 2 ^ 8) := by
        apply BitVec.eq_of_toNat_eq
        have hxor : b.toNat ^^^ Bytes.leValue message * 2 ^ 8 =
            b.toNat + Bytes.leValue message * 2 ^ 8 := by
          rw [Nat.mul_comm, Nat.add_comm]
          exact xor_eq_add hb _
        rw [BitVec.toNat_xor, BitVec.toNat_ofNat, BitVec.toNat_ofNat, BitVec.toNat_ofNat,
          Nat.mod_eq_of_lt hvalue, Nat.mod_eq_of_lt hrest, Nat.mod_eq_of_lt hsmall, hxor,
          Bytes.leValue]
        omega
      have hdown := bits_shiftLeft poly hrest
      rw [run_cons, ih _ (by omega), byte, List.length_cons, Nat.mul_succ, Nat.add_comm _ 8,
        bits_add, hsplit, ← BitVec.xor_assoc,
        bits_xor poly 8 _ (BitVec.ofNat w (Bytes.leValue message * 2 ^ 8)), hdown]

/-- A message that ends with the word of its own register ends with a fixed one: the register is
what would be left of the complement. -/
theorem run_residue {poly : BitVec w} (hpoly : poly.msb = true) (r target : BitVec w)
    (stored : List UInt8) (h : 8 * stored.length ≤ w) :
    run poly r stored = bits poly (8 * stored.length) target ↔
      BitVec.ofNat w (Bytes.leValue stored) = r ^^^ target := by
  rw [run_word poly r h, (bits_injective hpoly _).eq_iff]
  constructor
  · rintro rfl
    rw [← BitVec.xor_assoc, BitVec.xor_self, BitVec.zero_xor]
  · intro hstored
    rw [hstored, ← BitVec.xor_assoc, BitVec.xor_self, BitVec.zero_xor]

/-- **Messages that differ within one word end with different registers.** -/
theorem run_window {poly : BitVec w} (hpoly : poly.msb = true) (r : BitVec w)
    (front back : List UInt8) {a b : List UInt8} (hlen : a.length = b.length)
    (hword : 8 * a.length ≤ w) (h : run poly r (front ++ (a ++ back)) =
      run poly r (front ++ (b ++ back))) : a = b := by
  simp only [run_append] at h
  have hwindow := run_injective hpoly back h
  have hword' : 8 * b.length ≤ w := by
    rw [← hlen]
    exact hword
  have hbits : run poly (run poly r front) a = run poly (run poly r front) b := hwindow
  rw [run_word poly _ hword, run_word poly _ hword', hlen] at hbits
  have hvalue := (BitVec.xor_right_inj _).1 (bits_injective hpoly _ hbits)
  have hnat := congrArg BitVec.toNat hvalue
  rw [BitVec.toNat_ofNat, BitVec.toNat_ofNat, Nat.mod_eq_of_lt (leValue_lt_word hword),
    Nat.mod_eq_of_lt (leValue_lt_word hword')] at hnat
  rw [← Bytes.leBytes_leValue a, ← Bytes.leBytes_leValue b, hnat, hlen]

end Crc
