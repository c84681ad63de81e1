/-
**Little-endian bytes.**

Fixed-width numbers are stored least significant byte first, one after the other, and read back by
cutting a byte list into pieces of known length.

Main definitions:

* `Bytes.leBytes`, `Bytes.leValue` — a number as `w` bytes, and the number of a byte list;
* `Bytes.leWords` — the first `n` words of `w` bytes each;
* `Bytes.cut` — the first `n` bytes and the rest, when there are that many.

Main results:

* `Bytes.leValue_leBytes`, `Bytes.leBytes_leValue` — the round trips of one number;
* `Bytes.leWords_flatMap`, `Bytes.flatMap_leWords` — **the round trips of a sequence of words**.
-/

import Mathlib.Data.List.Basic
import Mathlib.Data.Nat.Notation
import Mathlib.Tactic.Ring
import Mathlib.Tactic.NormNum

set_option relaxedAutoImplicit false
set_option autoImplicit false

namespace Bytes

/-! ### One number -/

/-- The low `w` bytes of a number, least significant first. -/
def leBytes : ℕ → ℕ → List UInt8
  | 0, _ => []
  | w + 1, n => UInt8.ofNat n :: leBytes w (n / 256)

/-- The number a byte list stands for. -/
def leValue : List UInt8 → ℕ
  | [] => 0
  | b :: bs => b.toNat + 256 * leValue bs

@[simp]
theorem leBytes_length (w n : ℕ) : (leBytes w n).length = w := by
  induction w generalizing n with
  | zero => rfl
  | succ w ih => rw [leBytes, List.length_cons, ih]

theorem leValue_lt (bs : List UInt8) : leValue bs < 256 ^ bs.length := by
  induction bs with
  | nil => exact Nat.one_pos
  | cons b bs ih =>
      have hb := b.toNat_lt
      rw [leValue, List.length_cons, pow_succ]
      omega

/-- Reading a stored number gives it back modulo the width. -/
theorem leValue_leBytes (w n : ℕ) : leValue (leBytes w n) = n % 256 ^ w := by
  induction w generalizing n with
  | zero => rw [leBytes, leValue, pow_zero, Nat.mod_one]
  | succ w ih =>
      have hbyte : (UInt8.ofNat n).toNat = n % 256 := UInt8.toNat_ofNat'
      have hsplit : n % (256 * 256 ^ w) = n % 256 + 256 * (n / 256 % 256 ^ w) := Nat.mod_mul
      rw [leBytes, leValue, ih, hbyte, pow_succ', hsplit]

theorem leValue_leBytes_of_lt {w n : ℕ} (h : n < 256 ^ w) : leValue (leBytes w n) = n := by
  rw [leValue_leBytes, Nat.mod_eq_of_lt h]

/-- Storing the number of a byte list gives the list back. -/
theorem leBytes_leValue (bs : List UInt8) : leBytes bs.length (leValue bs) = bs := by
  induction bs with
  | nil => rfl
  | cons b bs ih =>
      have hb := b.toNat_lt
      have hdiv : (b.toNat + 256 * leValue bs) / 256 = leValue bs := by omega
      have hhead : UInt8.ofNat (b.toNat + 256 * leValue bs) = b := by
        apply UInt8.toNat_inj.1
        rw [UInt8.toNat_ofNat']
        omega
      rw [List.length_cons, leBytes, leValue, hdiv, ih, hhead]

/-! ### Cutting -/

/-- The first `n` bytes and the rest; `none` when there are fewer than `n`. -/
def cut (n : ℕ) (bs : List UInt8) : Option (List UInt8 × List UInt8) :=
  if n ≤ bs.length then some (bs.take n, bs.drop n) else none

theorem cut_eq_some {n : ℕ} {bs first rest : List UInt8} :
    cut n bs = some (first, rest) ↔ bs = first ++ rest ∧ first.length = n := by
  unfold cut
  constructor
  · intro h
    split_ifs at h with hn
    obtain ⟨rfl, rfl⟩ := Prod.mk.inj (Option.some.inj h)
    exact ⟨(List.take_append_drop n bs).symm, List.length_take_of_le hn⟩
  · rintro ⟨rfl, rfl⟩
    simp

/-- Cutting a concatenation at its seam. -/
@[simp]
theorem cut_append (first rest : List UInt8) :
    cut first.length (first ++ rest) = some (first, rest) :=
  cut_eq_some.2 ⟨rfl, rfl⟩

theorem cut_append_of_length {n : ℕ} {first : List UInt8} (h : first.length = n)
    (rest : List UInt8) : cut n (first ++ rest) = some (first, rest) :=
  cut_eq_some.2 ⟨rfl, h⟩

/-! ### Sequences of words -/

/-- The first `n` words of `w` bytes each. -/
def leWords (w : ℕ) : ℕ → List UInt8 → List ℕ
  | 0, _ => []
  | n + 1, bs => leValue (bs.take w) :: leWords w n (bs.drop w)

@[simp]
theorem leWords_length (w n : ℕ) (bs : List UInt8) : (leWords w n bs).length = n := by
  induction n generalizing bs with
  | zero => rfl
  | succ n ih => rw [leWords, List.length_cons, ih]

/-- Only the bytes of the words matter. -/
theorem leWords_append {w n : ℕ} {bs : List UInt8} (h : bs.length = w * n) (rest : List UInt8) :
    leWords w n (bs ++ rest) = leWords w n bs := by
  induction n generalizing bs with
  | zero => rfl
  | succ n ih =>
      rw [Nat.mul_succ] at h
      rw [leWords, leWords, List.take_append_of_le_length (by omega),
        List.drop_append_of_le_length (by omega), ih (by rw [List.length_drop]; omega)]

/-- The words behind the first `m`. -/
theorem leWords_drop (w m n : ℕ) (bs : List UInt8) :
    (leWords w (m + n) bs).drop m = leWords w n (bs.drop (w * m)) := by
  induction m generalizing bs with
  | zero => simp
  | succ m ih =>
      rw [Nat.succ_add, leWords, List.drop_succ_cons, ih, List.drop_drop, Nat.mul_succ,
        Nat.add_comm]

/-- Reading stored words gives them back. -/
theorem leWords_flatMap {w : ℕ} {ws : List ℕ} (h : ∀ a ∈ ws, a < 256 ^ w) :
    leWords w ws.length (ws.flatMap (leBytes w)) = ws := by
  induction ws with
  | nil => rfl
  | cons a ws ih =>
      have htake : (leBytes w a ++ ws.flatMap (leBytes w)).take w = leBytes w a :=
        List.take_left' (leBytes_length w a)
      have hdrop : (leBytes w a ++ ws.flatMap (leBytes w)).drop w = ws.flatMap (leBytes w) :=
        List.drop_left' (leBytes_length w a)
      rw [List.flatMap_cons, List.length_cons, leWords, htake, hdrop,
        leValue_leBytes_of_lt (h a (by simp)), ih fun b hb => h b (by simp [hb])]

/-- Storing the words read from a byte list gives the list back. -/
theorem flatMap_leWords {w n : ℕ} {bs : List UInt8} (h : bs.length = w * n) :
    (leWords w n bs).flatMap (leBytes w) = bs := by
  induction n generalizing bs with
  | zero =>
      rw [Nat.mul_zero, List.length_eq_zero_iff] at h
      rw [h]
      rfl
  | succ n ih =>
      have htake : (bs.take w).length = w := by
        rw [List.length_take, h, Nat.mul_succ]
        omega
      have hdrop : (bs.drop w).length = w * n := by
        rw [List.length_drop, h, Nat.mul_succ]
        omega
      have hhead : leBytes w (leValue (bs.take w)) = bs.take w := by
        conv_lhs => rw [← htake]
        rw [htake]
        have := leBytes_leValue (bs.take w)
        rwa [htake] at this
      rw [leWords, List.flatMap_cons, ih hdrop, hhead, List.take_append_drop]

theorem mem_leWords_lt {w n : ℕ} {bs : List UInt8} {a : ℕ} (h : a ∈ leWords w n bs) :
    a < 256 ^ w := by
  induction n generalizing bs with
  | zero => simp [leWords] at h
  | succ n ih =>
      rw [leWords, List.mem_cons] at h
      rcases h with rfl | h
      · exact (leValue_lt _).trans_le
          (Nat.pow_le_pow_right (by norm_num) (List.length_take_le w bs))
      · exact ih h

end Bytes
