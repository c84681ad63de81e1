/-
**Descriptor distance.**

A descriptor is sixteen bytes, two halves of eight; turning a finger by half a turn exchanges the
halves, so the distance of two descriptors is the smaller of two Hamming distances.  Bits are
counted four bytes at a time by the usual sideways addition.

Main definitions:

* `Fpc.popcount32` — the sideways bit count;
* `Fpc.descriptorDistance128` — the distance of two descriptors.

Main results:

* `Fpc.popcount32_le`, `Fpc.descriptorDistance128_lt` — **a distance fits in a byte**, so storing
  it in the byte matrix of the matcher loses nothing.
-/

import FpcReader.Native.Views
import Mathlib.Tactic.IntervalCases

set_option relaxedAutoImplicit false
set_option autoImplicit false

namespace Fpc

/-- The number of set bits, by sideways addition. -/
def popcount32 (value : BitVec 32) : ℕ :=
  let value := value - ((value >>> 1) &&& 0x55555555#32)
  let value := (value &&& 0x33333333#32) + ((value >>> 2) &&& 0x33333333#32)
  ((((value + (value >>> 4)) &&& 0x0f0f0f0f#32) * 0x01010101#32) >>> 24).toNat

/-- The smaller of the Hamming distances to `second` and to `second` with its halves exchanged. -/
def descriptorDistance128 (first second : List UInt8) : ℕ :=
  let normal := ([0, 4, 8, 12].map fun i =>
    popcount32 (le32 (first.drop i) ^^^ le32 (second.drop i))).sum
  let rotated := ([0, 4, 8, 12].map fun i =>
    popcount32 (le32 (first.drop i) ^^^ le32 (second.drop (i ^^^ 8)))).sum
  if normal < rotated then normal else rotated

/-! ### A distance fits in a byte -/

/-- Byte `k` of a word masked by `0x0f0f0f0f` is at most fifteen. -/
theorem masked_byte_le (x k : ℕ) (hk : k < 4) :
    (x &&& 0x0f0f0f0f) / 2 ^ (8 * k) % 2 ^ 8 ≤ 15 := by
  rw [Nat.and_div_two_pow, Nat.and_mod_two_pow]
  have hmask : (0x0f0f0f0f : ℕ) / 2 ^ (8 * k) % 2 ^ 8 = 15 := by
    interval_cases k <;> rfl
  rw [hmask]
  exact Nat.and_le_right

/-- The bytes of a masked word are added up without a carry out of the top byte. -/
theorem masked_sum_le (x : ℕ) : (x &&& 0x0f0f0f0f) * 0x01010101 % 2 ^ 32 / 2 ^ 24 ≤ 60 := by
  have h0 := masked_byte_le x 0 (by norm_num)
  have h1 := masked_byte_le x 1 (by norm_num)
  have h2 := masked_byte_le x 2 (by norm_num)
  have h3 := masked_byte_le x 3 (by norm_num)
  have hle : x &&& 0x0f0f0f0f ≤ 0x0f0f0f0f := Nat.and_le_right
  generalize x &&& 0x0f0f0f0f = y at *
  norm_num at h0 h1 h2 h3
  obtain ⟨a, b, c, d, hy, ha, hb, hc, hd⟩ : ∃ a b c d : ℕ,
      y = a + 2 ^ 8 * b + 2 ^ 16 * c + 2 ^ 24 * d ∧ a ≤ 15 ∧ b ≤ 15 ∧ c ≤ 15 ∧ d ≤ 15 :=
    ⟨y % 256, y / 256 % 256, y / 65536 % 256, y / 16777216 % 256, by omega, by omega, by omega,
      by omega, by omega⟩
  have hprod : y * 0x01010101 = a + 2 ^ 8 * (a + b) + 2 ^ 16 * (a + b + c) +
      2 ^ 24 * (a + b + c + d) + 2 ^ 32 * (b + c + d + 2 ^ 8 * (c + d) + 2 ^ 16 * d) := by
    rw [hy]
    ring
  rw [hprod, Nat.add_mul_mod_self_left, Nat.mod_eq_of_lt (by omega)]
  omega

theorem popcount32_le (value : BitVec 32) : popcount32 value ≤ 60 := by
  have h : ∀ z : BitVec 32, (((z &&& 0x0f0f0f0f#32) * 0x01010101#32) >>> 24).toNat ≤ 60 := by
    intro z
    rw [BitVec.toNat_ushiftRight, BitVec.toNat_mul, BitVec.toNat_and, Nat.shiftRight_eq_div_pow]
    exact masked_sum_le z.toNat
  exact h _

/-- **A descriptor distance fits in a byte.** -/
theorem descriptorDistance128_lt (first second : List UInt8) :
    descriptorDistance128 first second < 256 := by
  have h : ∀ f : ℕ → ℕ, (∀ i, f i ≤ 60) → ([0, 4, 8, 12].map f).sum < 256 := by
    intro f hf
    have h0 := hf 0
    have h4 := hf 4
    have h8 := hf 8
    have h12 := hf 12
    simp only [List.map_cons, List.map_nil, List.sum_cons, List.sum_nil]
    omega
  unfold descriptorDistance128
  extract_lets normal rotated
  have hn : normal < 256 := h _ fun i => popcount32_le _
  have hr : rotated < 256 := h _ fun i => popcount32_le _
  clear_value normal rotated
  split_ifs
  · exact hn
  · exact hr

end Fpc
