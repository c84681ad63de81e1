/-
**Counting the bits of a word sideways.**

The usual bit count of a 32-bit word adds neighbouring bits, then neighbouring pairs, then
neighbouring nibbles, and collects the four byte counts with one multiplication.  No stage carries
from one byte into the next, so every stage acts on the four bytes separately and the whole count
is the sum of four byte counts.  Words are natural numbers here.

Main definitions:

* `BitCount.quad` — a word from its four bytes;
* `BitCount.byteCount` — the three stages on one byte.

Main results:

* `BitCount.quad_and`, `BitCount.quad_shift_and` — masks act on the bytes separately;
* `BitCount.sideways_quad` — **the sideways count is the sum of the byte counts**;
* `BitCount.byteCount_eq` — the count of a byte is the number of its set bits.
-/

import Mathlib.Algebra.BigOperators.Group.Finset.Basic
import Mathlib.Algebra.Order.BigOperators.Group.Finset
import Mathlib.Algebra.BigOperators.Intervals
import Mathlib.Tactic.IntervalCases
import Mathlib.Tactic.NormNum
import Mathlib.Tactic.Ring

set_option relaxedAutoImplicit false
set_option autoImplicit false

namespace BitCount

/-! ### Words as four bytes -/

/-- The word with the bytes `a`, `b`, `c`, `d`, least significant first. -/
def quad (a b c d : ℕ) : ℕ := a + 2 ^ 8 * b + 2 ^ 16 * c + 2 ^ 24 * d

/-- The byte at position `k` of a word. -/
def byteOf (n k : ℕ) : ℕ := n / 2 ^ (8 * k) % 2 ^ 8

theorem byteOf_lt (n k : ℕ) : byteOf n k < 256 := Nat.mod_lt _ (by norm_num)

/-- Every word is the quadruple of its bytes. -/
theorem quad_byteOf {n : ℕ} (hn : n < 2 ^ 32) :
    quad (byteOf n 0) (byteOf n 1) (byteOf n 2) (byteOf n 3) = n := by
  simp only [quad, byteOf]
  norm_num
  omega

section Quad

variable {a b c d : ℕ} (ha : a < 256) (hb : b < 256) (hc : c < 256) (hd : d < 256)

include ha hb hc hd

theorem byteOf_quad : byteOf (quad a b c d) 0 = a ∧ byteOf (quad a b c d) 1 = b ∧
    byteOf (quad a b c d) 2 = c ∧ byteOf (quad a b c d) 3 = d := by
  simp only [quad, byteOf]
  norm_num
  omega

theorem quad_lt : quad a b c d < 2 ^ 32 := by
  simp only [quad]
  omega

/-- A mask of four equal bytes masks every byte. -/
theorem quad_and {m : ℕ} (hm : m < 256) :
    quad a b c d &&& quad m m m m = quad (a &&& m) (b &&& m) (c &&& m) (d &&& m) := by
  have hlt : quad a b c d &&& quad m m m m < 2 ^ 32 :=
    lt_of_le_of_lt Nat.and_le_left (quad_lt ha hb hc hd)
  have hbytes := byteOf_quad ha hb hc hd
  have hmasks := byteOf_quad hm hm hm hm
  have hand : ∀ k, byteOf (quad a b c d &&& quad m m m m) k =
      byteOf (quad a b c d) k &&& byteOf (quad m m m m) k := by
    intro k
    rw [byteOf, Nat.and_div_two_pow, Nat.and_mod_two_pow]
    rfl
  rw [← quad_byteOf hlt, hand, hand, hand, hand, hbytes.1, hbytes.2.1, hbytes.2.2.1,
    hbytes.2.2.2, hmasks.1, hmasks.2.1, hmasks.2.2.1, hmasks.2.2.2]

omit hd in
/-- A shift by less than a byte mixes every byte with its upper neighbour only. -/
theorem quad_shift {k : ℕ} (hk : k ≤ 8) :
    quad a b c d / 2 ^ k = quad ((a + 256 * b) / 2 ^ k % 256) ((b + 256 * c) / 2 ^ k % 256)
      ((c + 256 * d) / 2 ^ k % 256) (d / 2 ^ k) := by
  simp only [quad]
  interval_cases k <;> omega

/-- A mask that clears what the shift brings in from the upper neighbour leaves four separate
bytes. -/
theorem quad_shift_and {k m : ℕ} (hk : k ≤ 8) (hm : m < 256)
    (hclear : ∀ x < 256, ∀ y < 256, (x + 256 * y) / 2 ^ k % 256 &&& m = x / 2 ^ k &&& m) :
    quad a b c d / 2 ^ k &&& quad m m m m =
      quad (a / 2 ^ k &&& m) (b / 2 ^ k &&& m) (c / 2 ^ k &&& m) (d / 2 ^ k &&& m) := by
  have hlt : ∀ x, x % 256 < 256 := fun x => Nat.mod_lt _ (by norm_num)
  rw [quad_shift ha hb hc hk,
    quad_and (hlt _) (hlt _) (hlt _) (lt_of_le_of_lt (Nat.div_le_self _ _) hd) hm,
    hclear a ha b hb, hclear b hb c hc, hclear c hc d hd]

end Quad

/-- What a shift by `k` brings into a byte from its upper neighbour lies above bit `7 - k`. -/
theorem shift_and_clear {k m : ℕ} (hk : k ≤ 8) (hm : m < 2 ^ (8 - k)) (x y : ℕ) :
    (x + 256 * y) / 2 ^ k % 256 &&& m = x / 2 ^ k &&& m := by
  have hmod : ∀ n, n &&& m = n % 2 ^ (8 - k) &&& m := by
    intro n
    conv_lhs => rw [← Nat.mod_eq_of_lt (lt_of_le_of_lt (Nat.and_le_right (n := n)) hm),
      Nat.and_mod_two_pow, Nat.mod_eq_of_lt hm]
  rw [hmod, hmod (x / 2 ^ k)]
  congr 1
  interval_cases k <;> omega

/-! ### The stages of the count -/

/-- The pair counts of a byte. -/
def pairCount (a : ℕ) : ℕ := a - (a / 2 ^ 1 &&& 0x55)

/-- The nibble counts of a byte. -/
def nibbleCount (a : ℕ) : ℕ := (pairCount a &&& 0x33) + (pairCount a / 2 ^ 2 &&& 0x33)

/-- The count of a byte: the sum of its two nibble counts. -/
def byteCount (a : ℕ) : ℕ := nibbleCount a % 16 + nibbleCount a / 16

theorem pairCount_lt : ∀ a < 256, pairCount a < 256 := by
  decide +kernel

theorem nibbleCount_le : ∀ a < 256, nibbleCount a % 16 ≤ 4 ∧ nibbleCount a / 16 ≤ 4 := by
  decide +kernel

/-- **The count of a byte is the number of its set bits.** -/
theorem byteCount_eq : ∀ a < 256,
    byteCount a = ∑ i ∈ Finset.range 8, (a.testBit i).toNat := by
  decide +kernel

/-- The sideways count of a word. -/
def sideways (n : ℕ) : ℕ :=
  let v := n - (n / 2 ^ 1 &&& 0x55555555)
  let v := (v &&& 0x33333333) + (v / 2 ^ 2 &&& 0x33333333)
  ((v + v / 2 ^ 4) &&& 0x0f0f0f0f) * 0x01010101 % 2 ^ 32 / 2 ^ 24

section Sideways

variable {a b c d : ℕ} (ha : a < 256) (hb : b < 256) (hc : c < 256) (hd : d < 256)

include ha hb hc hd

theorem pairs_quad : quad a b c d - (quad a b c d / 2 ^ 1 &&& 0x55555555) =
    quad (pairCount a) (pairCount b) (pairCount c) (pairCount d) := by
  have hle : ∀ x, x / 2 ^ 1 &&& 0x55 ≤ x := fun x => Nat.and_le_left.trans (Nat.div_le_self _ _)
  have hmask : (0x55555555 : ℕ) = quad 0x55 0x55 0x55 0x55 := rfl
  have h1 := hle a
  have h2 := hle b
  have h3 := hle c
  have h4 := hle d
  rw [hmask, quad_shift_and ha hb hc hd (by norm_num) (by norm_num)
    fun x _ y _ => shift_and_clear (by norm_num) (by norm_num) x y]
  simp only [quad, pairCount]
  omega

theorem nibbles_quad :
    (quad a b c d &&& 0x33333333) + (quad a b c d / 2 ^ 2 &&& 0x33333333) =
      quad ((a &&& 0x33) + (a / 2 ^ 2 &&& 0x33)) ((b &&& 0x33) + (b / 2 ^ 2 &&& 0x33))
        ((c &&& 0x33) + (c / 2 ^ 2 &&& 0x33)) ((d &&& 0x33) + (d / 2 ^ 2 &&& 0x33)) := by
  have hmask : (0x33333333 : ℕ) = quad 0x33 0x33 0x33 0x33 := rfl
  rw [hmask, quad_and ha hb hc hd (by norm_num),
    quad_shift_and ha hb hc hd (by norm_num) (by norm_num)
      fun x _ y _ => shift_and_clear (by norm_num) (by norm_num) x y]
  simp only [quad]
  ring

end Sideways

/-- A nibble sum of a byte whose nibbles are small does not carry, whatever the upper neighbour
shifts in. -/
theorem nibble_sum {x y : ℕ} (hx : x % 16 ≤ 4 ∧ x / 16 ≤ 4) (hy : y % 16 ≤ 4 ∧ y / 16 ≤ 4) :
    x + (x + 256 * y) / 2 ^ 4 % 256 < 256 ∧
      (x + (x + 256 * y) / 2 ^ 4 % 256) &&& 0x0f = x % 16 + x / 16 := by
  have hshift : (x + 256 * y) / 2 ^ 4 % 256 = x / 16 + 16 * (y % 16) := by
    norm_num
    omega
  rw [hshift]
  refine ⟨by omega, (Nat.and_two_pow_sub_one_eq_mod (x + (x / 16 + 16 * (y % 16))) 4).trans ?_⟩
  omega

/-- Multiplying by `0x01010101` collects small bytes in the top one. -/
theorem collect_quad {a b c d : ℕ} (h : a + b + c + d < 256) :
    quad a b c d * 0x01010101 % 2 ^ 32 / 2 ^ 24 = a + b + c + d := by
  have hprod : quad a b c d * 0x01010101 = a + 2 ^ 8 * (a + b) + 2 ^ 16 * (a + b + c) +
      2 ^ 24 * (a + b + c + d) + 2 ^ 32 * (b + c + d + 2 ^ 8 * (c + d) + 2 ^ 16 * d) := by
    rw [quad]
    ring
  rw [hprod, Nat.add_mul_mod_self_left, Nat.mod_eq_of_lt (by omega)]
  omega

/-- **The sideways count is the sum of the byte counts.** -/
theorem sideways_quad {a b c d : ℕ} (ha : a < 256) (hb : b < 256) (hc : c < 256) (hd : d < 256) :
    sideways (quad a b c d) = byteCount a + byteCount b + byteCount c + byteCount d := by
  have h1 := nibbleCount_le a ha
  have h2 := nibbleCount_le b hb
  have h3 := nibbleCount_le c hc
  have h4 := nibbleCount_le d hd
  have hsmall : ∀ x, nibbleCount x % 16 ≤ 4 ∧ nibbleCount x / 16 ≤ 4 → nibbleCount x < 256 := by
    omega
  have hmask : (0x0f0f0f0f : ℕ) = quad 0x0f 0x0f 0x0f 0x0f := rfl
  have htop := nibble_sum h4 (y := 0) (by norm_num)
  rw [Nat.mul_zero, Nat.add_zero, Nat.mod_eq_of_lt
    (lt_of_le_of_lt (Nat.div_le_self _ _) (hsmall d h4))] at htop
  have hsum : ∀ p q r s p' q' r' s' : ℕ, quad p q r s + quad p' q' r' s' =
      quad (p + p') (q + q') (r + r') (s + s') := by
    intros
    simp only [quad]
    ring
  rw [sideways, pairs_quad ha hb hc hd, nibbles_quad (pairCount_lt a ha) (pairCount_lt b hb)
    (pairCount_lt c hc) (pairCount_lt d hd)]
  change ((quad (nibbleCount a) (nibbleCount b) (nibbleCount c) (nibbleCount d) +
    quad (nibbleCount a) (nibbleCount b) (nibbleCount c) (nibbleCount d) / 2 ^ 4) &&&
      0x0f0f0f0f) * 0x01010101 % 2 ^ 32 / 2 ^ 24 = _
  rw [quad_shift (hsmall a h1) (hsmall b h2) (hsmall c h3) (by norm_num), hsum,
    hmask, quad_and (nibble_sum h1 h2).1 (nibble_sum h2 h3).1 (nibble_sum h3 h4).1 htop.1
      (by norm_num), (nibble_sum h1 h2).2, (nibble_sum h2 h3).2, (nibble_sum h3 h4).2, htop.2]
  rw [collect_quad (by omega)]
  rfl

/-- **The sideways count of a word is the number of its set bits.** -/
theorem sideways_eq {n : ℕ} (hn : n < 2 ^ 32) :
    sideways n = ∑ i ∈ Finset.range 32, (n.testBit i).toNat := by
  have hbyte : ∀ k, byteCount (byteOf n k) =
      ∑ i ∈ Finset.range 8, (n.testBit (8 * k + i)).toNat := by
    intro k
    rw [byteCount_eq _ (byteOf_lt n k)]
    refine Finset.sum_congr rfl ?_
    intro i hi
    rw [byteOf, Nat.testBit_mod_two_pow, Nat.testBit_div_two_pow, Nat.add_comm]
    simp [Finset.mem_range.1 hi]
  have hsplit : (32 : ℕ) = 8 + 8 + 8 + 8 := rfl
  conv_lhs => rw [← quad_byteOf hn]
  rw [sideways_quad (byteOf_lt n 0) (byteOf_lt n 1) (byteOf_lt n 2) (byteOf_lt n 3), hbyte, hbyte,
    hbyte, hbyte, hsplit, Finset.sum_range_add, Finset.sum_range_add, Finset.sum_range_add]
  simp

end BitCount
