/-
**Bits packed in words.**

A bit array kept in words of `w` bits: bit `k` is bit `k % w` of word `k / w`.  A loop that ORs
single bits into the array adds exactly the bits it visits, in whatever order it visits them, and an
array is determined by its bits.

Main definitions:

* `PackedBits.bitAt` — reading a bit;
* `PackedBits.takeBit` — a bit as a word of its own, by a shift and a mask;
* `PackedBits.putBit` — ORing such a word into the array.

Main results:

* `PackedBits.bitAt_putBit` — what one OR changes;
* `PackedBits.bitAt_foldl` — **a loop of ORs adds the bits it hits and no others**;
* `PackedBits.ext_bitAt` — two arrays of one length with the same bits are equal.
-/

import Mathlib.Data.List.GetD
import Mathlib.Order.Lattice

set_option relaxedAutoImplicit false
set_option autoImplicit false

namespace PackedBits

variable {w : ℕ}

/-- Bit `k` of an array of words; there are no bits past the end. -/
def bitAt (words : List (BitVec w)) (k : ℕ) : Bool := (words.getD (k / w) 0#w).getLsbD (k % w)

/-- Bit `k` as a word: the only bit it can have set is the lowest. -/
def takeBit (words : List (BitVec w)) (k : ℕ) : BitVec w :=
  (words.getD (k / w) 0#w >>> (k % w)) &&& 1#w

/-- ORing a one-bit word into the array at bit `k`. -/
def putBit (words : List (BitVec w)) (k : ℕ) (bit : BitVec w) : List (BitVec w) :=
  words.set (k / w) (words.getD (k / w) 0#w ||| bit <<< (k % w))

@[simp] theorem putBit_length (words : List (BitVec w)) (k : ℕ) (bit : BitVec w) :
    (putBit words k bit).length = words.length := by
  simp [putBit]

/-- The word `bit` holds `b` in its lowest bit and nothing above. -/
def IsBit (bit : BitVec w) (b : Bool) : Prop := ∀ i < w, bit.getLsbD i = (decide (i = 0) && b)

theorem isBit_takeBit (words : List (BitVec w)) (k : ℕ) :
    IsBit (takeBit words k) (bitAt words k) := by
  intro i hi
  rw [takeBit, BitVec.getLsbD_and, BitVec.getLsbD_ushiftRight, BitVec.getLsbD_one, bitAt]
  rcases Nat.eq_zero_or_pos i with rfl | h
  · simp [hi]
  · simp [h.ne']

/-- The lowest bit of a word, masked out. -/
theorem isBit_and_one (v : BitVec w) : IsBit (v &&& 1#w) (v.getLsbD 0) := by
  intro i hi
  rw [BitVec.getLsbD_and, BitVec.getLsbD_one]
  rcases Nat.eq_zero_or_pos i with rfl | h
  · simp [hi]
  · simp [h.ne']

/-- A one-bit word shifted to bit `s` has that bit only. -/
theorem IsBit.shiftLeft {bit : BitVec w} {b : Bool} (h : IsBit bit b) {s i : ℕ} (hi : i < w) :
    (bit <<< s).getLsbD i = (decide (i = s) && b) := by
  rw [BitVec.getLsbD_shiftLeft]
  rcases Nat.lt_trichotomy i s with hlt | rfl | hgt
  · simp [hlt, hlt.ne]
  · simp [hi, h 0 (by omega)]
  · have hne : i - s ≠ 0 := by omega
    simp [hi, hgt.not_gt, hgt.ne', h (i - s) (by omega), hne]

/-- A position is its word and its place in the word. -/
theorem eq_of_div_mod {j k : ℕ} (hdiv : j / w = k / w) (hmod : j % w = k % w) : j = k := by
  rw [← Nat.div_add_mod j w, ← Nat.div_add_mod k w, hdiv, hmod]

/-- **What one OR changes.** -/
theorem bitAt_putBit {words : List (BitVec w)} {k : ℕ} {bit : BitVec w} {b : Bool} (hw : 0 < w)
    (hk : k / w < words.length) (hbit : IsBit bit b) (j : ℕ) :
    bitAt (putBit words k bit) j = (bitAt words j || (decide (j = k) && b)) := by
  have hj : j % w < w := Nat.mod_lt _ hw
  by_cases hdiv : j / w = k / w
  · have hkey : decide (j % w = k % w) = decide (j = k) := by
      by_cases h : j % w = k % w
      · simp [eq_of_div_mod hdiv h]
      · have hne : j ≠ k := fun he => h (he ▸ rfl)
        simp [h, hne]
    rw [bitAt, putBit, hdiv, List.getD_eq_getElem _ _ (by simpa using hk), List.getElem_set_self,
      BitVec.getLsbD_or, hbit.shiftLeft hj, hkey, bitAt, hdiv]
  · have hne : j ≠ k := fun he => hdiv (he ▸ rfl)
    rw [bitAt, putBit, List.getD_eq_getElem?_getD, List.getElem?_set_ne (Ne.symm hdiv),
      ← List.getD_eq_getElem?_getD, bitAt]
    simp [hne]

/-- **A loop of ORs adds the bits it hits and no others.** -/
theorem bitAt_foldl {ι : Type*} {n : ℕ} {step : List (BitVec w) → ι → List (BitVec w)}
    {hit : ι → ℕ → Bool} {l : List ι}
    (hstep : ∀ words, ∀ i ∈ l, words.length = n →
      (step words i).length = n ∧ ∀ j, bitAt (step words i) j = (bitAt words j || hit i j))
    {words : List (BitVec w)} (hlen : words.length = n) :
    (l.foldl step words).length = n ∧
      ∀ j, bitAt (l.foldl step words) j = (bitAt words j || l.any fun i => hit i j) := by
  induction l generalizing words with
  | nil => simp [hlen]
  | cons i l ih =>
      obtain ⟨hlen', hbit⟩ := hstep words i List.mem_cons_self hlen
      obtain ⟨hl, hb⟩ := ih (fun words i hi => hstep words i (List.mem_cons_of_mem _ hi)) hlen'
      refine ⟨hl, fun j => ?_⟩
      rw [List.foldl_cons, hb j, hbit j, List.any_cons, Bool.or_assoc]

/-- A point of a grid is determined by its position in row-major order. -/
theorem grid_inj {s x x' y y' : ℕ} (hx : x < s) (hx' : x' < s) (h : y * s + x = y' * s + x') :
    x = x' ∧ y = y' := by
  have hmod : ∀ a b, b < s → (a * s + b) % s = b := by
    intro a b hb
    rw [Nat.mul_comm, Nat.mul_add_mod, Nat.mod_eq_of_lt hb]
  have hdiv : ∀ a b, b < s → (a * s + b) / s = a := by
    intro a b hb
    rw [Nat.mul_comm, Nat.mul_add_div (by omega), Nat.div_eq_of_lt hb, Nat.add_zero]
  exact ⟨by rw [← hmod y x hx, ← hmod y' x' hx', h], by rw [← hdiv y x hx, ← hdiv y' x' hx', h]⟩

/-- A point of a grid lies before the end of the grid. -/
theorem grid_lt {s x y n : ℕ} (hx : x < s) (hy : y < n) : y * s + x < n * s :=
  calc y * s + x < (y + 1) * s := by rw [Nat.succ_mul]; omega
    _ ≤ n * s := Nat.mul_le_mul_right s hy

/-- Two arrays of one length with the same bits are equal. -/
theorem ext_bitAt {words words' : List (BitVec w)} (hlen : words.length = words'.length)
    (h : ∀ j < words.length * w, bitAt words j = bitAt words' j) : words = words' := by
  refine List.ext_getElem hlen ?_
  intro k hk hk'
  refine BitVec.eq_of_getLsbD_eq ?_
  intro i hi
  have hlt : k * w + i < words.length * w := grid_lt hi hk
  have hdiv : (k * w + i) / w = k := by
    rw [Nat.mul_comm, Nat.mul_add_div (by omega), Nat.div_eq_of_lt hi, Nat.add_zero]
  have hmod : (k * w + i) % w = i := by
    rw [Nat.mul_comm, Nat.mul_add_mod, Nat.mod_eq_of_lt hi]
  have hbit := h _ hlt
  rw [bitAt, bitAt, hdiv, hmod, List.getD_eq_getElem _ _ hk, List.getD_eq_getElem _ _ hk'] at hbit
  exact hbit

end PackedBits
