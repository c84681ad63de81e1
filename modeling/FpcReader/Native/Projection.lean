/-
**Descriptors of turned patches.**

A descriptor holds the signs of projections of a patch, the first half those of the patch read
forwards and the second half those of the patch read backwards.  A patch turned by half a turn is
the patch read backwards, so its descriptor has the halves exchanged; and the distance of
descriptors, the smaller of two Hamming distances, does not see such an exchange.

Main definitions:

* `Fpc.fpcProjectDescriptor` — the descriptor of a patch;
* `Fpc.turn` — the halves of a descriptor exchanged;
* `Fpc.hamming` — the Hamming distance of two descriptors.

Main results:

* `Fpc.fpcProjectDescriptor_reverse` — **a reversed patch has the turned descriptor**;
* `Fpc.descriptorDistance128_eq` — **the distance is the smaller of the Hamming distances**;
* `Fpc.turning_descriptorBits` — exchanging the halves keeps Hamming distances.
-/

import FpcReader.Lib.Orbit
import FpcReader.Native.Blocks
import FpcReader.Native.Masks
import Mathlib.InformationTheory.Hamming

set_option relaxedAutoImplicit false
set_option autoImplicit false

namespace Fpc

/-! ### Projections -/

/-- The two sums of one bit: the weights of the bit against the patch read forwards and backwards,
in the 64-bit accumulators of the source. -/
def projectBit (patch : List UInt8) (weights : List Int16) (projections column : ℕ) :
    Int64 × Int64 :=
  (List.range patch.length).foldl (fun (sums : Int64 × Int64) pixel =>
    let weight := (weights.getD (pixel * projections + column) 0).toInt64
    (sums.1 + weight * Int64.ofNat (patch.getD pixel 0).toNat,
      sums.2 + weight * Int64.ofNat (patch.getD (patch.length - 1 - pixel) 0).toNat)) (0, 0)

/-- A byte of signs: bit `bit` is set when its sum is positive. -/
def signByte (sum : ℕ → Int64) : UInt8 :=
  (List.range 8).foldl (fun byte bit =>
    if 0 < sum bit then byte ||| (1 <<< UInt8.ofNat bit) else byte) 0

/-- The descriptor of a patch of any size, `descriptorBytes` bytes long. -/
def fpcProjectDescriptor (patch : List UInt8) (weights : List Int16) (descriptorBytes : ℕ) :
    Except Fault (List UInt8) :=
  if patch.length = 0 ∨ descriptorBytes = 0 ∨ descriptorBytes % 2 ≠ 0 ∨ 16 < descriptorBytes ∨
      (2 ^ 64 - 1) / (descriptorBytes * 4) < patch.length ∨
      weights.length ≠ patch.length * descriptorBytes * 4 then
    .error (.status (-1))
  else
    let sums := fun byte bit => projectBit patch weights (descriptorBytes * 4) (byte * 8 + bit)
    let half := List.range (descriptorBytes / 2)
    .ok ((half.map fun byte => signByte fun bit => (sums byte bit).1) ++
      half.map fun byte => signByte fun bit => (sums byte bit).2)

/-- Reading a reversed patch forwards is reading the patch backwards. -/
theorem projectBit_reverse (patch : List UInt8) (weights : List Int16) (projections column : ℕ) :
    projectBit patch.reverse weights projections column =
      (projectBit patch weights projections column).swap := by
  have hread : ∀ pixel < patch.length,
      patch.reverse.getD pixel 0 = patch.getD (patch.length - 1 - pixel) 0 := by
    intro pixel hpixel
    rw [List.getD_eq_getElem?_getD, List.getD_eq_getElem?_getD, List.getElem?_reverse hpixel]
  have hback : ∀ pixel < patch.length,
      patch.reverse.getD (patch.length - 1 - pixel) 0 = patch.getD pixel 0 := by
    intro pixel hpixel
    rw [hread _ (by omega)]
    congr 1
    omega
  have hfold : ∀ (pixels : List ℕ) (sums : Int64 × Int64), (∀ p ∈ pixels, p < patch.length) →
      pixels.foldl (fun (sums : Int64 × Int64) pixel =>
        let weight := (weights.getD (pixel * projections + column) 0).toInt64
        (sums.1 + weight * Int64.ofNat (patch.reverse.getD pixel 0).toNat,
          sums.2 + weight *
            Int64.ofNat (patch.reverse.getD (patch.length - 1 - pixel) 0).toNat)) sums.swap =
      (pixels.foldl (fun (sums : Int64 × Int64) pixel =>
        let weight := (weights.getD (pixel * projections + column) 0).toInt64
        (sums.1 + weight * Int64.ofNat (patch.getD pixel 0).toNat,
          sums.2 + weight *
            Int64.ofNat (patch.getD (patch.length - 1 - pixel) 0).toNat)) sums).swap := by
    intro pixels
    induction pixels with
    | nil => exact fun sums _ => rfl
    | cons pixel pixels ih =>
        intro sums hpixels
        rw [List.foldl_cons, List.foldl_cons, ← ih _ fun p hp => hpixels p (by simp [hp])]
        rw [hread pixel (hpixels pixel (by simp)), hback pixel (hpixels pixel (by simp))]
        rfl
  rw [projectBit, projectBit, List.length_reverse]
  exact hfold _ (0, 0) fun p hp => List.mem_range.1 hp

/-- The two halves of a descriptor exchanged. -/
def turn (descriptor : List UInt8) : List UInt8 := descriptor.drop 8 ++ descriptor.take 8

@[simp]
theorem turn_length (descriptor : List UInt8) : (turn descriptor).length = descriptor.length := by
  simp only [turn, List.length_append, List.length_drop, List.length_take]
  omega

/-- The descriptor of a reversed patch has its halves exchanged, whatever its length. -/
theorem fpcProjectDescriptor_halves {patch : List UInt8} {weights : List Int16} {n : ℕ}
    {descriptor : List UInt8} (h : fpcProjectDescriptor patch weights n = .ok descriptor) :
    descriptor.length = n / 2 + n / 2 ∧ fpcProjectDescriptor patch.reverse weights n =
      .ok (descriptor.drop (n / 2) ++ descriptor.take (n / 2)) := by
  unfold fpcProjectDescriptor at h ⊢
  split_ifs at h with hbad
  rw [List.length_reverse, if_neg hbad]
  obtain rfl := Except.ok.inj h
  refine ⟨by simp, ?_⟩
  simp only [projectBit_reverse, Prod.fst_swap, Prod.snd_swap]
  rw [List.drop_left' (by simp), List.take_left' (by simp)]

/-- **A reversed patch has the turned descriptor.** -/
theorem fpcProjectDescriptor_reverse {patch : List UInt8} {weights : List Int16}
    {descriptor : List UInt8} (h : fpcProjectDescriptor patch weights 16 = .ok descriptor) :
    descriptor.length = 16 ∧
      fpcProjectDescriptor patch.reverse weights 16 = .ok (turn descriptor) :=
  fpcProjectDescriptor_halves h

/-! ### Distances -/

/-- A bit of a descriptor. -/
def descriptorBit (descriptor : List UInt8) (k : ℕ) : Bool :=
  (descriptor.getD (k / 8) 0).toBitVec.getLsbD (k % 8)

/-- The bits of a descriptor of sixteen bytes. -/
def descriptorBits (descriptor : List UInt8) : Fin 128 → Bool := fun k => descriptorBit descriptor k

/-- The Hamming distance of two descriptors. -/
def hamming (first second : List UInt8) : ℕ :=
  hammingDist (descriptorBits first) (descriptorBits second)

/-- A Hamming distance is a sum over the places. -/
theorem hammingDist_eq_sum (n : ℕ) (f g : ℕ → Bool) :
    hammingDist (fun k : Fin n => f k) (fun k : Fin n => g k) =
      ∑ k ∈ Finset.range n, (f k ^^ g k).toNat := by
  rw [hammingDist, Finset.card_filter, ← Fin.sum_univ_eq_sum_range (fun k => (f k ^^ g k).toNat)]
  refine Finset.sum_congr rfl ?_
  intro k _
  cases f k <;> cases g k <;> rfl

/-- A bit of a word is a bit of the descriptor. -/
theorem getLsbD_le32 (descriptor : List UInt8) (w : ℕ) {i : ℕ} (hi : i < 32) :
    (le32 (descriptor.drop (4 * w))).getLsbD i = descriptorBit descriptor (32 * w + i) := by
  have hbyte : ∀ k, (descriptor.drop (4 * w)).getD k 0 = descriptor.getD (4 * w + k) 0 := by
    intro k
    rw [List.getD_eq_getElem?_getD, List.getD_eq_getElem?_getD, List.getElem?_drop]
  have hwide : ∀ b : UInt8, ∀ j, 8 ≤ j → b.toBitVec.getLsbD j = false :=
    fun b j hj => BitVec.getLsbD_of_ge _ _ hj
  rw [le32]
  simp only [hbyte, BitVec.getLsbD_or, BitVec.getLsbD_shiftLeft, BitVec.getLsbD_setWidth,
    descriptorBit]
  rcases (by omega : i < 8 ∨ (8 ≤ i ∧ i < 16) ∨ (16 ≤ i ∧ i < 24) ∨ (24 ≤ i ∧ i < 32)) with
    h | h | h | h
  · have hdiv : (32 * w + i) / 8 = 4 * w + 0 := by omega
    have hmod : (32 * w + i) % 8 = i := by omega
    simp [hdiv, hmod, hi, h, (by omega : i < 16), (by omega : i < 24)]
  · have hdiv : (32 * w + i) / 8 = 4 * w + 1 := by omega
    have hmod : (32 * w + i) % 8 = i - 8 := by omega
    simp [hdiv, hmod, hi, h.2, (by omega : 8 ≤ i), (by omega : i < 24),
      (by omega : i - 8 < 32)]
  · have hdiv : (32 * w + i) / 8 = 4 * w + 2 := by omega
    have hmod : (32 * w + i) % 8 = i - 16 := by omega
    simp [hdiv, hmod, hi, h.2, hwide _ (i - 8) (by omega),
      (by omega : 8 ≤ i), (by omega : 16 ≤ i), (by omega : i - 16 < 32)]
  · have hdiv : (32 * w + i) / 8 = 4 * w + 3 := by omega
    have hmod : (32 * w + i) % 8 = i - 24 := by omega
    simp [hdiv, hmod, hi, hwide _ (i - 8) (by omega), hwide _ (i - 16) (by omega),
      (by omega : 8 ≤ i), (by omega : 24 ≤ i), (by omega : i - 24 < 32)]

/-- The bit counts of the differing words make the Hamming distance. -/
theorem sum_popcount32 (first second : List UInt8) :
    ([0, 4, 8, 12].map fun i =>
      popcount32 (le32 (first.drop i) ^^^ le32 (second.drop i))).sum = hamming first second := by
  have hword : ∀ w, popcount32 (le32 (first.drop (4 * w)) ^^^ le32 (second.drop (4 * w))) =
      ∑ i ∈ Finset.range 32,
        (descriptorBit first (32 * w + i) ^^ descriptorBit second (32 * w + i)).toNat := by
    intro w
    rw [popcount32_eq]
    refine Finset.sum_congr rfl ?_
    intro i hi
    have hi := Finset.mem_range.1 hi
    rw [BitVec.getLsbD_xor, getLsbD_le32 first w hi, getLsbD_le32 second w hi]
  have hall : hamming first second =
      ∑ k ∈ Finset.range (32 + 32 + 32 + 32),
        (descriptorBit first k ^^ descriptorBit second k).toNat :=
    hammingDist_eq_sum 128 _ _
  rw [hall, Finset.sum_range_add, Finset.sum_range_add, Finset.sum_range_add]
  have h0 := hword 0
  have h1 := hword 1
  have h2 := hword 2
  have h3 := hword 3
  simp only [Nat.mul_zero, Nat.zero_add, Nat.mul_one, Nat.reduceMul] at h0 h1 h2 h3
  simp only [List.map_cons, List.map_nil, List.sum_cons, List.sum_nil, h0, h1, h2, h3,
    Nat.reduceAdd]
  omega

section Turns

variable {first second third : List UInt8}

theorem getD_turn (h : second.length = 16) {i : ℕ} (hi : i < 16) :
    (turn second).getD i 0 = second.getD ((i + 8) % 16) 0 := by
  rw [List.getD_eq_getElem?_getD, List.getD_eq_getElem?_getD, turn]
  rcases Nat.lt_or_ge i 8 with hlow | hhigh
  · rw [List.getElem?_append_left (by rw [List.length_drop]; omega), List.getElem?_drop]
    congr 2
    omega
  · rw [List.getElem?_append_right (by rw [List.length_drop]; omega), List.length_drop,
      List.getElem?_take, if_pos (by omega)]
    congr 2
    omega

theorem turn_turn (h : second.length = 16) : turn (turn second) = second := by
  have hdrop : (second.drop 8).length = 8 := by
    rw [List.length_drop]
    omega
  rw [turn, turn, List.drop_left' hdrop, List.take_left' hdrop, List.take_append_drop]

/-- The words that the source reads from the other half are those of the turned descriptor. -/
theorem le32_turn (h : second.length = 16) {i : ℕ} (hi : i ∈ [0, 4, 8, 12]) :
    le32 (second.drop (i ^^^ 8)) = le32 ((turn second).drop i) := by
  have hbyte : ∀ (bytes : List UInt8) (n k : ℕ),
      (bytes.drop n).getD k 0 = bytes.getD (n + k) 0 := by
    intro bytes n k
    rw [List.getD_eq_getElem?_getD, List.getD_eq_getElem?_getD, List.getElem?_drop]
  have hxor : i < 16 - 3 ∧ ∀ k < 4, (i ^^^ 8) + k = (i + k + 8) % 16 := by
    simp only [List.mem_cons, List.not_mem_nil, or_false] at hi
    rcases hi with rfl | rfl | rfl | rfl
    all_goals decide
  have hsame : ∀ k < 4, (second.drop (i ^^^ 8)).getD k 0 = ((turn second).drop i).getD k 0 := by
    intro k hk
    rw [hbyte, hbyte, getD_turn h (by omega), hxor.2 k hk]
  rw [le32, le32, hsame 0 (by omega), hsame 1 (by omega), hsame 2 (by omega), hsame 3 (by omega)]

/-- **The distance is the smaller of the Hamming distances to a descriptor and to the descriptor
turned.** -/
theorem descriptorDistance128_eq (h : second.length = 16) :
    descriptorDistance128 first second =
      min (hamming first second) (hamming first (turn second)) := by
  have hrotated : ([0, 4, 8, 12].map fun i =>
      popcount32 (le32 (first.drop i) ^^^ le32 (second.drop (i ^^^ 8)))) =
        [0, 4, 8, 12].map fun i =>
          popcount32 (le32 (first.drop i) ^^^ le32 ((turn second).drop i)) := by
    refine List.map_congr_left ?_
    intro i hi
    rw [le32_turn h hi]
  have hdef : descriptorDistance128 first second =
      if hamming first second < hamming first (turn second) then hamming first second
      else hamming first (turn second) := by
    unfold descriptorDistance128
    rw [hrotated, sum_popcount32, sum_popcount32]
  rw [hdef]
  split_ifs <;> omega

/-- The same bit of the other half. -/
def otherHalf : Equiv.Perm (Fin 128) where
  toFun k := ⟨(k + 64) % 128, Nat.mod_lt _ (by norm_num)⟩
  invFun k := ⟨(k + 64) % 128, Nat.mod_lt _ (by norm_num)⟩
  left_inv k := by
    apply Fin.ext
    dsimp only
    omega
  right_inv k := by
    apply Fin.ext
    dsimp only
    omega

/-- The bits of a turned descriptor are those of the other half. -/
theorem descriptorBits_turn (h : second.length = 16) :
    descriptorBits (turn second) = descriptorBits second ∘ otherHalf := by
  funext k
  have hk := k.isLt
  have hother : (otherHalf k : ℕ) = (k + 64) % 128 := rfl
  have hdiv : ((k : ℕ) + 64) % 128 / 8 = (k / 8 + 8) % 16 := by omega
  have hmod : ((k : ℕ) + 64) % 128 % 8 = k % 8 := by omega
  simp only [descriptorBits, Function.comp_apply, descriptorBit, hother]
  rw [getD_turn h (by omega), hdiv, hmod]

/-- A Hamming distance does not depend on the order of the places. -/
theorem hammingDist_reorder {n : ℕ} (e : Equiv.Perm (Fin n)) (f g : Fin n → Bool) :
    hammingDist (f ∘ e) (g ∘ e) = hammingDist f g := by
  rw [hammingDist, hammingDist]
  refine Finset.card_equiv e ?_
  intro i
  simp

/-- Exchanging halves keeps Hamming distances. -/
theorem turning_descriptorBits :
    Orbit.Turning (fun f g : Fin 128 → Bool => hammingDist f g)
      (fun f => f ∘ otherHalf) where
  eq_zero _ _ := hammingDist_eq_zero
  comm f g := hammingDist_comm f g
  triangle f g k := hammingDist_triangle f g k
  turn_turn f := by
    funext k
    exact congrArg f (otherHalf.left_inv k)
  isometry f g := hammingDist_reorder otherHalf f g

/-- Descriptors of sixteen bytes with the same bits are equal. -/
theorem descriptorBits_inj (h : first.length = 16) (h' : second.length = 16)
    (hbits : descriptorBits first = descriptorBits second) : first = second := by
  apply List.ext_getElem (h.trans h'.symm)
  intro i hi hi'
  apply UInt8.toBitVec_inj.1
  apply BitVec.eq_of_getLsbD_eq
  intro j hj
  have hplace : 8 * i + j < 128 := by omega
  have hbit := congrFun hbits ⟨8 * i + j, hplace⟩
  simp only [descriptorBits, descriptorBit, (by omega : (8 * i + j) / 8 = i),
    (by omega : (8 * i + j) % 8 = j)] at hbit
  rwa [List.getD_eq_getElem _ _ hi, List.getD_eq_getElem _ _ hi'] at hbit

/-- The distance of descriptors is that of their bits up to turns. -/
theorem descriptorDistance128_orbit (h : second.length = 16) :
    descriptorDistance128 first second =
      Orbit.dist (fun f g : Fin 128 → Bool => hammingDist f g) (fun f => f ∘ otherHalf)
        (descriptorBits first) (descriptorBits second) := by
  rw [descriptorDistance128_eq h, hamming, hamming, descriptorBits_turn h, Orbit.dist]

/-- A descriptor distance does not see a turn of either side. -/
theorem descriptorDistance128_turn (h : first.length = 16) (h' : second.length = 16) :
    descriptorDistance128 (turn first) second = descriptorDistance128 first second ∧
      descriptorDistance128 first (turn second) = descriptorDistance128 first second := by
  rw [descriptorDistance128_orbit h', descriptorDistance128_orbit h',
    descriptorDistance128_orbit ((turn_length second).trans h'), descriptorBits_turn h,
    descriptorBits_turn h']
  exact ⟨turning_descriptorBits.dist_left _ _, turning_descriptorBits.dist_right _ _⟩

theorem descriptorDistance128_comm (h : first.length = 16) (h' : second.length = 16) :
    descriptorDistance128 first second = descriptorDistance128 second first := by
  rw [descriptorDistance128_orbit h', descriptorDistance128_orbit h]
  exact turning_descriptorBits.dist_comm _ _

theorem descriptorDistance128_eq_zero (h : first.length = 16) (h' : second.length = 16) :
    descriptorDistance128 first second = 0 ↔ first = second ∨ first = turn second := by
  have hturned : (turn second).length = 16 := (turn_length second).trans h'
  have hbits : descriptorBits first = descriptorBits second ↔ first = second :=
    ⟨descriptorBits_inj h h', fun heq => by rw [heq]⟩
  have hturn : descriptorBits first = descriptorBits (turn second) ↔ first = turn second :=
    ⟨descriptorBits_inj h hturned, fun heq => by rw [← heq]⟩
  rw [descriptorDistance128_orbit h', turning_descriptorBits.dist_eq_zero,
    ← descriptorBits_turn h', hbits, hturn]

theorem descriptorDistance128_triangle (h' : second.length = 16) (h'' : third.length = 16) :
    descriptorDistance128 first third ≤
      descriptorDistance128 first second + descriptorDistance128 second third := by
  rw [descriptorDistance128_orbit h'', descriptorDistance128_orbit h',
    descriptorDistance128_orbit h'']
  exact turning_descriptorBits.dist_triangle _ _ _

end Turns

/-- **Descriptor matching does not see half-turns, and is a distance up to them.**  The descriptor
of a reversed patch is the descriptor of the patch with its halves exchanged; the distance of two
descriptors is the smaller of the Hamming distances to the second one and to the second one with its
halves exchanged; it is symmetric, does not see an exchange of halves on either side, is zero
exactly for descriptors equal up to such an exchange, and obeys the triangle inequality; so turning
either of two patches does not change the distance of their descriptors. -/
theorem descriptorDistance128_halfTurn :
    (∀ patch weights descriptor, fpcProjectDescriptor patch weights 16 = .ok descriptor →
      descriptor.length = 16 ∧
        fpcProjectDescriptor patch.reverse weights 16 = .ok (turn descriptor)) ∧
    (∀ first second : List UInt8, first.length = 16 → second.length = 16 →
      descriptorDistance128 first second =
          min (hamming first second) (hamming first (turn second)) ∧
        descriptorDistance128 first second = descriptorDistance128 second first ∧
        descriptorDistance128 (turn first) second = descriptorDistance128 first second ∧
        descriptorDistance128 first (turn second) = descriptorDistance128 first second ∧
        (descriptorDistance128 first second = 0 ↔ first = second ∨ first = turn second)) ∧
    (∀ first second third : List UInt8, first.length = 16 → second.length = 16 →
      third.length = 16 → descriptorDistance128 first third ≤
        descriptorDistance128 first second + descriptorDistance128 second third) ∧
    ∀ patch patch' weights weights' descriptor descriptor',
      fpcProjectDescriptor patch weights 16 = .ok descriptor →
      fpcProjectDescriptor patch' weights' 16 = .ok descriptor' →
      ∃ turned turned', fpcProjectDescriptor patch.reverse weights 16 = .ok turned ∧
        fpcProjectDescriptor patch'.reverse weights' 16 = .ok turned' ∧
        descriptorDistance128 turned descriptor' = descriptorDistance128 descriptor descriptor' ∧
        descriptorDistance128 descriptor turned' =
          descriptorDistance128 descriptor descriptor' := by
  refine ⟨fun patch weights descriptor h => fpcProjectDescriptor_reverse h, ?_, ?_, ?_⟩
  · intro first second h h'
    have hturn := descriptorDistance128_turn h h'
    exact ⟨descriptorDistance128_eq h', descriptorDistance128_comm h h', hturn.1, hturn.2,
      descriptorDistance128_eq_zero h h'⟩
  · intro first second third _ h' h''
    exact descriptorDistance128_triangle h' h''
  · intro patch patch' weights weights' descriptor descriptor' h h'
    obtain ⟨hlen, hturned⟩ := fpcProjectDescriptor_reverse h
    obtain ⟨hlen', hturned'⟩ := fpcProjectDescriptor_reverse h'
    have hturn := descriptorDistance128_turn hlen hlen'
    exact ⟨turn descriptor, turn descriptor', hturned, hturned', hturn.1, hturn.2⟩

/-- A patch of two pixels whose descriptor has one bit in its first half. -/
theorem descriptorDistance128_halfTurn_two :
    fpcProjectDescriptor [1, 0] (1 :: List.replicate 127 0) 16 = .ok (1 :: List.replicate 15 0) ∧
    fpcProjectDescriptor [0, 1] (1 :: List.replicate 127 0) 16 =
      .ok (turn (1 :: List.replicate 15 0)) ∧
    descriptorDistance128 (1 :: List.replicate 15 0) (turn (1 :: List.replicate 15 0)) =
      descriptorDistance128 (1 :: List.replicate 15 0) (1 :: List.replicate 15 0) := by
  have h : fpcProjectDescriptor [1, 0] (1 :: List.replicate 127 0) 16 =
      .ok (1 :: List.replicate 15 0) := by decide +kernel
  exact ⟨h, (descriptorDistance128_halfTurn.1 _ _ _ h).2,
    (descriptorDistance128_halfTurn.2.1 _ _ (by decide) (by decide)).2.2.2.1⟩

end Fpc
