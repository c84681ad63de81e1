/-
**Geometric verification counts real inliers.**

The verifier computes modulo `2 ^ 32` and compares signed residuals with a bound, so a residual
that wraps around could pass for a small one.  This module shows that it cannot: the validity test
of the sampler bounds the scale of every fitted similarity, hence its translation, hence every
residual it can produce on points of the image.

Main definitions:

* `Fpc.InImage` — all four coordinates of a correspondence are Q4 positions of bytes;
* `Fpc.Transform.Bounded` — the bounds a sampled similarity obeys;
* `Fpc.exactResidual`, `Fpc.sourceDistance` — squared residual and source distance over `ℤ`.

Main results:

* `Fpc.fitSimilarityPair_bounded` — **every sampled fit is bounded**, wrapped or not;
* `Fpc.similarityError_exact` — **a bounded similarity has exact residuals**;
* `Fpc.hypothesisLoop_sound` — the loop keeps a bounded hypothesis with its exact inlier count;
* `Fpc.verifyGeometry_sound` — **an accepted verification exhibits its consensus**: that many
  correspondences with small exact residuals, pairwise far apart, four of them members.
-/

import FpcReader.Native.Geometry
import Mathlib.Algebra.Order.Ring.Abs

set_option relaxedAutoImplicit false
set_option autoImplicit false

namespace Fpc

open Words Scans

/-! ### Exact quantities -/

/-- All four coordinates are Q4 positions of coordinate bytes. -/
structure InImage (p : MatchCoordinates) : Prop where
  x : 8 ≤ p.x ∧ p.x ≤ 4088
  y : 8 ≤ p.y ∧ p.y ≤ 4088
  targetX : 8 ≤ p.targetX ∧ p.targetX ≤ 4088
  targetY : 8 ≤ p.targetY ∧ p.targetY ≤ 4088

/-- The bounds of a similarity fitted to a sampled pair. -/
structure Transform.Bounded (t : Transform) : Prop where
  c : |t.c| ≤ 18433
  s : |t.s| ≤ 18433
  tx : |t.tx| ≤ 13288
  ty : |t.ty| ≤ 13288

/-- The squared residual of a similarity on a correspondence, over the integers. -/
def exactResidual (t : Transform) (p : MatchCoordinates) : ℤ :=
  ((p.x * t.c - p.y * t.s + t.tx * 2 ^ 14 - p.targetX * 2 ^ 14) / 2 ^ 14) ^ 2 +
    ((p.y * t.c + p.x * t.s + t.ty * 2 ^ 14 - p.targetY * 2 ^ 14) / 2 ^ 14) ^ 2

/-- The squared distance of two source points, over the integers. -/
def sourceDistance (p q : MatchCoordinates) : ℤ := (p.x - q.x) ^ 2 + (p.y - q.y) ^ 2

theorem signedU32_u32 {z : ℤ} (hlo : -2147483648 ≤ z) (hhi : z < 2147483648) :
    signedU32 (u32 z) = z :=
  toInt_word (by norm_num) (by norm_num; exact hlo) (by norm_num; exact hhi)

theorem signedU16_u16 {z : ℤ} (hlo : -32768 ≤ z) (hhi : z < 32768) : signedU16 (u16 z) = z :=
  toInt_word (by norm_num) (by norm_num; exact hlo) (by norm_num; exact hhi)

/-- The sum of two squared coordinate differences, computed on words. -/
theorem signedU32_squares {a b : ℤ} (ha : |a| ≤ 32000) (hb : |b| ≤ 32000) :
    signedU32 (u32 a * u32 a + u32 b * u32 b) = a ^ 2 + b ^ 2 := by
  have ha' := sq_abs a
  have hb' := sq_abs b
  have h1 : |a| ^ 2 ≤ 32000 ^ 2 := pow_le_pow_left₀ (abs_nonneg a) ha 2
  have h2 : |b| ^ 2 ≤ 32000 ^ 2 := pow_le_pow_left₀ (abs_nonneg b) hb 2
  rw [word_mul, word_mul, word_add, signedU32_u32 (by nlinarith) (by nlinarith)]
  ring

theorem InImage.diff {p q : MatchCoordinates} (hp : InImage p) (hq : InImage q) :
    |q.x - p.x| ≤ 4080 ∧ |q.y - p.y| ≤ 4080 ∧
      |q.targetX - p.targetX| ≤ 4080 ∧ |q.targetY - p.targetY| ≤ 4080 := by
  have h1 := hp.x; have h2 := hp.y; have h3 := hp.targetX; have h4 := hp.targetY
  have h5 := hq.x; have h6 := hq.y; have h7 := hq.targetX; have h8 := hq.targetY
  refine ⟨?_, ?_, ?_, ?_⟩ <;> rw [abs_le] <;> constructor <;> linarith

theorem sourceClose_eq_false {points : List MatchCoordinates} (hp : ∀ p ∈ points, InImage p)
    {i j : ℕ} (hi : i < points.length) (hj : j < points.length)
    (h : sourceClose points i j = false) : 3584 ≤ sourceDistance points[i] points[j] := by
  simp only [sourceClose, List.getD_eq_getElem _ _ hi, List.getD_eq_getElem _ _ hj,
    decide_eq_false_iff_not, not_lt] at h
  have hd := (hp _ (List.getElem_mem hj)).diff (hp _ (List.getElem_mem hi))
  rwa [signedU32_squares (hd.1.trans (by norm_num)) (hd.2.1.trans (by norm_num))] at h

/-! ### Every sampled fit is bounded -/

/-- The validity test, read over the integers: the source distance is large and the target distance
is within an eighth of it. -/
theorem pairValid_exact {a b : MatchCoordinates} (ha : InImage a) (hb : InImage b)
    (h : pairValid 3 a b = true) :
    256 < (b.x - a.x) ^ 2 + (b.y - a.y) ^ 2 ∧
      8 * ((b.targetX - a.targetX) ^ 2 + (b.targetY - a.targetY) ^ 2) ≤
        9 * ((b.x - a.x) ^ 2 + (b.y - a.y) ^ 2) := by
  obtain ⟨hx, hy, htx, hty⟩ := ha.diff hb
  have bound : ∀ z : ℤ, |z| ≤ 4080 → z ^ 2 ≤ 16646400 := by
    intro z hz
    have := pow_le_pow_left₀ (abs_nonneg z) hz 2
    rw [sq_abs] at this
    linarith
  have hx2 := bound _ hx
  have hy2 := bound _ hy
  have hnn := sq_nonneg (b.x - a.x)
  have hnn' := sq_nonneg (b.y - a.y)
  simp only [pairValid, Bool.and_eq_true, decide_eq_true_eq] at h
  rw [signedU32_squares (hx.trans (by norm_num)) (hy.trans (by norm_num)),
    signedU32_squares (htx.trans (by norm_num)) (hty.trans (by norm_num))] at h
  set n := (b.x - a.x) ^ 2 + (b.y - a.y) ^ 2 with hn
  rw [shiftFloor_eq] at h
  norm_num at h
  obtain ⟨⟨hbig, -⟩, hhigh⟩ := h
  rw [signedU32_u32 (by omega) (by omega)] at hhigh
  exact ⟨hbig, by omega⟩

/-- The cast of `norm` is shifted so that its top bit is the sign bit's neighbour. -/
theorem leadingFrom_spec {value : BitVec 32} {k : ℕ} (hk : value.toNat < 2 ^ k)
    (hpos : 0 < value.toNat) :
    leadingFrom value k < k ∧ 2 ^ (k - 1 - leadingFrom value k) ≤ value.toNat ∧
      value.toNat < 2 ^ (k - leadingFrom value k) := by
  induction k with
  | zero => omega
  | succ k ih =>
      rw [leadingFrom]
      split_ifs with hbit
      · refine ⟨Nat.succ_pos k, ?_, by simpa using hk⟩
        rw [BitVec.getLsbD] at hbit
        simpa using Nat.ge_two_pow_of_testBit hbit
      · have hlt : value.toNat < 2 ^ k := by
          by_contra hge
          apply hbit
          rw [BitVec.getLsbD, Nat.testBit_eq_decide_div_mod_eq, decide_eq_true_eq]
          have h1 : value.toNat / 2 ^ k < 2 :=
            Nat.div_lt_of_lt_mul (by rw [← pow_succ]; exact hk)
          have h2 : 0 < value.toNat / 2 ^ k := Nat.div_pos (not_lt.1 hge) (Nat.two_pow_pos k)
          omega
        obtain ⟨h1, h2, h3⟩ := ih hlt
        refine ⟨by omega, ?_, ?_⟩
        · have : k + 1 - 1 - (leadingFrom value k + 1) = k - 1 - leadingFrom value k := by omega
          rwa [this]
        · have : k + 1 - (leadingFrom value k + 1) = k - leadingFrom value k := by omega
          rwa [this]

/-- For a norm below `2 ^ 31` the shift brings it into `[2 ^ 30, 2 ^ 31)`. -/
theorem leading_shift {n : ℤ} (hpos : 0 < n) (hlt : n < 2 ^ 31) :
    2 ^ 30 ≤ n * 2 ^ ((leadingFrom (u32 n) 32 + 31) % 32) ∧
      n * 2 ^ ((leadingFrom (u32 n) 32 + 31) % 32) < 2 ^ 31 := by
  have hnat : (u32 n).toNat = n.toNat := by
    have h := BitVec.toNat_ofInt (n := 32) n
    rw [show (u32 n).toNat = (BitVec.ofInt 32 n).toNat from rfl, h]
    congr 1
    exact Int.emod_eq_of_lt hpos.le (by norm_num at hlt ⊢; omega)
  obtain ⟨h1, h2, h3⟩ := leadingFrom_spec (k := 32) (u32 n).isLt
    (by rw [hnat]; omega)
  rw [hnat] at h2 h3
  set lead := leadingFrom (u32 n) 32 with hlead
  have hlead1 : 1 ≤ lead := by
    by_contra h0
    have : lead = 0 := by omega
    rw [this] at h2
    norm_num at h2 hlt
    omega
  have hshift : (lead + 31) % 32 = lead - 1 := by omega
  rw [hshift]
  have hcast : (n.toNat : ℤ) = n := Int.toNat_of_nonneg hpos.le
  have e1 : 2 ^ (32 - 1 - lead) * 2 ^ (lead - 1) = 2 ^ 30 := by
    rw [← pow_add]; congr 1; omega
  have e2 : 2 ^ (32 - lead) * 2 ^ (lead - 1) = 2 ^ 31 := by
    rw [← pow_add]; congr 1; omega
  have g1 := Nat.mul_le_mul_right (2 ^ (lead - 1)) h2
  have g2 := Nat.mul_lt_mul_of_pos_right h3 (Nat.two_pow_pos (lead - 1))
  rw [e1] at g1
  rw [e2] at g2
  constructor
  · have := Int.ofNat_le.2 g1
    push_cast at this
    rwa [hcast] at this
  · have := Int.ofNat_lt.2 g2
    push_cast at this
    rwa [hcast] at this

/-- The rounded quotient of a shifted product by the shifted norm. -/
theorem fitQuotient_le {n dot : ℤ} {k : ℕ} (hlo : 2 ^ 30 ≤ n * 2 ^ k) (hhi : n * 2 ^ k < 2 ^ 31)
    (hdot : 8 * |dot| ≤ 9 * n) :
    |(signedU32 (u32 dot <<< k + u32 (n * 2 ^ k / 2 ^ 14 / 2))).tdiv (n * 2 ^ k / 2 ^ 14)| ≤
      18433 := by
  have hk : (0 : ℤ) < 2 ^ k := by positivity
  set shifted := n * 2 ^ k with hshifted
  set divisor := shifted / 2 ^ 14 with hdivisor
  have hdiv : 65536 ≤ divisor := by rw [hdivisor]; omega
  have hdiv' : shifted < (divisor + 1) * 2 ^ 14 := by rw [hdivisor]; omega
  rw [word_shiftLeft, word_add]
  have hw := natAbs_toInt_word_le 32 (dot * 2 ^ k + divisor / 2)
  set w := signedU32 (u32 (dot * 2 ^ k + divisor / 2)) with hwdef
  have hprod : 8 * |dot * 2 ^ k| ≤ 9 * shifted := by
    rw [abs_mul, abs_of_pos hk, hshifted]
    nlinarith
  have habs : |dot * 2 ^ k + divisor / 2| ≤ |dot * 2 ^ k| + divisor / 2 :=
    (abs_add_le _ _).trans_eq (by rw [abs_of_nonneg (a := divisor / 2) (by omega)])
  have hw' : |w| ≤ |dot * 2 ^ k + divisor / 2| := by
    rw [Int.abs_eq_natAbs, Int.abs_eq_natAbs]
    exact_mod_cast hw
  have hlt : |w| < 18434 * divisor := by
    norm_num at hdiv'
    omega
  rw [Int.abs_eq_natAbs, Int.natAbs_tdiv]
  have h1 : w.natAbs < 18434 * divisor.natAbs := by
    rw [Int.abs_eq_natAbs] at hlt
    omega
  have h2 : w.natAbs / divisor.natAbs < 18434 :=
    Nat.div_lt_of_lt_mul (by rwa [Nat.mul_comm] at h1)
  exact_mod_cast Nat.lt_succ_iff.1 h2

/-- A projection of the target difference onto the source difference is at most nine eighths of the
source distance, when the target distance is at most nine eighths of it. -/
theorem projection_le (dot other : ℤ) {n m : ℤ} (hn : 0 ≤ n) (h : 8 * m ≤ 9 * n)
    (hsq : dot ^ 2 + other ^ 2 = n * m) : 8 * |dot| ≤ 9 * n := by
  have h1 : (8 * |dot|) ^ 2 ≤ (9 * n) ^ 2 := by
    rw [mul_pow, sq_abs]
    nlinarith [sq_nonneg other]
  exact (pow_le_pow_iff_left₀ (by positivity) (by positivity) (by norm_num)).1 h1

theorem abs_mul_le {a b A B : ℤ} (ha : |a| ≤ A) (hb : |b| ≤ B) : |a * b| ≤ A * B := by
  rw [abs_mul]
  exact mul_le_mul ha hb (abs_nonneg b) ((abs_nonneg a).trans ha)

/-- The translation that carries the midpoint of the sources to the midpoint of the targets. -/
theorem fitTranslation_le {m p q c s : ℤ} (hm : |m| ≤ 8177) (hp : |p| ≤ 8176) (hq : |q| ≤ 8176)
    (hc : |c| ≤ 18433) (hs : |s| ≤ 18433) :
    |signedU16 (u16 (shiftFloor (signedU32 (u32 (m * 2 ^ 14 - p * c + q * s))) 15))| ≤ 13288 := by
  have h1 := abs_le.1 (abs_mul_le hp hc)
  have h2 := abs_le.1 (abs_mul_le hq hs)
  have h3 := abs_le.1 hm
  generalize p * c = pc at *
  generalize q * s = qs at *
  norm_num at h1 h2 h3 ⊢
  rw [signedU32_u32 (by omega) (by omega), shiftFloor_eq]
  norm_num
  rw [signedU16_u16 (by omega) (by omega), abs_le]
  omega

/-- **Every sampled fit is bounded**: scale, rotation and translation, even if a product wrapped. -/
theorem fitSimilarityPair_bounded {a b : MatchCoordinates} (ha : InImage a) (hb : InImage b)
    (hvalid : pairValid 3 a b = true) {t : Transform} (h : fitSimilarityPair a b = some t) :
    t.Bounded := by
  obtain ⟨hbig, hratio⟩ := pairValid_exact ha hb hvalid
  obtain ⟨hx, hy, htx, hty⟩ := ha.diff hb
  have hnorm : u32 (b.x - a.x) * u32 (b.x - a.x) + u32 (b.y - a.y) * u32 (b.y - a.y) =
      u32 ((b.x - a.x) ^ 2 + (b.y - a.y) ^ 2) := by
    rw [word_mul, word_mul, word_add]
    congr 1
    ring
  have hlt : (b.x - a.x) ^ 2 + (b.y - a.y) ^ 2 < 2 ^ 31 := by
    have h1 := pow_le_pow_left₀ (abs_nonneg _) hx 2
    have h2 := pow_le_pow_left₀ (abs_nonneg _) hy 2
    rw [sq_abs] at h1 h2
    norm_num
    linarith
  obtain ⟨hslo, hshi⟩ := leading_shift (by linarith) hlt
  have hdot := projection_le
    ((b.x - a.x) * (b.targetX - a.targetX) + (b.y - a.y) * (b.targetY - a.targetY))
    ((b.x - a.x) * (b.targetY - a.targetY) - (b.y - a.y) * (b.targetX - a.targetX))
    (by positivity) hratio (by ring)
  have hcross := projection_le
    ((b.x - a.x) * (b.targetY - a.targetY) - (b.y - a.y) * (b.targetX - a.targetX))
    ((b.x - a.x) * (b.targetX - a.targetX) + (b.y - a.y) * (b.targetY - a.targetY))
    (by positivity) hratio (by ring)
  have hc := fitQuotient_le hslo hshi hdot
  have hs := fitQuotient_le hslo hshi hcross
  set n := (b.x - a.x) ^ 2 + (b.y - a.y) ^ 2 with hn
  have hdivisor : shiftFloor (signedU32 (u32 n <<< ((leadingFrom (u32 n) 32 + 31) % 32))) 14 =
      n * 2 ^ ((leadingFrom (u32 n) 32 + 31) % 32) / 2 ^ 14 := by
    rw [shiftFloor_eq, word_shiftLeft, signedU32_u32 (by norm_num at hslo; omega)
      (by norm_num at hshi; omega)]
  simp only [fitSimilarityPair, hnorm, hdivisor] at h
  rw [shiftFloor_eq, pow_one] at h
  split_ifs at h
  have hdotw : u32 (b.x - a.x) * u32 (b.targetX - a.targetX) +
      u32 (b.y - a.y) * u32 (b.targetY - a.targetY) =
      u32 ((b.x - a.x) * (b.targetX - a.targetX) + (b.y - a.y) * (b.targetY - a.targetY)) := by
    rw [word_mul, word_mul, word_add]
  have hcrossw : u32 (b.x - a.x) * u32 (b.targetY - a.targetY) -
      u32 (b.y - a.y) * u32 (b.targetX - a.targetX) =
      u32 ((b.x - a.x) * (b.targetY - a.targetY) - (b.y - a.y) * (b.targetX - a.targetX)) := by
    rw [word_mul, word_mul, word_sub]
  rw [← hdotw] at hc
  rw [← hcrossw] at hs
  obtain ⟨c, s, hc, hs, rfl⟩ : ∃ c s : ℤ, |c| ≤ 18433 ∧ |s| ≤ 18433 ∧
      t = ⟨signedU16 (u16 c), signedU16 (u16 s),
        signedU16 (u16 (shiftFloor (signedU32 (u32 (a.targetX + b.targetX + 1) <<< 14 -
          u32 (a.x + b.x) * u32 c + u32 (a.y + b.y) * u32 s)) 15)),
        signedU16 (u16 (shiftFloor (signedU32 (u32 (a.targetY + b.targetY + 1) <<< 14 -
          u32 (a.x + b.x) * u32 s - u32 (a.y + b.y) * u32 c)) 15))⟩ :=
    ⟨_, _, hc, hs, (Option.some.inj h).symm⟩
  have hax := ha.x; have hay := ha.y; have hatx := ha.targetX; have haty := ha.targetY
  have hbx := hb.x; have hby := hb.y; have hbtx := hb.targetX; have hbty := hb.targetY
  have hsx : |a.x + b.x| ≤ 8176 := abs_le.2 ⟨by linarith, by linarith⟩
  have hsy : |a.y + b.y| ≤ 8176 := abs_le.2 ⟨by linarith, by linarith⟩
  have hmx : |a.targetX + b.targetX + 1| ≤ 8177 := abs_le.2 ⟨by linarith, by linarith⟩
  have hmy : |a.targetY + b.targetY + 1| ≤ 8177 := abs_le.2 ⟨by linarith, by linarith⟩
  have hc' := abs_le.1 hc
  have hs' := abs_le.1 hs
  refine ⟨?_, ?_, ?_, ?_⟩
  · show |signedU16 (u16 c)| ≤ 18433
    rwa [signedU16_u16 (by linarith) (by linarith)]
  · show |signedU16 (u16 s)| ≤ 18433
    rwa [signedU16_u16 (by linarith) (by linarith)]
  · simpa using fitTranslation_le hmx hsx hsy hc hs
  · have := fitTranslation_le (q := -(a.y + b.y)) hmy hsx (by rwa [abs_neg]) hs hc
    rw [neg_mul, ← sub_eq_add_neg] at this
    simpa using this

/-! ### A bounded similarity has exact residuals -/

/-- One component of a residual fits in a word with room to spare. -/
theorem residual_component_le {p q c s t target : ℤ} (hp : |p| ≤ 4088) (hq : |q| ≤ 4088)
    (hc : |c| ≤ 18433) (hs : |s| ≤ 18433) (ht : |t| ≤ 13288) (htarget : |target| ≤ 4088) :
    |p * c + q * s + t * 2 ^ 14 - target * 2 ^ 14| ≤ 435396592 := by
  have h1 := abs_le.1 (abs_mul_le hp hc)
  have h2 := abs_le.1 (abs_mul_le hq hs)
  have h3 := abs_le.1 ht
  have h4 := abs_le.1 htarget
  rw [abs_le]
  constructor <;> linarith

/-- **The residual of a bounded similarity on a point of the image is exact**: no product, sum or
square wraps. -/
theorem similarityError_exact {t : Transform} (ht : t.Bounded) {p : MatchCoordinates}
    (hp : InImage p) : signedU32 (similarityError p t) = exactResidual t p := by
  have hx : |p.x| ≤ 4088 := abs_le.2 ⟨by linarith [hp.x], hp.x.2⟩
  have hy : |p.y| ≤ 4088 := abs_le.2 ⟨by linarith [hp.y], hp.y.2⟩
  have htx : |p.targetX| ≤ 4088 := abs_le.2 ⟨by linarith [hp.targetX], hp.targetX.2⟩
  have hty : |p.targetY| ≤ 4088 := abs_le.2 ⟨by linarith [hp.targetY], hp.targetY.2⟩
  have hvx := residual_component_le hx (by rwa [abs_neg] : |-p.y| ≤ 4088) ht.c ht.s ht.tx htx
  have hvy := residual_component_le hy hx ht.c ht.s ht.ty hty
  rw [neg_mul, ← sub_eq_add_neg] at hvx
  simp only [similarityError, exactResidual, word_mul, word_add, word_sub, word_shiftLeft]
  generalize p.x * t.c - p.y * t.s + t.tx * 2 ^ 14 - p.targetX * 2 ^ 14 = vx at *
  generalize p.y * t.c + p.x * t.s + t.ty * 2 ^ 14 - p.targetY * 2 ^ 14 = vy at *
  rw [abs_le] at hvx hvy
  have hdx : signedU32 (word 32 vx) = vx := signedU32_u32 (by omega) (by omega)
  have hdy : signedU32 (word 32 vy) = vy := signedU32_u32 (by omega) (by omega)
  have hsq := signedU32_squares (a := vx / 2 ^ 14) (b := vy / 2 ^ 14)
    (abs_le.2 (by omega)) (abs_le.2 (by omega))
  rw [hdx, hdy, shiftFloor_eq, shiftFloor_eq]
  rwa [word_mul, word_mul, word_add] at hsq

/-! ### The loop keeps exact hypotheses -/

/-- The sampled pairs are in range and carry the validity computed for them. -/
structure SampleOk (points : List MatchCoordinates) (sample : GeometrySample) : Prop where
  range : ∀ pair ∈ sample.indices, pair.1 < points.length ∧ pair.2 < points.length
  valid : sample.valid = sample.indices.map fun pair =>
    pairValid 3 (points.getD pair.1 default) (points.getD pair.2 default)

/-- What the loop knows of its best hypothesis: it is bounded, and its count is exact. -/
structure Consensus.Sound (points : List MatchCoordinates) (st : Consensus) : Prop where
  sample : SampleOk points st.sample
  bounded : 0 < st.best → st.bestTransform.Bounded
  count : 0 < st.best → st.best = countInliers points st.bestTransform
  limit : st.limit ≤ 10000

/-- A sampled index is in range. -/
theorem sampledIndex_lt {count : ℕ} (hc : 0 < count) (a : BitVec 32) (k : ℕ) :
    sampledIndex count a k < count := by
  unfold sampledIndex
  have h : (a >>> k).toNat % 65536 < 65536 := Nat.mod_lt _ (by norm_num)
  exact Nat.div_lt_of_lt_mul (by nlinarith)

theorem sampleBatch_range {count : ℕ} (hc : 0 < count) (state : BitVec 32 × BitVec 32) :
    ∀ pair ∈ (sampleBatch count state).2, pair.1 < count ∧ pair.2 < count := by
  intro pair hpair
  obtain ⟨k, -, rfl⟩ := List.mem_map.1 hpair
  exact ⟨sampledIndex_lt hc _ _, sampledIndex_lt hc _ _⟩

theorem sampleGeometryPairs_ok {points : List MatchCoordinates} {state : BitVec 32 × BitVec 32}
    {sample : GeometrySample} (h : sampleGeometryPairs points state 3 = some sample) :
    SampleOk points sample := by
  simp only [sampleGeometryPairs] at h
  split_ifs at h with hcount
  rw [← Option.some.inj h]
  have hpos : 0 < points.length := by omega
  refine ⟨?_, rfl⟩
  intro pair hpair
  rcases List.mem_append.1 hpair with hpair | hpair
  · exact sampleBatch_range hpos _ pair hpair
  · exact sampleBatch_range hpos _ pair hpair

/-- A slot the sampler marks valid holds a valid pair of points in range. -/
theorem SampleOk.slot {points : List MatchCoordinates} {sample : GeometrySample}
    (h : SampleOk points sample) {slot : ℕ} (hslot : sample.valid.getD slot false = true) :
    ∃ pair, sample.indices.getD slot (0, 0) = pair ∧ pair.1 < points.length ∧
      pair.2 < points.length ∧
      pairValid 3 (points.getD pair.1 default) (points.getD pair.2 default) = true := by
  have hlt : slot < sample.indices.length := by
    by_contra hge
    rw [h.valid, List.getD_eq_default _ _ (by simpa using hge)] at hslot
    cases hslot
  rw [h.valid, List.getD_eq_getElem _ _ (by simpa using hlt), List.getElem_map] at hslot
  rw [List.getD_eq_getElem _ _ hlt]
  have hr := h.range _ (List.getElem_mem hlt)
  exact ⟨_, rfl, hr.1, hr.2, hslot⟩

/-- Every bound the loop can set is at most ten thousand. -/
theorem quota_le (i : ℕ) : quota i ≤ 10000 := by
  unfold quota
  rcases Nat.lt_or_ge i limits.length with hi | hi
  · have : ∀ i < 16, 10000 * limits.getD i 0 / 2 ^ 15 ≤ 10000 := by decide
    exact this i hi
  · rw [List.getD_eq_default _ _ hi]
    simp

theorem getD_inImage {points : List MatchCoordinates} (hp : ∀ p ∈ points, InImage p) {i : ℕ}
    (hi : i < points.length) : InImage (points.getD i default) := by
  rw [List.getD_eq_getElem _ _ hi]
  exact hp _ (List.getElem_mem hi)

/-- Trying a valid sampled pair keeps the loop sound. -/
theorem tryHypothesis_sound {points : List MatchCoordinates} (hp : ∀ p ∈ points, InImage p)
    {iteration : ℕ} (hit : iteration ≤ 10000) {pair : ℕ × ℕ} (h1 : pair.1 < points.length)
    (h2 : pair.2 < points.length)
    (hvalid : pairValid 3 (points.getD pair.1 default) (points.getD pair.2 default) = true)
    {st st' : Consensus} (hst : st.Sound points)
    (h : tryHypothesis points iteration pair st = some st') : st'.Sound points := by
  unfold tryHypothesis at h
  cases hfit : fitSimilarityPair (points.getD pair.1 default) (points.getD pair.2 default) with
  | none => simp only [hfit, reduceCtorEq] at h
  | some transform =>
      have hbounded := fitSimilarityPair_bounded (getD_inImage hp h1) (getD_inImage hp h2) hvalid
        hfit
      simp only [hfit] at h
      split_ifs at h with hstop hbetter
      · rw [← Option.some.inj h]
        exact ⟨hst.sample, hst.bounded, hst.count, hit⟩
      · rw [← Option.some.inj h]
        exact ⟨hst.sample, fun _ => hbounded, fun _ => rfl, quota_le _⟩
      · rw [← Option.some.inj h]
        exact ⟨hst.sample, hst.bounded, hst.count, hst.limit⟩

/-- One iteration keeps the loop sound. -/
theorem hypothesisStep_sound {points : List MatchCoordinates} (hp : ∀ p ∈ points, InImage p)
    {iteration : ℕ} (hit : iteration ≤ 10000) {st st' : Consensus} (hst : st.Sound points)
    (h : hypothesisStep points iteration st = some st') : st'.Sound points := by
  simp only [hypothesisStep] at h
  split at h
  · cases h
  rename_i sample hsample
  split at h
  · cases h
  rename_i st₁ htry
  have hok : SampleOk points sample := by
    split_ifs at hsample with hslot
    · exact sampleGeometryPairs_ok hsample
    · rw [← Option.some.inj hsample]
      exact hst.sample
  have hst₀ : ({ st with sample := sample } : Consensus).Sound points :=
    ⟨hok, hst.bounded, hst.count, hst.limit⟩
  have hst₁ : st₁.Sound points := by
    split_ifs at htry with hvalid
    · obtain ⟨pair, hpair, h1, h2, hv⟩ := hok.slot hvalid
      rw [hpair] at htry
      exact tryHypothesis_sound hp hit h1 h2 hv hst₀ htry
    · rw [← Option.some.inj htry]
      exact hst₀
  rw [← Option.some.inj h]
  exact ⟨hst₁.sample, hst₁.bounded, hst₁.count, hst₁.limit⟩

/-- **The loop keeps a bounded hypothesis with its exact inlier count.** -/
theorem hypothesisLoop_sound {points : List MatchCoordinates} (hp : ∀ p ∈ points, InImage p)
    {fuel iteration : ℕ} {st st' : Consensus} (hst : st.Sound points)
    (h : hypothesisLoop points fuel iteration st = some st') : st'.Sound points := by
  induction fuel generalizing iteration st with
  | zero => exact Option.some.inj h ▸ hst
  | succ fuel ih =>
      rw [hypothesisLoop] at h
      split_ifs at h with hlimit
      · cases hstep : hypothesisStep points iteration st with
        | none => simp [hstep] at h
        | some st₁ =>
            rw [hstep] at h
            exact ih (hypothesisStep_sound hp (hlimit.le.trans hst.limit) hst hstep) h
      · exact Option.some.inj h ▸ hst

theorem initialConsensus_sound (points : List MatchCoordinates) : initialConsensus.Sound points :=
  ⟨⟨by simp [initialConsensus], rfl⟩, by simp [initialConsensus], by simp [initialConsensus],
    by simp [initialConsensus]⟩

/-! ### The consensus that is left -/

/-- The correspondences whose flag is set, with the candidates they belong to. -/
def keptPairs (points : List MatchCoordinates) (pairs : List Candidate) (flags : List Bool) :
    List (MatchCoordinates × Candidate) :=
  (((points.zip pairs).zip flags).filter (·.2)).map (·.1)

theorem keptPairs_sublist (points : List MatchCoordinates) (pairs : List Candidate)
    (flags : List Bool) : (keptPairs points pairs flags).Sublist (points.zip pairs) := by
  refine (List.filter_sublist.map _).trans ?_
  induction points.zip pairs generalizing flags with
  | nil => simp
  | cons pc available ih =>
      cases flags with
      | nil => simp
      | cons f flags => simpa using ih flags

theorem keptPairs_length {points : List MatchCoordinates} {pairs : List Candidate}
    {flags : List Bool} (hpairs : points.length = pairs.length)
    (hflags : flags.length = points.length) :
    (keptPairs points pairs flags).length = flags.count true := by
  rw [keptPairs, List.length_map, ← List.countP_eq_length_filter]
  have : flags = ((points.zip pairs).zip flags).map (·.2) := by
    rw [List.map_snd_zip]
    simp [hpairs, hflags]
  conv_rhs => rw [this, List.count, List.countP_map]
  congr 1
  funext x
  simp

/-- The members among the flagged candidates are the members among the kept correspondences. -/
theorem keptPairs_countP (g : ℕ → Bool) {points : List MatchCoordinates} {pairs : List Candidate}
    {flags : List Bool} (hpairs : points.length = pairs.length)
    (hflags : flags.length = points.length) :
    (flagged (withFlags pairs flags)).countP (fun c => g c.first) =
      (keptPairs points pairs flags).countP (fun pc => g pc.2.first) := by
  induction points generalizing pairs flags with
  | nil =>
      rw [List.length_eq_zero_iff.1 hpairs.symm]
      rfl
  | cons p points ih =>
      cases pairs with
      | nil => simp at hpairs
      | cons c pairs =>
          cases flags with
          | nil => simp at hflags
          | cons f flags =>
              have hpairs' : points.length = pairs.length := by simpa using hpairs
              have hflags' : flags.length = points.length := by simpa using hflags
              have ih := ih hpairs' hflags'
              cases f with
              | false => simpa [flagged, withFlags, keptPairs] using ih
              | true => simpa [flagged, withFlags, keptPairs, List.countP_cons] using ih

/-- A consensus accepted by the verifier: correspondences that one bounded similarity explains
exactly, pairwise far apart, at least four of them source members. -/
structure AcceptedConsensus (sourceMembership : List UInt8)
    (available kept : List (MatchCoordinates × Candidate)) (t : Transform) : Prop where
  sublist : kept.Sublist available
  bounded : t.Bounded
  residual : ∀ pc ∈ kept, exactResidual t pc.1 < 768
  apart : kept.Pairwise fun a b => 3584 ≤ sourceDistance a.1 b.1
  members : 4 ≤ kept.countP fun pc => memberBit sourceMembership pc.2.first

/-- The thinned consensus of an exact count is counted exactly. -/
theorem thinnedConsensus_counted {points : List MatchCoordinates} {t : Transform} {best : ℕ}
    (hbest : best = countInliers points t) : Counted (thinnedConsensus points t best) := by
  have hcount : Counted (points.map (isInlier t), best) := by
    simp only [Counted, hbest, countInliers, List.count, List.countP_map]
    refine List.countP_congr fun p _ => ?_
    simp only [Function.comp_apply, beq_true]
  rw [thinnedConsensus]
  exact suppress_counted hcount

theorem thinnedConsensus_length (points : List MatchCoordinates) (t : Transform) (best : ℕ) :
    (thinnedConsensus points t best).1.length = points.length := by
  rw [thinnedConsensus, suppress_length, List.length_map]

theorem movedConsensus_length (points : List MatchCoordinates) (kept : List Bool × ℕ) :
    (movedConsensus points kept).1.length = kept.1.length := by
  unfold movedConsensus
  split_ifs <;> simp

/-- A pair kept in the thinned consensus has a small exact residual. -/
theorem thinnedConsensus_residual {points : List MatchCoordinates} (hp : ∀ p ∈ points, InImage p)
    (best : ℕ) {t : Transform} (ht : t.Bounded) {i : ℕ} (hi : i < points.length)
    (h : flag (thinnedConsensus points t best).1 i = true) :
    exactResidual t points[i] < 768 := by
  have hin := ((suppress_flag_iff _ _ _ hi).1 h).1
  rwa [flag, List.getD_eq_getElem _ _ (by simpa using hi), List.getElem_map, isInlier,
    decide_eq_true_eq, similarityError_exact ht (hp _ (List.getElem_mem hi))] at hin

/-- Two pairs kept in the thinned consensus are far apart. -/
theorem thinnedConsensus_apart {points : List MatchCoordinates} (hp : ∀ p ∈ points, InImage p)
    (best : ℕ) (t : Transform) {i j : ℕ} (hij : i < j) (hj : j < points.length)
    (hfi : flag (thinnedConsensus points t best).1 i = true)
    (hfj : flag (thinnedConsensus points t best).1 j = true) :
    3584 ≤ sourceDistance points[i] points[j] :=
  sourceClose_eq_false hp (hij.trans hj) hj (((suppress_flag_iff _ _ _ hj).1 hfj).2 i hij hfi)

/-- The movement test that leaves some inliers leaves all. -/
theorem movedConsensus_eq {points : List MatchCoordinates} {kept : List Bool × ℕ}
    (h : (movedConsensus points kept).2 ≠ 0) : movedConsensus points kept = kept := by
  unfold movedConsensus at h ⊢
  split_ifs at h ⊢ with hlow
  · exact absurd rfl h
  · rfl

/-- The correspondences the thinned consensus keeps have small exact residuals. -/
theorem keptPairs_residual {points : List MatchCoordinates} (hp : ∀ p ∈ points, InImage p)
    {pairs : List Candidate} {t : Transform} (ht : t.Bounded)
    (hpairs : points.length = pairs.length) {best : ℕ} :
    ∀ pc ∈ keptPairs points pairs (thinnedConsensus points t best).1,
      exactResidual t pc.1 < 768 := by
  intro pc hpc
  obtain ⟨x, hx, rfl⟩ := List.mem_map.1 hpc
  obtain ⟨hzip, hf⟩ := List.mem_filter.1 hx
  obtain ⟨i, hi, rfl⟩ := List.mem_iff_getElem.1 hzip
  have hlen := thinnedConsensus_length points t best
  have hip : i < points.length := by
    rw [List.length_zip, List.length_zip] at hi
    omega
  simp only [List.getElem_zip] at hf ⊢
  refine thinnedConsensus_residual hp best ht hip ?_
  rw [flag, List.getD_eq_getElem _ _ (by omega)]
  exact hf

/-- The correspondences the thinned consensus keeps are pairwise far apart. -/
theorem keptPairs_apart {points : List MatchCoordinates} (hp : ∀ p ∈ points, InImage p)
    {pairs : List Candidate} {t : Transform} (hpairs : points.length = pairs.length) {best : ℕ} :
    (keptPairs points pairs (thinnedConsensus points t best).1).Pairwise
      fun a b => 3584 ≤ sourceDistance a.1 b.1 := by
  have hlen := thinnedConsensus_length points t best
  have hall : ((points.zip pairs).zip (thinnedConsensus points t best).1).Pairwise fun a b =>
      a.2 = true → b.2 = true → 3584 ≤ sourceDistance a.1.1 b.1.1 := by
    refine List.pairwise_iff_getElem.2 fun i j hi hj hij hfi hfj => ?_
    have hjp : j < points.length := by
      rw [List.length_zip, List.length_zip] at hj
      omega
    simp only [List.getElem_zip] at hfi hfj ⊢
    refine thinnedConsensus_apart hp best t hij hjp ?_ ?_
    · rw [flag, List.getD_eq_getElem _ _ (by omega)]
      exact hfi
    · rw [flag, List.getD_eq_getElem _ _ (by omega)]
      exact hfj
  exact List.pairwise_map.2 ((hall.filter _).imp_of_mem fun ha hb hab =>
    hab (List.mem_filter.1 ha).2 (List.mem_filter.1 hb).2)

/-- **What the settled consensus says when it leaves at least four inliers.** -/
theorem settleConsensus_sound {points : List MatchCoordinates} (hp : ∀ p ∈ points, InImage p)
    {pairs : List Candidate} (hpairs : points.length = pairs.length)
    {sourceMembership targetMembership : List UInt8} {best : ℕ} {t : Transform} (ht : t.Bounded)
    (hbest : best = countInliers points t) {result : GeometryResult}
    (h : 4 ≤ (settleConsensus points pairs sourceMembership targetMembership best t
      result).result.inliers) :
    ∃ kept, AcceptedConsensus sourceMembership (points.zip pairs) kept t ∧
      kept.length = (settleConsensus points pairs sourceMembership targetMembership best t
        result).result.inliers := by
  have hlen := thinnedConsensus_length points t best
  have hmlen : (movedConsensus points (thinnedConsensus points t best)).1.length =
      points.length := by
    rw [movedConsensus_length, hlen]
  have hmem := keptPairs_countP (memberBit sourceMembership) hpairs hmlen
  simp only [settleConsensus] at h ⊢
  -- the early exit leaves fewer than four inliers
  by_cases hfew : memberCount
      (withFlags pairs (movedConsensus points (thinnedConsensus points t best)).1)
      sourceMembership < 4
  · rw [if_pos hfew] at h
    exact absurd h (not_le.2 hfew)
  rw [if_neg hfew] at h ⊢
  -- hence the movement test has not cleared the flags
  have hmoved : movedConsensus points (thinnedConsensus points t best) =
      thinnedConsensus points t best := movedConsensus_eq
    (Nat.pos_iff_ne_zero.1 (Nat.lt_of_lt_of_le (by norm_num) h))
  rw [hmoved] at hmem hfew ⊢
  refine ⟨keptPairs points pairs (thinnedConsensus points t best).1,
    ⟨keptPairs_sublist _ _ _, ht, keptPairs_residual hp ht hpairs,
      keptPairs_apart hp hpairs, ?_⟩, ?_⟩
  · rw [← hmem]
    exact not_lt.1 hfew
  · rw [keptPairs_length hpairs hlen]
    exact (thinnedConsensus_counted hbest).symm

/-- **An accepted verification exhibits its consensus.** -/
theorem verifyGeometry_sound {points : List MatchCoordinates} (hp : ∀ p ∈ points, InImage p)
    {pairs : List Candidate} (hpairs : points.length = pairs.length)
    {sourceMembership targetMembership : List UInt8} {v : VerifiedGeometry}
    (h : verifyGeometryProfile300 points pairs sourceMembership targetMembership
      GeometryResult.zero = some v) (hinliers : 4 ≤ v.result.inliers) :
    ∃ t kept, AcceptedConsensus sourceMembership (points.zip pairs) kept t ∧
      kept.length = v.result.inliers := by
  unfold verifyGeometryProfile300 at h
  split_ifs at h with hsize hrange hfew
  · have hzero : v.result.inliers = 0 := by rw [← Option.some.inj h]; rfl
    omega
  · cases hloop : hypothesisLoop points 10000 0 initialConsensus with
    | none => simp only [hloop, reduceCtorEq] at h
    | some st =>
        have hst := hypothesisLoop_sound hp (initialConsensus_sound points) hloop
        simp only [hloop] at h
        by_cases hzero : st.best = 0
        · rw [if_pos hzero] at h
          have : v.result.inliers = st.best := by rw [← Option.some.inj h]
          omega
        · rw [if_neg hzero] at h
          have hpos : 0 < st.best := Nat.pos_of_ne_zero hzero
          rw [← Option.some.inj h] at hinliers ⊢
          obtain ⟨kept, haccepted, hlen⟩ :=
            settleConsensus_sound hp hpairs (hst.bounded hpos) (hst.count hpos) hinliers
          exact ⟨st.bestTransform, kept, haccepted, hlen⟩

end Fpc
