/-
**Ranking scores of single precision.**

The quicksort of the source compares scores with `<=` only.  On the values of the type that are
numbers, infinities among them, this comparison is total and transitive, which is all the sort
needs: both parts of a split are shorter than the whole, because the pivot compares with itself, and
what is left between them equals the pivot.

Main definitions:

* `Fpc.isNan`, `Fpc.floatValue` — the values of a 32-bit floating-point word;
* `Fpc.floatLe` — its comparison.

Main results:

* `Fpc.floatLe_total`, `Fpc.floatLe_trans` — numbers are totally ordered;
* `Fpc.fpcSortFeatureScores_total` — **totally ordered scores are sorted**.
-/

import FpcReader.Native.FeatureBudget

set_option relaxedAutoImplicit false
set_option autoImplicit false

namespace Fpc

/-! ### Single precision -/

/-- The exponent field of a word. -/
def floatExponent (x : BitVec 32) : ℕ := x.toNat / 2 ^ 23 % 2 ^ 8

/-- The fraction field of a word. -/
def floatFraction (x : BitVec 32) : ℕ := x.toNat % 2 ^ 23

/-- Not a number. -/
def isNan (x : BitVec 32) : Bool := floatExponent x = 255 ∧ floatFraction x ≠ 0

/-- The magnitude of a number in units of the smallest positive one.  An infinity has the magnitude
of the next power of two, above all finite ones. -/
def floatMagnitude (x : BitVec 32) : ℕ :=
  if floatExponent x = 0 then floatFraction x
  else (2 ^ 23 + floatFraction x) * 2 ^ (floatExponent x - 1)

/-- The value of a number in these units; both zeros have the value zero. -/
def floatValue (x : BitVec 32) : ℤ := if x.msb then -floatMagnitude x else floatMagnitude x

/-- `a <= b`, which does not hold of anything that is not a number. -/
def floatLe (a b : BitVec 32) : Bool :=
  !isNan a && !isNan b && decide (floatValue a ≤ floatValue b)

theorem floatLe_iff {a b : BitVec 32} (ha : isNan a = false) (hb : isNan b = false) :
    floatLe a b = true ↔ floatValue a ≤ floatValue b := by
  simp [floatLe, ha, hb]

theorem floatLe_total {a b : BitVec 32} (ha : isNan a = false) (hb : isNan b = false) :
    floatLe a b = true ∨ floatLe b a = true := by
  rw [floatLe_iff ha hb, floatLe_iff hb ha]
  exact le_total _ _

theorem floatLe_trans {a b c : BitVec 32} (ha : isNan a = false) (hb : isNan b = false)
    (hc : isNan c = false) (hab : floatLe a b = true) (hbc : floatLe b c = true) :
    floatLe a c = true := by
  rw [floatLe_iff ha hb] at hab
  rw [floatLe_iff hb hc] at hbc
  rw [floatLe_iff ha hc]
  exact hab.trans hbc

/-! ### Sorting -/

/-- **Totally ordered scores are sorted.** -/
theorem fpcSortFeatureScores_total {S : Type} {le : S → S → Bool} {records : List (RankedScore S)}
    (hcount : records.length ≤ 2048)
    (htotal : ∀ a ∈ records, ∀ b ∈ records,
      le a.score b.score = true ∨ le b.score a.score = true)
    (htrans : ∀ a ∈ records, ∀ b ∈ records, ∀ c ∈ records, le a.score b.score = true →
      le b.score c.score = true → le a.score c.score = true) :
    ∃ sorted, fpcSortFeatureScores le records = .ok sorted ∧ sorted.Perm records ∧
      sorted.Pairwise fun a b => le b.score a.score = true := by
  have hself : ∀ r ∈ records, le r.score r.score = true := by
    intro r hr
    rcases htotal r hr r hr with h | h
    · exact h
    · exact h
  have haccepted : ¬fpcSortFeatureScores le records = .error .refused := by
    have hguard : ¬(2048 < records.length ∨ records.any (fun r => !le r.score r.score)) := by
      rintro (hlong | hany)
      · omega
      · obtain ⟨r, hr, hbad⟩ := List.any_eq_true.1 hany
        rw [hself r hr] at hbad
        cases hbad
    rw [fpcSortFeatureScores, if_neg hguard]
    split
    · exact fun h => by cases h
    · exact fun h => by cases h
  rcases fpcSortFeatureScores_perm le records with hrefused | ⟨sorted, hok, hperm⟩
  · exact absurd hrefused haccepted
  refine ⟨sorted, hok, hperm, ?_⟩
  -- the scores of the records, and nothing else, have to be comparable
  refine fpcSortFeatureScores_sorted (P := fun s => ∃ r ∈ records, r.score = s) ?_ ?_
    (fun r hr => ⟨r, hr, rfl⟩) hok
  · rintro _ _ ⟨a, ha, rfl⟩ ⟨b, hb, rfl⟩ hle
    rcases htotal a ha b hb with h | h
    · rw [h] at hle
      cases hle
    · exact h
  · rintro _ _ _ ⟨a, ha, rfl⟩ ⟨b, hb, rfl⟩ ⟨c, hc, rfl⟩ hab hbc
    exact htrans a ha b hb c hc hab hbc

/-- **The quicksort comes to an end and sorts.**  Of up to 2048 records whose scores are totally
ordered it leaves a permutation with scores that never increase, without having read outside the
array; and scores of single precision are totally ordered as soon as none is not a number, equal
scores, both zeros and infinities included. -/
theorem fpcSortFeatureScores_sorts :
    (∀ (S : Type) (le : S → S → Bool) (records : List (RankedScore S)), records.length ≤ 2048 →
      (∀ a ∈ records, ∀ b ∈ records, le a.score b.score = true ∨ le b.score a.score = true) →
      (∀ a ∈ records, ∀ b ∈ records, ∀ c ∈ records, le a.score b.score = true →
        le b.score c.score = true → le a.score c.score = true) →
      ∃ sorted, fpcSortFeatureScores le records = .ok sorted ∧ sorted.Perm records ∧
        sorted.Pairwise fun a b => le b.score a.score = true) ∧
    ∀ records : List (RankedScore (BitVec 32)), records.length ≤ 2048 →
      (∀ r ∈ records, isNan r.score = false) →
      ∃ sorted, fpcSortFeatureScores floatLe records = .ok sorted ∧ sorted.Perm records ∧
        sorted.Pairwise fun a b => floatValue b.score ≤ floatValue a.score := by
  refine ⟨fun S le records hcount htotal htrans =>
    fpcSortFeatureScores_total hcount htotal htrans, ?_⟩
  intro records hcount hnumbers
  have htotal : ∀ a ∈ records, ∀ b ∈ records,
      floatLe a.score b.score = true ∨ floatLe b.score a.score = true :=
    fun a ha b hb => floatLe_total (hnumbers a ha) (hnumbers b hb)
  obtain ⟨sorted, hok, hperm, hsorted⟩ := fpcSortFeatureScores_total hcount htotal
    fun a ha b hb c hc => floatLe_trans (hnumbers a ha) (hnumbers b hb) (hnumbers c hc)
  refine ⟨sorted, hok, hperm, hsorted.imp_of_mem ?_⟩
  intro a b ha hb hle
  exact (floatLe_iff (hnumbers b (hperm.mem_iff.1 hb)) (hnumbers a (hperm.mem_iff.1 ha))).1 hle

/-- One, infinity, minus one and both zeros. -/
theorem fpcSortFeatureScores_sorts_infinity :
    ∃ sorted, fpcSortFeatureScores floatLe [⟨0, 0x3f800000⟩, ⟨1, 0x7f800000⟩, ⟨2, 0xbf800000⟩,
      ⟨3, 0x80000000⟩, ⟨4, 0⟩] = .ok sorted ∧
      sorted.Pairwise fun a b => floatValue b.score ≤ floatValue a.score := by
  obtain ⟨sorted, hok, -, hsorted⟩ := fpcSortFeatureScores_sorts.2 [⟨0, 0x3f800000⟩,
    ⟨1, 0x7f800000⟩, ⟨2, 0xbf800000⟩, ⟨3, 0x80000000⟩, ⟨4, 0⟩] (by decide) (by decide)
  exact ⟨sorted, hok, hsorted⟩

end Fpc
