/-
**Matching keeps the size of the query bitmap.**

Every verification may set bits of the query's membership bitmap and nothing else, so the bitmap has
its length after any number of captures and collections.

Main results:

* `Fpc.matchProfile300Captures_membership` — one pair of captures;
* `Fpc.matchProfile300Collection_membership`, `Fpc.identifyProfile300_membership` — **a collection,
  and the walk over all collections**.
-/

import FpcReader.Native.Matching

set_option relaxedAutoImplicit false
set_option autoImplicit false

namespace Fpc

theorem foldl_setBit_length {α : Type} (f : α → ℕ) (marks : List α) (membership : List UInt8) :
    (marks.foldl (fun bits mark => setBit bits (f mark)) membership).length =
      membership.length := by
  induction marks generalizing membership with
  | nil => rfl
  | cons mark marks ih => rw [List.foldl_cons, ih, setBit, List.length_modify]

@[simp]
theorem touchTarget_length (points : List MatchCoordinates) (pairs : List Candidate)
    (targetMembership : List UInt8) :
    (touchTarget points pairs targetMembership).length = targetMembership.length :=
  foldl_setBit_length _ _ _

theorem settleConsensus_membership (points : List MatchCoordinates) (pairs : List Candidate)
    (sourceMembership targetMembership : List UInt8) (best : ℕ) (t : Transform)
    (result : GeometryResult) :
    (settleConsensus points pairs sourceMembership targetMembership best t
      result).targetMembership.length = targetMembership.length := by
  unfold settleConsensus
  dsimp only
  split_ifs <;> simp only [touchTarget_length]

theorem verifyGeometryProfile300_membership {points : List MatchCoordinates}
    {pairs : List Candidate} {sourceMembership targetMembership : List UInt8}
    {result : GeometryResult} {v : VerifiedGeometry}
    (h : verifyGeometryProfile300 points pairs sourceMembership targetMembership result = some v) :
    v.targetMembership.length = targetMembership.length := by
  unfold verifyGeometryProfile300 at h
  dsimp only at h
  split_ifs at h
  · obtain rfl := Option.some.inj h
    rfl
  · split at h
    · cases h
    · rename_i st _
      by_cases hbest : st.best = 0
      · rw [if_pos hbest] at h
        obtain rfl := Option.some.inj h
        rfl
      · rw [if_neg hbest] at h
        obtain rfl := Option.some.inj h
        exact settleConsensus_membership _ _ _ _ _ _ _

theorem matchProfile300Captures_membership {first second : CapturePayloadView}
    {targetMembership : List UInt8} {capacity : ℕ} {v : VerifiedGeometry}
    (h : matchProfile300Captures first second targetMembership capacity = some v) :
    v.targetMembership.length = targetMembership.length := by
  unfold matchProfile300Captures at h
  split_ifs at h
  · obtain rfl := Option.some.inj h
    rfl
  · split at h
    · cases h
    · split at h
      · cases h
      · exact verifyGeometryProfile300_membership h

theorem matchCaptureStep_membership {query : CapturePayloadView} {capacity : ℕ}
    {scan next : CollectionScan} {capture : LoadedCapture}
    (h : matchCaptureStep query capacity scan capture = some next) :
    next.membership.length = scan.membership.length := by
  unfold matchCaptureStep at h
  split at h
  · cases h
  · rename_i hverified
    obtain rfl := Option.some.inj h
    exact matchProfile300Captures_membership hverified

theorem matchCaptures_membership {query : CapturePayloadView} {capacity : ℕ}
    {captures : List LoadedCapture} {scan last : CollectionScan}
    (h : matchCaptures query capacity captures scan = some last) :
    last.membership.length = scan.membership.length := by
  induction captures generalizing scan with
  | nil =>
      obtain rfl := Option.some.inj h
      rfl
  | cons capture captures ih =>
      rw [matchCaptures] at h
      split at h
      · cases h
      · rename_i hstep
        rw [ih h, matchCaptureStep_membership hstep]

/-- **Matching a collection keeps the size of the bitmap.** -/
theorem matchProfile300Collection_membership {collection : LoadedCollection}
    {query : CapturePayloadView} {queryMembership membership : List UInt8}
    {found : CollectionMatchResult}
    (h : matchProfile300Collection collection query queryMembership = some (found, membership)) :
    membership.length = queryMembership.length := by
  unfold matchProfile300Collection at h
  dsimp only at h
  split_ifs at h
  split at h
  · cases h
  · rename_i hscan
    obtain ⟨-, rfl⟩ := Prod.mk.inj (Option.some.inj h)
    exact matchCaptures_membership hscan

theorem identifyFrom_membership {query : CapturePayloadView} {policy : IdentificationPolicy}
    {i : ℕ} {collections : List LoadedCollection} {result last : IdentificationResult}
    {queryMembership membership : List UInt8}
    (h : identifyFrom query policy i collections result queryMembership =
      some (last, membership)) :
    membership.length = queryMembership.length := by
  induction collections generalizing i result queryMembership with
  | nil =>
      obtain ⟨-, rfl⟩ := Prod.mk.inj (Option.some.inj h)
      rfl
  | cons collection collections ih =>
      rw [identifyFrom] at h
      split at h
      · cases h
      · rename_i hfound
        dsimp only at h
        split_ifs at h
        · obtain ⟨-, rfl⟩ := Prod.mk.inj (Option.some.inj h)
          exact matchProfile300Collection_membership hfound
        · rw [ih h, matchProfile300Collection_membership hfound]

/-- **Identification keeps the size of the bitmap.** -/
theorem identifyProfile300_membership {collections : List LoadedCollection}
    {query : CapturePayloadView} {queryQuality : ℤ} {queryMembership membership : List UInt8}
    {policy : IdentificationPolicy} {result : IdentificationResult}
    (h : identifyProfile300 collections query queryQuality queryMembership policy =
      some (result, membership)) :
    membership.length = queryMembership.length := by
  unfold identifyProfile300 at h
  split_ifs at h
  split at h
  · cases h
  · rename_i hwalk
    obtain ⟨-, rfl⟩ := Prod.mk.inj (Option.some.inj h)
    exact identifyFrom_membership hwalk

end Fpc
