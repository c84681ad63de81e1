/-
**Matching does not depend on the order of the templates.**

The query's membership bitmap goes through every verification, and every verification may set bits
of it.  No score depends on these bits: they are written and never read.  So a collection scores the
same whatever was evaluated before it, and the walk over the collections finds a match exactly when
some collection reaches the threshold.

Main definitions:

* `Fpc.VerifiedGeometry.outcome`, `Fpc.CollectionScan.outcome` — everything but the bitmap;
* `Fpc.ReachesThreshold`, `Fpc.FirstReaches` — a collection scores high enough by itself, and is
  the first one.

Main results:

* `Fpc.matchProfile300Collection_outcome` — the outcome for a collection does not depend on the
  bits of the bitmap;
* `Fpc.identifyFrom_matched` — the walk ends at the first collection that reaches the threshold;
* `Fpc.identifyProfile300_order` — **identification does not depend on the order**.
-/

import FpcReader.Native.AcceptSound
import FpcReader.Native.MembershipFrame

set_option relaxedAutoImplicit false
set_option autoImplicit false

namespace Fpc

/-! ### The bitmap is only written -/

/-- Two options that look the same through a function. -/
theorem same_outcome {α β : Type} {f : α → β} {x y : Option α} (h : x.map f = y.map f) :
    (x = none ∧ y = none) ∨ ∃ a b, x = some a ∧ y = some b ∧ f a = f b := by
  cases x with
  | none => exact Or.inl ⟨rfl, Option.map_eq_none_iff.1 h.symm⟩
  | some a =>
      obtain ⟨b, hb, hsame⟩ := Option.map_eq_some_iff.1 h.symm
      exact Or.inr ⟨a, b, rfl, hb, hsame.symm⟩

/-- What a verification leaves behind apart from the bitmap. -/
def VerifiedGeometry.outcome (v : VerifiedGeometry) : List Candidate × GeometryResult :=
  (v.pairs, v.result)

theorem settleConsensus_outcome (points : List MatchCoordinates) (pairs : List Candidate)
    (sourceMembership targetMembership other : List UInt8) (best : ℕ) (t : Transform)
    (result : GeometryResult) :
    (settleConsensus points pairs sourceMembership targetMembership best t result).outcome =
      (settleConsensus points pairs sourceMembership other best t result).outcome := by
  unfold settleConsensus
  dsimp only
  split_ifs <;> rfl

theorem verifyGeometryProfile300_outcome {points : List MatchCoordinates} {pairs : List Candidate}
    {sourceMembership targetMembership other : List UInt8} {result : GeometryResult}
    (hsize : other.length = targetMembership.length) :
    (verifyGeometryProfile300 points pairs sourceMembership other result).map
        VerifiedGeometry.outcome =
      (verifyGeometryProfile300 points pairs sourceMembership targetMembership result).map
        VerifiedGeometry.outcome := by
  unfold verifyGeometryProfile300
  rw [hsize]
  split_ifs
  · rfl
  · rfl
  · rfl
  · cases hypothesisLoop points 10000 0 initialConsensus with
    | none => rfl
    | some st =>
        dsimp only
        by_cases hbest : st.best = 0
        · rw [if_pos hbest, if_pos hbest]
          rfl
        · rw [if_neg hbest, if_neg hbest]
          exact congrArg some (settleConsensus_outcome _ _ _ _ _ _ _ _)

theorem capturesMatchable_size {first second : CapturePayloadView}
    {targetMembership other : List UInt8} {capacity : ℕ}
    (hsize : other.length = targetMembership.length) :
    capturesMatchable first second other capacity =
      capturesMatchable first second targetMembership capacity := by
  rw [capturesMatchable, capturesMatchable, hsize]

/-- **One pair of captures**: the outcome does not depend on the bits of the bitmap. -/
theorem matchProfile300Captures_outcome {first second : CapturePayloadView}
    {targetMembership other : List UInt8} {capacity : ℕ}
    (hsize : other.length = targetMembership.length) :
    (matchProfile300Captures first second other capacity).map VerifiedGeometry.outcome =
      (matchProfile300Captures first second targetMembership capacity).map
        VerifiedGeometry.outcome := by
  unfold matchProfile300Captures
  rw [capturesMatchable_size hsize]
  split_ifs
  · rfl
  · rfl
  · split
    · rfl
    · split
      · rfl
      · exact verifyGeometryProfile300_outcome hsize

/-! ### A collection -/

/-- What the loop over the captures carries apart from the bitmap. -/
def CollectionScan.outcome (scan : CollectionScan) : Transform × CollectionMatchResult :=
  (scan.previousTransform, scan.result)

theorem matchCaptureStep_outcome {query : CapturePayloadView} {capacity : ℕ}
    {scan other : CollectionScan} {capture : LoadedCapture}
    (hsize : other.membership.length = scan.membership.length)
    (hsame : other.outcome = scan.outcome) :
    (matchCaptureStep query capacity other capture).map CollectionScan.outcome =
      (matchCaptureStep query capacity scan capture).map CollectionScan.outcome := by
  obtain ⟨htransform, hresult⟩ := Prod.mk.inj hsame
  have hverified :
      (matchProfile300Captures capture.view query other.membership capacity).map
          VerifiedGeometry.outcome =
        (matchProfile300Captures capture.view query scan.membership capacity).map
          VerifiedGeometry.outcome := matchProfile300Captures_outcome hsize
  unfold matchCaptureStep
  rcases same_outcome hverified with ⟨hother, hscan⟩ | ⟨v', v, hother, hscan, hsame⟩
  · rw [hother, hscan]
  · obtain ⟨hpairs, hgeometry⟩ := Prod.mk.inj hsame
    rw [hother, hscan]
    simp only [Option.map_some, CollectionScan.outcome, hpairs, hgeometry, htransform, hresult]

theorem matchCaptures_outcome {query : CapturePayloadView} {capacity : ℕ}
    {captures : List LoadedCapture} {scan other : CollectionScan}
    (hsize : other.membership.length = scan.membership.length)
    (hsame : other.outcome = scan.outcome) :
    (matchCaptures query capacity captures other).map CollectionScan.outcome =
      (matchCaptures query capacity captures scan).map CollectionScan.outcome := by
  induction captures generalizing scan other with
  | nil => exact congrArg some hsame
  | cons capture captures ih =>
      have hstep :
          (matchCaptureStep query capacity other capture).map CollectionScan.outcome =
            (matchCaptureStep query capacity scan capture).map CollectionScan.outcome :=
        matchCaptureStep_outcome hsize hsame
      rw [matchCaptures, matchCaptures]
      rcases same_outcome hstep with ⟨hother, hscan⟩ | ⟨next', next, hother, hscan, hsame⟩
      · rw [hother, hscan]
      · rw [hother, hscan]
        refine ih ?_ hsame
        rw [matchCaptureStep_membership hother, matchCaptureStep_membership hscan, hsize]

/-- **The outcome for a collection does not depend on the bits of the bitmap.** -/
theorem matchProfile300Collection_outcome (collection : LoadedCollection)
    (query : CapturePayloadView) {queryMembership other : List UInt8}
    (hsize : other.length = queryMembership.length) :
    (matchProfile300Collection collection query other).map Prod.fst =
      (matchProfile300Collection collection query queryMembership).map Prod.fst := by
  unfold matchProfile300Collection
  dsimp only
  split_ifs
  · rfl
  · rfl
  · set start : List UInt8 → CollectionScan := fun membership => ⟨membership, ⟨0, 0, 0, 0⟩,
      ⟨collection.captures.length, [], [], [], 0, -1, 0⟩⟩ with hstart
    set capacity := (collection.captures.map fun capture => capture.view.count).foldl max 0
    have hscan : (matchCaptures query capacity collection.captures (start other)).map
          CollectionScan.outcome =
        (matchCaptures query capacity collection.captures (start queryMembership)).map
          CollectionScan.outcome := matchCaptures_outcome hsize rfl
    rcases same_outcome hscan with ⟨hnone, hnone'⟩ | ⟨last', last, hlast', hlast, hsame⟩
    · rw [hnone, hnone']
    · obtain ⟨-, hresult⟩ := Prod.mk.inj hsame
      rw [hlast', hlast, Option.map_some, Option.map_some, hresult]

/-! ### The walk -/

/-- A collection scores high enough by itself. -/
def ReachesThreshold (policy : IdentificationPolicy) (query : CapturePayloadView)
    (queryMembership : List UInt8) (collection : LoadedCollection) : Prop :=
  ∃ found bits, matchProfile300Collection collection query queryMembership = some (found, bits) ∧
    policy.threshold ≤ found.score

/-- The result is that of the first collection that reaches the threshold, which comes after
`passed` others and those before it; or there is no match. -/
def FirstReaches (policy : IdentificationPolicy) (query : CapturePayloadView)
    (queryMembership : List UInt8) (passed : ℕ) (collections : List LoadedCollection)
    (result : IdentificationResult) : Prop :=
  (result.matched = 0 ∧ ∀ c ∈ collections, ¬ReachesThreshold policy query queryMembership c) ∨
    (result.matched = 1 ∧ ∃ before c after, collections = before ++ c :: after ∧
      ReachesThreshold policy query queryMembership c ∧
        (∀ b ∈ before, ¬ReachesThreshold policy query queryMembership b) ∧
          result.selectedTemplate = ((passed + before.length : ℕ) : ℤ))

section Walk

variable {query : CapturePayloadView} {policy : IdentificationPolicy}
  {queryMembership membership : List UInt8}

/-- The score of a collection in the walk is its own. -/
theorem ReachesThreshold.iff_found {collection : LoadedCollection}
    (hsize : membership.length = queryMembership.length) {found : CollectionMatchResult}
    {bits : List UInt8}
    (hfound : matchProfile300Collection collection query membership = some (found, bits)) :
    ReachesThreshold policy query queryMembership collection ↔ policy.threshold ≤ found.score := by
  have houtcome := matchProfile300Collection_outcome collection query hsize
  rw [hfound, Option.map_some] at houtcome
  constructor
  · rintro ⟨found', bits', hfound', hreaches⟩
    rw [hfound', Option.map_some] at houtcome
    rw [show found = found' from Option.some.inj houtcome]
    exact hreaches
  · intro hreaches
    obtain ⟨⟨found', bits'⟩, hfound', hsame⟩ := Option.map_eq_some_iff.1 houtcome.symm
    refine ⟨found', bits', hfound', ?_⟩
    rw [show found' = found from hsame]
    exact hreaches

/-- One collection that does not reach the threshold leaves the walk where it was. -/
theorem identifyStep_below {i : ℕ} {found : CollectionMatchResult} {result : IdentificationResult}
    (hbelow : ¬policy.threshold ≤ found.score) (hscore : (result.score : ℤ) < policy.threshold) :
    (identifyStep policy i found result).2 = false ∧
      ((identifyStep policy i found result).1.score : ℤ) < policy.threshold ∧
        (identifyStep policy i found result).1.matched = result.matched := by
  unfold identifyStep
  dsimp only
  split_ifs
  · exact ⟨rfl, not_le.1 hbelow, rfl⟩
  · exact ⟨rfl, hscore, rfl⟩

/-- One collection that reaches the threshold ends the walk. -/
theorem identifyStep_reaches {i : ℕ} {found : CollectionMatchResult} {result : IdentificationResult}
    (hreaches : policy.threshold ≤ found.score) (hscore : (result.score : ℤ) < policy.threshold) :
    (identifyStep policy i found result).2 = true ∧
      (identifyStep policy i found result).1.matched = 1 ∧
        (identifyStep policy i found result).1.selectedTemplate = i := by
  have hbetter : result.score < found.score := by exact_mod_cast hscore.trans_le hreaches
  unfold identifyStep
  dsimp only
  rw [if_pos hbetter, if_pos hreaches]
  exact ⟨rfl, rfl, rfl⟩

/-- What the walk from collection `i` on leads to: the first collection that reaches the threshold,
or no match. -/
theorem identifyFrom_matched {collections : List LoadedCollection} {i : ℕ}
    {result : IdentificationResult} (hsize : membership.length = queryMembership.length)
    (hscore : (result.score : ℤ) < policy.threshold) (hmatched : result.matched = 0)
    (herror : ∀ c ∈ collections, matchProfile300Collection c query queryMembership ≠ none) :
    ∃ last bits, identifyFrom query policy i collections result membership = some (last, bits) ∧
      FirstReaches policy query queryMembership i collections last := by
  induction collections generalizing i result membership with
  | nil => exact ⟨result, membership, rfl, Or.inl ⟨hmatched, by simp⟩⟩
  | cons collection collections ih =>
      -- the collection does not error with the bits that are set by now either
      have houtcome := matchProfile300Collection_outcome collection query hsize
      rcases same_outcome houtcome with ⟨-, hnone⟩ | ⟨⟨found, bits⟩, -, hfound, -, -⟩
      · exact absurd hnone (herror collection List.mem_cons_self)
      · rw [identifyFrom, hfound]
        dsimp only
        by_cases hreaches : policy.threshold ≤ found.score
        · obtain ⟨hend, hone, hselected⟩ := identifyStep_reaches (i := i) hreaches hscore
          rw [if_pos hend]
          refine ⟨_, _, rfl, Or.inr ⟨hone, [], collection, collections, rfl,
            (ReachesThreshold.iff_found hsize hfound).2 hreaches, by simp, ?_⟩⟩
          rw [hselected, List.length_nil, add_zero]
        · obtain ⟨hend, hbelow, hsame⟩ := identifyStep_below (i := i) hreaches hscore
          rw [hend, if_neg (by simp)]
          have hnot : ¬ReachesThreshold policy query queryMembership collection := fun h =>
            hreaches ((ReachesThreshold.iff_found hsize hfound).1 h)
          obtain ⟨last, bits', hwalk, hcase⟩ := ih (i := i + 1)
            ((matchProfile300Collection_membership hfound).trans hsize) hbelow
            (hsame.trans hmatched) fun c hc => herror c (List.mem_cons_of_mem _ hc)
          refine ⟨last, bits', hwalk, ?_⟩
          rcases hcase with ⟨hzero, hnone⟩ | ⟨hone, before, c, after, rfl, hc, hbefore, hselected⟩
          · refine Or.inl ⟨hzero, fun c hc => ?_⟩
            rcases List.mem_cons.1 hc with rfl | hc
            · exact hnot
            · exact hnone c hc
          · refine Or.inr ⟨hone, collection :: before, c, after, rfl, hc, fun b hb => ?_, ?_⟩
            · rcases List.mem_cons.1 hb with rfl | hb
              · exact hnot
              · exact hbefore b hb
            · rw [hselected, List.length_cons]
              push_cast
              ring

/-- What identification leads to. -/
theorem identifyProfile300_matched {collections : List LoadedCollection} (queryQuality : ℤ)
    (hsize : membership.length = queryMembership.length) (hpolicy : 0 < policy.threshold)
    (herror : ∀ c ∈ collections, matchProfile300Collection c query queryMembership ≠ none) :
    (identifyProfile300 collections query queryQuality membership policy = none ↔
      100 < collections.length ∨ policy.reportedScoreLimit < 0) ∧
      ∀ result bits,
        identifyProfile300 collections query queryQuality membership policy = some (result, bits) →
          FirstReaches policy query queryMembership 0 collections result := by
  have hscore : (IdentificationResult.empty.score : ℤ) < policy.threshold := hpolicy
  obtain ⟨last, bits, hwalk, hcase⟩ := identifyFrom_matched (i := 0) hsize hscore rfl herror
  unfold identifyProfile300
  by_cases hrefused : 100 < collections.length ∨ policy.reportedScoreLimit < 0
  · rw [if_pos hrefused]
    exact ⟨iff_of_true rfl hrefused, nofun⟩
  · rw [if_neg hrefused, hwalk]
    refine ⟨iff_of_false nofun hrefused, fun result bits' heq => ?_⟩
    obtain ⟨rfl, -⟩ := Prod.mk.inj (Option.some.inj heq)
    exact hcase

theorem FirstReaches.matched_iff {collections : List LoadedCollection} {passed : ℕ}
    {result : IdentificationResult}
    (h : FirstReaches policy query queryMembership passed collections result) :
    result.matched = 1 ↔ ∃ c ∈ collections, ReachesThreshold policy query queryMembership c := by
  rcases h with ⟨hzero, hall⟩ | ⟨hone, before, c, after, rfl, hc, -⟩
  · refine iff_of_false (by simp [hzero]) ?_
    rintro ⟨c, hc, hreaches⟩
    exact hall c hc hreaches
  · exact iff_of_true hone ⟨c, by simp, hc⟩

theorem FirstReaches.matched_cases {collections : List LoadedCollection} {passed : ℕ}
    {result : IdentificationResult}
    (h : FirstReaches policy query queryMembership passed collections result) :
    result.matched = 0 ∨ result.matched = 1 :=
  h.imp And.left And.left

end Walk

/-- **Identification does not depend on the order of the templates or on the bitmap.**  If no
collection makes matching fail, `matched` is the same for every order of the collections and for all
bits of the bitmap; every collection has the outcome it has by itself, whatever was evaluated before
it; and a match is reported exactly when some collection reaches the threshold, for the first one
that does. -/
theorem identifyProfile300_order {collections permuted : List LoadedCollection}
    {query : CapturePayloadView} {policy : IdentificationPolicy}
    {queryMembership other : List UInt8} (hpolicy : 0 < policy.threshold)
    (hperm : permuted.Perm collections) (hsize : other.length = queryMembership.length)
    (herror : ∀ c ∈ collections, matchProfile300Collection c query queryMembership ≠ none)
    (queryQuality : ℤ) :
    (identifyProfile300 permuted query queryQuality other policy).map (fun r => r.1.matched) =
        (identifyProfile300 collections query queryQuality queryMembership policy).map
          (fun r => r.1.matched) ∧
      (∀ i before result last bits,
        identifyFrom query policy i before result other = some (last, bits) →
          ∀ c, (matchProfile300Collection c query bits).map Prod.fst =
            (matchProfile300Collection c query queryMembership).map Prod.fst) ∧
        ∀ result bits, identifyProfile300 collections query queryQuality queryMembership policy =
            some (result, bits) →
          (result.matched = 1 ↔
            ∃ c ∈ collections, ReachesThreshold policy query queryMembership c) ∧
            (result.matched = 1 → ∃ before c after, collections = before ++ c :: after ∧
              ReachesThreshold policy query queryMembership c ∧
                (∀ b ∈ before, ¬ReachesThreshold policy query queryMembership b) ∧
                  result.selectedTemplate = (before.length : ℤ)) := by
  obtain ⟨hnone, hresult⟩ := identifyProfile300_matched queryQuality
    (rfl : queryMembership.length = queryMembership.length) hpolicy herror
  obtain ⟨hnone', hresult'⟩ := identifyProfile300_matched queryQuality hsize
    hpolicy fun c hc => herror c (hperm.mem_iff.1 hc)
  refine ⟨?_, ?_, ?_⟩
  · cases hrun : identifyProfile300 collections query queryQuality queryMembership policy with
    | none =>
        rw [hnone'.2 (hperm.length_eq ▸ hnone.1 hrun)]
    | some r =>
        cases hrun' : identifyProfile300 permuted query queryQuality other policy with
        | none =>
            rw [hnone.2 (hperm.length_eq ▸ hnone'.1 hrun')] at hrun
            cases hrun
        | some r' =>
            have hfirst := hresult r.1 r.2 hrun
            have hfirst' := hresult' r'.1 r'.2 hrun'
            have hiff : r'.1.matched = 1 ↔ r.1.matched = 1 := by
              rw [hfirst'.matched_iff, hfirst.matched_iff]
              simp only [hperm.mem_iff]
            refine congrArg some ?_
            rcases hfirst.matched_cases with h | h <;> rcases hfirst'.matched_cases with h' | h' <;>
              simp_all
  · intro i before result last bits hwalk c
    exact matchProfile300Collection_outcome c query ((identifyFrom_membership hwalk).trans hsize)
  · intro result bits hrun
    have hfirst := hresult result bits hrun
    refine ⟨hfirst.matched_iff, fun hone => ?_⟩
    rcases hfirst with ⟨hzero, -⟩ | ⟨-, before, c, after, heq, hc, hbefore, hselected⟩
    · rw [hzero] at hone
      exact absurd hone (by simp)
    · rw [Nat.zero_add] at hselected
      exact ⟨before, c, after, heq, hc, hbefore, hselected⟩

/-- A template that matches and one without captures, in either order. -/
theorem identifyProfile300_order_curve :
    (identifyProfile300 [⟨[⟨curveCapture 0, some 1⟩], 32⟩, ⟨[], 32⟩] (curveCapture 3) 0 [0]
        ⟨4, 1000, 5, 20⟩).map (fun r => r.1.matched) =
      (identifyProfile300 [⟨[], 32⟩, ⟨[⟨curveCapture 0, some 1⟩], 32⟩] (curveCapture 3) 0 [255]
        ⟨4, 1000, 5, 20⟩).map (fun r => r.1.matched) := by
  have hpolicy : 0 < (⟨4, 1000, 5, 20⟩ : IdentificationPolicy).threshold := by decide
  have hperm : List.Perm [(⟨[⟨curveCapture 0, some 1⟩], 32⟩ : LoadedCollection), ⟨[], 32⟩]
      [⟨[], 32⟩, ⟨[⟨curveCapture 0, some 1⟩], 32⟩] := .swap _ _ _
  have hsize : ([0] : List UInt8).length = ([255] : List UInt8).length := rfl
  have herror : ∀ c ∈ [(⟨[], 32⟩ : LoadedCollection), ⟨[⟨curveCapture 0, some 1⟩], 32⟩],
      matchProfile300Collection c (curveCapture 3) [255] ≠ none := by
    intro c hc
    simp only [List.mem_cons, List.not_mem_nil, or_false] at hc
    rcases hc with rfl | rfl
    · exact Option.isSome_iff_ne_none.1 (by decide +kernel)
    · exact Option.isSome_iff_ne_none.1 (by decide +kernel)
  exact (identifyProfile300_order hpolicy hperm hsize herror 0).1

end Fpc
