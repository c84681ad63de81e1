/-
**The groups of a session.**

`Native/EnrollmentRuns.lean` leaves regrouping open: a call brings its outcome along.  Here calls
regroup as the source does, from the records of the session, and the groups of every session that
has not failed are the connected components of its matches.  What regrouping asks of the records
holds in every session: a match has no more inliers than a capture has features, so all of them
together are far from the largest signed word.

Main definitions:

* `Fpc.NativeEnrollment.regrouped`, `Fpc.Regroups` — what `Fpc.rebuildCaptureGroups` makes of a
  session, and a call that brings this along;
* `Fpc.NativeEnrollment.GroupedByMatches` — the groups of a session are the components.

Main results:

* `Fpc.pairMatch_inliers_le` — a record has at most three hundred inliers;
* `Fpc.NativeEnrollment.Sound.totalInliers_lt` — so the inliers of a session fit a signed word;
* `Fpc.enrollAll_groupedByMatches` — **the groups of every session are components**.
-/

import FpcReader.Native.AcceptSound
import FpcReader.Native.EnrollmentRuns
import FpcReader.Native.Grouping

set_option relaxedAutoImplicit false
set_option autoImplicit false

namespace Fpc

open Stages

variable {F : Type}

/-! ### Inliers -/

/-- A stored capture has one level at scale one. -/
theorem enrolledCapture_isProfile300 {call : EnrollmentCall F}
    (hfew : call.prepared.features.length ≤ 300) : (enrolledCapture call).view.IsProfile300 := by
  have hfits : (enrolledCapture call).view.Fits defaultFlags :=
    (captureFromPrepared_sound (captureFromPrepared_total hfew true call.fresh)).2.2
  exact {
    mode := rfl
    descriptorBytes := rfl
    levels := rfl
    fields := rfl
    coordinates := hfits.compact rfl
    descriptors := (hfits.descriptors rfl).trans (Nat.mul_comm _ _)
    membership := hfits.membership rfl }

/-- **A match has no more inliers than a capture has features.** -/
theorem pairMatch_inliers_le {earlier later : EnrollmentCall F}
    (hearlier : earlier.prepared.features.length ≤ 300)
    (hlater : later.prepared.features.length ≤ 300) {v : VerifiedGeometry}
    (hv : pairMatch (enrolledCapture earlier) (enrolledCapture later) = some v) :
    v.result.inliers ≤ 300 := by
  by_contra hmany
  obtain ⟨t, pairs, hevidence, hlength⟩ := matchProfile300Captures_sound
    (enrolledCapture_isProfile300 hearlier) (enrolledCapture_isProfile300 hlater) hv (by omega)
  -- the inliers belong to different features of the earlier capture
  have hfeatures : pairs.map Prod.fst ⊆ List.range earlier.prepared.features.length := by
    intro i hi
    obtain ⟨ij, hij, rfl⟩ := List.mem_map.1 hi
    exact List.mem_range.2 (hevidence.nearest ij hij).column.lt
  have hle := (hevidence.first_nodup.subperm hfeatures).length_le
  rw [List.length_map, List.length_range] at hle
  omega

/-- The inliers of all records so far. -/
def NativeEnrollment.totalInliers (s : NativeEnrollment F) : ℕ :=
  ((s.captureMatches.take s.pairCount).map CaptureMatch.inliers).sum

/-- **All inliers together** fit a signed word: there are at most 78 records. -/
theorem NativeEnrollment.Sound.totalInliers_lt {s : NativeEnrollment F}
    {accepted : List (EnrollmentCall F)} (h : s.Sound accepted) : s.totalInliers < 2 ^ 31 := by
  have hpairs : Triangle.pairs s.count ≤ 78 := Triangle.pairs_mono h.count_le
  have hlength : (s.captureMatches.take s.pairCount).length = Triangle.pairs s.count := by
    rw [List.length_take, h.records.1, h.pairCount, min_eq_left hpairs]
  have hrecord : ∀ k < Triangle.pairs s.count, ∀ m, s.captureMatches[k]? = some m →
      m.inliers ≤ 300 := by
    intro k hk m hm
    obtain ⟨later, earlier, hlt, hlater, rfl⟩ := Triangle.exists_append hk
    rw [h.count] at hlater
    have hlaterCall := List.getElem?_eq_getElem hlater
    have hearlierCall := List.getElem?_eq_getElem (hlt.trans hlater)
    obtain ⟨v, hv, hmatch, -⟩ := h.pairs later earlier _ _ hlt hlaterCall hearlierCall
    rw [hm] at hmatch
    rw [Option.some.inj hmatch, matchRecord]
    dsimp only
    split_ifs
    · exact pairMatch_inliers_le (h.few _ (List.getElem_mem _)) (h.few _ (List.getElem_mem _)) hv
    · exact Nat.zero_le _
  have hsum : s.totalInliers ≤
      ((s.captureMatches.take s.pairCount).map CaptureMatch.inliers).length • 300 := by
    refine List.sum_le_card_nsmul _ _ ?_
    intro n hn
    obtain ⟨m, hm, rfl⟩ := List.mem_map.1 hn
    obtain ⟨k, hk, hget⟩ := List.mem_take_iff_getElem.1 hm
    rw [h.pairCount] at hk
    exact hrecord k (by omega) m (hget ▸ List.getElem?_eq_getElem _)
  rw [List.length_map, hlength, smul_eq_mul] at hsum
  omega

/-! ### Roots -/

section Roots

variable {groupFloats : GroupFloats F} {captureMatches : List CaptureMatch} {count : ℕ}
  {preserveTransforms : Bool}

/-- Growing a group does not touch the roots. -/
theorem growGroup_roots {fuel : ℕ} {s s' : GroupingState F}
    (h : growGroup groupFloats captureMatches count preserveTransforms fuel s = some (.ok s')) :
    s'.roots = s.roots := by
  induction fuel generalizing s with
  | zero => cases h
  | succ fuel ih =>
      rw [growGroup] at h
      split_ifs at h
      · cases h
        rfl
      · cases hjoin : joinGroup groupFloats preserveTransforms
            (heaviestCapture count (pairWeights captureMatches count (joinsGroup s))) s with
        | error e =>
            rw [hjoin] at h
            cases h
        | ok joined =>
            rw [hjoin] at h
            have hjoined : joined.roots = s.roots := by
              rw [joinGroup] at hjoin
              dsimp only at hjoin
              split_ifs at hjoin
              · split at hjoin
                · cases hjoin
                · cases hjoin
                  rfl
              · cases hjoin
                rfl
            exact (ih h).trans hjoined

/-- The array of roots keeps its length. -/
theorem growGroups_roots {fuel : ℕ} {s s' : GroupingState F}
    (h : growGroups groupFloats captureMatches count preserveTransforms fuel s = some (.ok s')) :
    s'.roots.length = s.roots.length := by
  induction fuel generalizing s with
  | zero => cases h
  | succ fuel ih =>
      rw [growGroups] at h
      split_ifs at h
      · cases h
        rfl
      · cases hgrow : growGroup groupFloats captureMatches count preserveTransforms (fuel + 1)
            (startGroup groupFloats
              (heaviestCapture count (pairWeights captureMatches count (startsGroup s))) s) with
        | none =>
            rw [hgrow] at h
            cases h
        | some grown =>
            rw [hgrow] at h
            cases grown with
            | error e => cases h
            | ok grown =>
                rw [ih h, growGroup_roots hgrow, startGroup, List.length_set]

theorem keepSelection_roots (count : ℕ) (s : GroupingState F) (grouping : CaptureGroupsState F) :
    (keepSelection count s grouping).1.length = s.roots.length := by
  rw [keepSelection]
  rcases followReference_cases count grouping.referenceCapture s.groups s.roots with
    ⟨hfound, -⟩ | ⟨i, -, -, hpos, hfound⟩
  · simp only [hfound, if_true]
  · have hne : s.groups.getD i (-1) ≠ -1 := by omega
    simp only [hfound, hne, if_false, List.length_set]

theorem rebuildCaptureGroups_roots {allocated : Bool} {fuel : ℕ} {minimumGroupSize : ℤ}
    {groups : List ℤ} {roots : List UInt16} {transforms : List F}
    {grouping : CaptureGroupsState F} {flags : UInt32} {r : Regrouped F}
    (h : rebuildCaptureGroups groupFloats captureMatches count preserveTransforms allocated fuel
      minimumGroupSize groups roots transforms grouping flags = some r) (hstatus : r.status = 0) :
    r.roots.length = roots.length := by
  rw [rebuildCaptureGroups] at h
  split_ifs at h
  · cases h
    exact absurd hstatus (show ¬(-1 : ℤ) = 0 by decide)
  cases hgrow : growGroups groupFloats captureMatches count preserveTransforms fuel
      ⟨List.replicate count false, List.replicate count (-1) ++ groups.drop count, roots,
        transforms, -1⟩ with
  | none =>
      rw [hgrow] at h
      cases h
  | some grown =>
      rw [hgrow] at h
      cases grown with
      | error e =>
          cases h
          exact absurd hstatus (show ¬(-1 : ℤ) = 0 by decide)
      | ok s =>
          have hroots := growGroups_roots hgrow
          dsimp only at h
          split_ifs at h
          · split at h <;> cases h
            · exact absurd hstatus (show ¬(-1 : ℤ) = 0 by decide)
            · exact hroots
          · cases h
            exact (keepSelection_roots count s _).trans hroots

end Roots

/-! ### Sessions -/

/-- What the source's regrouping makes of a session: by the records so far, in groups of four, and
with all transforms computed anew.  With a round for every capture and one to spare the loops come
to their end. -/
def NativeEnrollment.regrouped (groupFloats : GroupFloats F) (allocated : Bool)
    (s : NativeEnrollment F) (flags : UInt32) : Regrouped F :=
  (rebuildCaptureGroups groupFloats (s.captureMatches.take s.pairCount) s.count false allocated
    (s.count + 1) 4 s.groups s.roots s.transforms s.grouping flags).getD
      ⟨-1, s.groups, s.roots, s.transforms, s.grouping, flags⟩

/-- A call regroups as the source does. -/
def Regroups (groupFloats : GroupFloats F) (call : EnrollmentCall F) : Prop :=
  ∃ allocated, call.rebuildCaptureGroups = NativeEnrollment.regrouped groupFloats allocated

/-- The groups of a session are the components of its captures, and there is room for thirteen
roots. -/
structure NativeEnrollment.GroupedByMatches (s : NativeEnrollment F) : Prop where
  roots : s.roots.length = 13
  components : ComponentGroups (s.captureMatches.take s.pairCount) s.count s.groups s.roots
    s.grouping.groupCount

section Sessions

variable {floats : EnrollmentFloats F} {groupFloats : GroupFloats F} {call : EnrollmentCall F}

/-- **Regrouping a session** leaves components behind when it succeeds. -/
theorem regrouped_components {s : NativeEnrollment F} {allocated : Bool} {flags : UInt32}
    (htotal : s.totalInliers < 2 ^ 31) (hroots : s.count ≤ s.roots.length)
    (hstatus : (s.regrouped groupFloats allocated flags).status = 0) :
    (s.regrouped groupFloats allocated flags).roots.length = s.roots.length ∧
      ComponentGroups (s.captureMatches.take s.pairCount) s.count
        (s.regrouped groupFloats allocated flags).groups
        (s.regrouped groupFloats allocated flags).roots
        (s.regrouped groupFloats allocated flags).grouping.groupCount := by
  obtain ⟨r, hr, hgroups⟩ := rebuildCaptureGroups_ends groupFloats
    (s.captureMatches.take s.pairCount) s.count false allocated (s.count + 1) 4 s.groups s.roots
    s.transforms s.grouping flags htotal hroots (Nat.lt_succ_self s.count)
  have hregrouped : s.regrouped groupFloats allocated flags = r := by
    rw [NativeEnrollment.regrouped, hr, Option.getD_some]
  rw [hregrouped] at hstatus ⊢
  exact ⟨rebuildCaptureGroups_roots hr hstatus, (hgroups hstatus).1⟩

theorem nativeEnrollmentCreate_groupedByMatches :
    (nativeEnrollmentCreate floats).GroupedByMatches where
  roots := List.length_replicate
  components := {
    same := fun i hi => absurd hi (Nat.not_lt_zero i)
    alone := fun i hi => absurd hi (Nat.not_lt_zero i)
    used := by
      intro z
      constructor
      · rintro ⟨i, hi, -⟩
        exact absurd hi (Nat.not_lt_zero i)
      · rintro ⟨hpos, hlt⟩
        exact absurd hlt (not_lt.2 hpos)
    root := by
      intro g hg
      exact absurd hg (not_lt.2 (Int.natCast_nonneg g)) }

/-- Metrics and quality are not what the groups are about. -/
theorem NativeEnrollment.GroupedByMatches.withRest {s : NativeEnrollment F}
    (h : s.GroupedByMatches) (metrics : EnrollmentMetrics F) (quality : EnrollmentQualityState)
    (insufficientMovement : UInt32) :
    ({ s with
      metrics := metrics, quality := quality
      insufficientMovement := insufficientMovement } : NativeEnrollment F).GroupedByMatches :=
  ⟨h.roots, h.components⟩

/-- Pairing leaves the roots alone and counts nothing. -/
theorem appendPair_roots {a b : Adding F} {i : ℕ} (h : appendPair call a i = .ok b) :
    b.session.roots = a.session.roots ∧ b.session.count = a.session.count := by
  unfold appendPair at h
  dsimp only at h
  cases hmatch : matchIncoming call a.session i with
  | none =>
      rw [hmatch] at h
      cases h
  | some v =>
      rw [hmatch] at h
      rw [← Except.ok.inj h]
      exact ⟨rfl, rfl⟩

/-- **Counting a capture** groups the session anew. -/
theorem countCapture_grouped (hregroups : Regroups groupFloats call) {a b : Adding F}
    (htotal : a.session.totalInliers < 2 ^ 31) (hroots : a.session.roots.length = 13)
    (hroom : a.session.count < 13) (h : countCapture call a = .ok b) :
    b.session.GroupedByMatches := by
  unfold countCapture at h
  dsimp only at h
  set s : NativeEnrollment F := { a.session with
    masks := a.session.masks.set a.session.count call.prepared.packedMask.toList
    coverage := a.session.coverage.set a.session.count call.prepared.coverage
    count := a.session.count + 1 }
  obtain ⟨allocated, hregroups⟩ := hregroups
  rw [hregroups] at h
  have hsRoots : s.count ≤ s.roots.length := by
    have : a.session.count + 1 ≤ a.session.roots.length := by omega
    exact this
  by_cases hzero : (s.regrouped groupFloats allocated a.report.groupChange).status = 0
  · obtain ⟨hlength, hcomponents⟩ := regrouped_components (s := s) htotal hsRoots hzero
    rw [if_neg (not_not.2 hzero)] at h
    rw [← Except.ok.inj h]
    exact ⟨hlength.trans hroots, hcomponents⟩
  · rw [if_pos hzero] at h
    cases h

/-- The stages behind the gate group the session anew. -/
theorem enrollImage_grouped (hregroups : Regroups groupFloats call) {a b : Adding F}
    {accepted : List (EnrollmentCall F)} (h : a.session.Sound accepted)
    (hroots : a.session.roots.length = 13) (hroom : a.session.count < 13)
    (hrun : enrollImage floats call a = .ok b) : b.session.GroupedByMatches := by
  have hsound := (enrollImage_sound h hroom hrun).1
  unfold enrollImage at hrun
  obtain ⟨stored, hstored, hafterStore⟩ := bind_ok hrun
  obtain ⟨paired, hpaired, hafterPairs⟩ := bind_ok hafterStore
  obtain ⟨counted, hcounted, hafterCount⟩ := bind_ok hafterPairs
  obtain ⟨measured, hmeasured, hafterMeasure⟩ := bind_ok hafterCount
  obtain ⟨moved, hmoved, hadvance⟩ := bind_ok hafterMeasure
  obtain ⟨-, rfl⟩ := storeCapture_ok hstored
  set stored : Adding F := { a with session := { a.session with
    captures := a.session.captures.set a.session.count (enrolledCapture call) } }
  obtain ⟨hpairedRoots, hpairedCount⟩ : paired.session.roots = a.session.roots ∧
      paired.session.count = a.session.count := by
    have hstep : ∀ i < stored.session.count, ∀ c next : Adding F,
        (c.session.roots = a.session.roots ∧ c.session.count = a.session.count) →
          appendPair call c i = .ok next →
            next.session.roots = a.session.roots ∧ next.session.count = a.session.count := by
      rintro i - c next ⟨hc, hc'⟩ hnext
      obtain ⟨hroots', hcount'⟩ := appendPair_roots hnext
      exact ⟨hroots'.trans hc, hcount'.trans hc'⟩
    exact foldlM_ok (s := stored) (q := fun _ (c : Adding F) =>
      c.session.roots = a.session.roots ∧ c.session.count = a.session.count) ⟨rfl, rfl⟩ hstep
      hpaired
  -- nothing behind the pairing changes the records
  have htotal : paired.session.totalInliers < 2 ^ 31 := by
    have hsame : b.session.totalInliers = paired.session.totalInliers := by
      rw [(advanceProgress_ok hadvance).1, checkMovement_ok hmoved, measureCaptures_ok hmeasured,
        countCapture_ok hcounted]
      rfl
    rw [← hsame]
    exact hsound.totalInliers_lt
  have hcountedGroups : counted.session.GroupedByMatches :=
    countCapture_grouped hregroups htotal (hpairedRoots ▸ hroots) (hpairedCount ▸ hroom) hcounted
  have hmeasuredGroups : measured.session.GroupedByMatches := by
    rw [measureCaptures_ok hmeasured]
    exact hcountedGroups.withRest _ _ _
  have hmovedGroups : moved.session.GroupedByMatches := by
    rw [checkMovement_ok hmoved]
    exact hmeasuredGroups.withRest _ _ _
  rw [(advanceProgress_ok hadvance).1]
  exact hmovedGroups.withRest _ _ _

/-- **One call** keeps the groups of a session components, unless the session fails. -/
theorem nativeEnrollmentAdd_grouped {s : NativeEnrollment F} {accepted : List (EnrollmentCall F)}
    (h : s.Sound accepted) (hgrouped : s.GroupedByMatches) (hregroups : Regroups groupFloats call)
    (halive : (nativeEnrollmentAdd floats s call).session.failed = false) :
    (nativeEnrollmentAdd floats s call).session.GroupedByMatches := by
  have hgated : (gatedSession floats s call).session.Sound accepted :=
    h.withRest s.groups s.roots s.transforms s.grouping s.metrics _ s.insufficientMovement
  rcases nativeEnrollmentAdd_cases floats s call with ⟨-, ho⟩ | ⟨-, -, ho⟩ |
    ⟨-, -, -, ho⟩ | ⟨-, hroom, -, ⟨status, a, -, ho⟩ | ⟨a, hrun, ho⟩⟩
  · rw [ho]
    exact hgrouped
  · rw [ho]
    exact hgrouped
  · rw [ho]
    exact hgrouped.withRest _ _ _
  · rw [ho] at halive
    cases halive
  · rw [ho]
    exact enrollImage_grouped hregroups hgated hgrouped.roots hroom hrun

/-- **The groups of every session are the components of its matches**, when all calls regroup as
the source does. -/
theorem enrollAll_groupedByMatches (floats : EnrollmentFloats F) (calls : List (EnrollmentCall F))
    (hregroups : ∀ call ∈ calls, Regroups groupFloats call)
    (halive : (enrollAll floats calls).failed = false) :
    (enrollAll floats calls).GroupedByMatches := by
  induction calls using List.reverseRecOn with
  | nil => exact nativeEnrollmentCreate_groupedByMatches
  | append_singleton calls call ih =>
      have happend : enrollAll floats (calls ++ [call]) =
          (nativeEnrollmentAdd floats (enrollAll floats calls) call).session :=
        enrollFrom_append _ calls [call]
      rw [happend] at halive ⊢
      -- a failed session would have stayed as it was
      have hbefore : (enrollAll floats calls).failed = false := by
        by_contra hfailed
        rw [Bool.not_eq_false] at hfailed
        rw [(nativeEnrollmentAdd_grows floats _ call).failed hfailed, hfailed] at halive
        cases halive
      exact nativeEnrollmentAdd_grouped ((enrollAll_sound floats calls).2 hbefore)
        (ih (fun c hc => hregroups c (List.mem_append_left _ hc)) hbefore)
        (hregroups call (by simp)) halive

end Sessions

end Fpc
