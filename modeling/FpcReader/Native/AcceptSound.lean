/-
**Identification accepts on evidence only.**

When the walk over the stored templates reports a match, the capture it names and the query share
enough features: each a mutual nearest pair of descriptors, all explained by one similarity with
residuals that are small over the integers, pairwise far apart in the stored capture, and at least
four of them members of it.

Main definitions:

* `Fpc.AcceptEvidence` — a similarity and a list of index pairs that justify a score.

Main results:

* `Fpc.matchProfile300Captures_sound` — a score of at least four comes with its evidence;
* `Fpc.matchProfile300Collection_sound` — a positive score names the capture it belongs to;
* `Fpc.identifyProfile300_accept_sound` — **an accepted query has evidence for the threshold**.
-/

import FpcReader.Native.GeometrySound
import FpcReader.Native.Matching

set_option relaxedAutoImplicit false
set_option autoImplicit false

namespace Fpc

open Scans

/-! ### Evidence for a score -/

/-- The distance of a stored descriptor and a query descriptor. -/
def captureDistance (stored query : CapturePayloadView) (i j : ℕ) : ℕ :=
  descriptorDistance128 (stored.descriptorAt i) (query.descriptorAt j)

/-- A similarity and a list of pairs of a stored and a query feature that justify a score: no
feature occurs twice, every pair is a mutual nearest pair of descriptors below 64 with an exact
squared residual below 768, any two stored features are at a squared distance of at least 3584,
and four stored features are members of their capture. -/
structure AcceptEvidence (stored query : CapturePayloadView) (t : Transform)
    (pairs : List (ℕ × ℕ)) : Prop where
  first_nodup : (pairs.map Prod.fst).Nodup
  second_nodup : (pairs.map Prod.snd).Nodup
  nearest : ∀ ij ∈ pairs,
    IsMutualPair (captureDistance stored query) stored.count query.count 64 ij.1 ij.2
  residual : ∀ ij ∈ pairs, exactResidual t (pairCoordinates stored query ij) < 768
  apart : pairs.Pairwise fun ij kl =>
    3584 ≤ sourceDistance (pairCoordinates stored query ij) (pairCoordinates stored query kl)
  members : 4 ≤ pairs.countP fun ij => memberBit (stored.membership.getD []) ij.1

/-! ### One pair of captures -/

/-- The entries of the distance matrix are the distances, nothing lost in the byte. -/
theorem distanceMatrix_entry (first second : CapturePayloadView) {i j : ℕ} (hi : i < first.count)
    (hj : j < second.count) :
    matrixEntry (distanceMatrix first second) second.count i j =
      captureDistance first second i j := by
  have hpos : 0 < second.count := by omega
  have hlt : i * second.count + j < first.count * second.count := by
    calc i * second.count + j < (i + 1) * second.count := by rw [Nat.succ_mul]; omega
      _ ≤ first.count * second.count := Nat.mul_le_mul_right _ hi
  have hdiv : (i * second.count + j) / second.count = i := by
    rw [Nat.add_comm, Nat.add_mul_div_right _ _ hpos, Nat.div_eq_of_lt hj, Nat.zero_add]
  have hmod : (i * second.count + j) % second.count = j := by
    rw [Nat.add_comm, Nat.add_mul_mod_self_right, Nat.mod_eq_of_lt hj]
  rw [matrixEntry, List.getD_eq_getElem _ _ (by simpa [distanceMatrix] using hlt)]
  simp only [distanceMatrix, List.getElem_map, List.getElem_range, hdiv, hmod]
  exact UInt8.toNat_ofNat_of_lt' (descriptorDistance128_lt _ _)

/-- Mutual pairs only depend on the entries in range. -/
theorem IsMutualPair.congr {d d' : ℕ → ℕ → ℕ} {n m threshold i j : ℕ}
    (hd : ∀ i < n, ∀ j < m, d i j = d' i j) (h : IsMutualPair d n m threshold i j) :
    IsMutualPair d' n m threshold i j := by
  have hi := h.column.lt
  have hj := h.row.lt
  refine ⟨h.row.congr fun k hk => hd i hi k hk, h.column.congr fun k hk => hd k hk j hj, ?_⟩
  rw [← hd i hi j hj]
  exact h.below

/-- Positions of features of profile-300 captures lie in the image. -/
theorem pairCoordinates_inImage {stored query : CapturePayloadView} (hs : stored.IsProfile300)
    (hq : query.IsProfile300) {i j : ℕ} (hi : i < stored.levelCount 0)
    (hj : j < query.levelCount 0) : InImage (pairCoordinates stored query (i, j)) := by
  obtain ⟨hx, hy⟩ := captureCompactPoint_range hs i hi
  obtain ⟨htx, hty⟩ := captureCompactPoint_range hq j hj
  exact ⟨hx, hy, htx, hty⟩

/-- The single level of a valid profile-300 capture covers its features. -/
theorem levelCount_of_valid {view : CapturePayloadView} (h : view.IsProfile300)
    (hvalid : captureCompactLevelsValid view = true) : view.levelCount 0 = view.count := by
  unfold captureCompactLevelsValid at hvalid
  rw [h.levels] at hvalid
  split_ifs at hvalid
  simpa using (Bool.and_eq_true_iff.1 hvalid).2

/-- A consensus among the candidates, read as a list of index pairs. -/
theorem acceptEvidence_of_consensus {stored query : CapturePayloadView}
    (hmember : (stored.membership.getD []).length = (stored.count + 7) / 8)
    {matrix : List UInt8} {capacity : ℕ} {candidates : List Candidate}
    (hpairs : mutualCandidates matrix stored.count query.count query.count 64 0 0 capacity =
      some candidates) {points : List MatchCoordinates}
    (hpoints : points = candidates.map fun c => pairCoordinates stored query (c.first, c.second))
    (hmutual : ∀ c ∈ candidates, IsMutualPair (captureDistance stored query) stored.count
      query.count 64 c.first c.second)
    {t : Transform} {kept : List (MatchCoordinates × Candidate)}
    (hkept : AcceptedConsensus ((stored.membership.getD []).take ((stored.count + 7) / 8))
      (points.zip candidates) kept t) :
    AcceptEvidence stored query t (kept.map fun pc => (pc.2.first, pc.2.second)) := by
  have hsub : (kept.map Prod.snd).Sublist candidates := by
    have := hkept.sublist.map Prod.snd
    rwa [List.map_snd_zip (by simp [hpoints])] at this
  have hcoord : ∀ pc ∈ kept, pairCoordinates stored query (pc.2.first, pc.2.second) = pc.1 := by
    intro pc hpc
    obtain ⟨k, hk, rfl⟩ := List.mem_iff_getElem.1 (hkept.sublist.subset hpc)
    simp [hpoints]
  refine ⟨?_, ?_, ?_, ?_, ?_, ?_⟩
  · have hnodup : (candidates.map Candidate.first).Nodup :=
      List.pairwise_map.2 ((mutualCandidates_first_sorted hpairs).imp fun hlt => hlt.ne)
    simpa [List.map_map, Function.comp_def] using hnodup.sublist (hsub.map Candidate.first)
  · simpa [List.map_map, Function.comp_def] using
      (mutualCandidates_second_nodup hpairs).sublist (hsub.map Candidate.second)
  · intro ij hij
    obtain ⟨pc, hpc, rfl⟩ := List.mem_map.1 hij
    exact hmutual pc.2 (hsub.subset (List.mem_map_of_mem hpc))
  · intro ij hij
    obtain ⟨pc, hpc, rfl⟩ := List.mem_map.1 hij
    rw [hcoord pc hpc]
    exact hkept.residual pc hpc
  · refine List.pairwise_map.2 (hkept.apart.imp_of_mem fun ha hb hab => ?_)
    rw [hcoord _ ha, hcoord _ hb]
    exact hab
  · have := hkept.members
    rw [List.take_of_length_le hmember.le] at this
    rwa [List.countP_map]

/-- **A score of at least four comes with its evidence.** -/
theorem matchProfile300Captures_sound {stored query : CapturePayloadView}
    (hs : stored.IsProfile300) (hq : query.IsProfile300) {membership : List UInt8} {capacity : ℕ}
    {verified : VerifiedGeometry}
    (h : matchProfile300Captures stored query membership capacity = some verified)
    (hinliers : 4 ≤ verified.result.inliers) :
    ∃ t pairs, AcceptEvidence stored query t pairs ∧ pairs.length = verified.result.inliers := by
  unfold matchProfile300Captures at h
  split_ifs at h with hcheck hempty
  · rw [← Option.some.inj h] at hinliers
    exact absurd hinliers (show ¬4 ≤ 0 by decide)
  simp only [Bool.not_eq_true', Bool.not_eq_false, capturesMatchable, Bool.and_eq_true] at hcheck
  have hscount := levelCount_of_valid hs hcheck.1.1
  have hqcount := levelCount_of_valid hq hcheck.1.2
  cases hpairs : mutualCandidates (distanceMatrix stored query) stored.count query.count
      query.count 64 0 0 capacity with
  | none => simp only [hpairs, reduceCtorEq] at h
  | some candidates =>
      cases hcoords : captureCandidateCoordinates stored query candidates with
      | none => simp only [hpairs, hcoords, reduceCtorEq] at h
      | some points =>
          simp only [hpairs, hcoords] at h
          have hpoints : points =
              candidates.map fun c => pairCoordinates stored query (c.first, c.second) := by
            unfold captureCandidateCoordinates at hcoords
            split_ifs at hcoords
            exact (Option.some.inj hcoords).symm
          have hmutual : ∀ c ∈ candidates,
              IsMutualPair (captureDistance stored query) stored.count query.count 64
                c.first c.second := fun c hc =>
            (mem_mutualCandidates hpairs hc).1.congr fun i hi j hj =>
              distanceMatrix_entry stored query hi hj
          have himage : ∀ p ∈ points, InImage p := by
            intro p hp
            rw [hpoints] at hp
            obtain ⟨c, hc, rfl⟩ := List.mem_map.1 hp
            exact pairCoordinates_inImage hs hq (by rw [hscount]; exact (hmutual c hc).column.lt)
              (by rw [hqcount]; exact (hmutual c hc).row.lt)
          obtain ⟨t, kept, hkept, hlen⟩ :=
            verifyGeometry_sound himage (by simp [hpoints]) h hinliers
          exact ⟨t, kept.map fun pc => (pc.2.first, pc.2.second),
            acceptEvidence_of_consensus hs.membership hpairs hpoints hmutual hkept,
            by simpa using hlen⟩

/-! ### A collection -/

/-- The best score so far is backed by the capture it names. -/
def CollectionScan.Sound (query : CapturePayloadView) (captures : List LoadedCapture)
    (scan : CollectionScan) : Prop :=
  4 ≤ scan.result.score → 0 ≤ scan.result.selectedCapture ∧
    ∃ capture, captures[scan.result.selectedCapture.toNat]? = some capture ∧
      ∃ t pairs, AcceptEvidence capture.view query t pairs ∧ scan.result.score ≤ pairs.length

/-- One more capture keeps the scan sound for the captures seen so far. -/
theorem matchCaptureStep_sound {query : CapturePayloadView} (hq : query.IsProfile300)
    {capacity : ℕ} {seen : List LoadedCapture} {capture : LoadedCapture}
    (hs : capture.view.IsProfile300) {scan scan' : CollectionScan}
    (hlen : scan.result.scores.length = seen.length) (hscan : scan.Sound query seen)
    (h : matchCaptureStep query capacity scan capture = some scan') :
    scan'.result.scores.length = (seen ++ [capture]).length ∧
      scan'.Sound query (seen ++ [capture]) := by
  unfold matchCaptureStep at h
  cases hm : matchProfile300Captures capture.view query scan.membership capacity with
  | none => simp only [hm, reduceCtorEq] at h
  | some verified =>
      simp only [hm, Option.some.injEq] at h
      subst h
      refine ⟨by simp [hlen], fun hfour => ?_⟩
      by_cases hbetter : scan.result.score < verified.result.inliers % 65536
      · simp only [hbetter, if_true] at hfour ⊢
        obtain ⟨t, pairs, hevidence, hcount⟩ :=
          matchProfile300Captures_sound hs hq hm (hfour.trans (Nat.mod_le _ _))
        refine ⟨by positivity, capture, by simp [hlen], t, pairs, hevidence, ?_⟩
        rw [hcount]
        exact Nat.mod_le _ _
      · simp only [hbetter, if_false] at hfour ⊢
        obtain ⟨hnonneg, c, hc, hevidence⟩ := hscan hfour
        exact ⟨hnonneg, c, by rw [List.getElem?_append_left (List.getElem?_eq_some_iff.1 hc).1, hc],
          hevidence⟩

/-- The loop over the captures keeps the scan sound. -/
theorem matchCaptures_sound {query : CapturePayloadView} (hq : query.IsProfile300) {capacity : ℕ}
    {seen rest : List LoadedCapture} (hs : ∀ capture ∈ rest, capture.view.IsProfile300)
    {scan scan' : CollectionScan} (hlen : scan.result.scores.length = seen.length)
    (hscan : scan.Sound query seen) (h : matchCaptures query capacity rest scan = some scan') :
    scan'.Sound query (seen ++ rest) := by
  induction rest generalizing seen scan with
  | nil =>
      rw [List.append_nil, ← Option.some.inj h]
      exact hscan
  | cons capture rest ih =>
      rw [matchCaptures] at h
      cases hstep : matchCaptureStep query capacity scan capture with
      | none => simp only [hstep, reduceCtorEq] at h
      | some next =>
          simp only [hstep] at h
          obtain ⟨hlen', hnext⟩ :=
            matchCaptureStep_sound hq (hs capture (by simp)) hlen hscan hstep
          have := ih (fun c hc => hs c (by simp [hc])) hlen' hnext h
          rwa [List.append_assoc] at this

/-- **A score of at least four names the capture it belongs to.** -/
theorem matchProfile300Collection_sound {collection : LoadedCollection}
    (hs : ∀ capture ∈ collection.captures, capture.view.IsProfile300) {query : CapturePayloadView}
    (hq : query.IsProfile300) {membership membership' : List UInt8}
    {found : CollectionMatchResult}
    (h : matchProfile300Collection collection query membership = some (found, membership'))
    (hfour : 4 ≤ found.score) :
    0 ≤ found.selectedCapture ∧
      ∃ capture, collection.captures[found.selectedCapture.toNat]? = some capture ∧
        ∃ t pairs, AcceptEvidence capture.view query t pairs ∧ found.score ≤ pairs.length := by
  unfold matchProfile300Collection at h
  split_ifs at h
  generalize (collection.captures.map fun capture => capture.view.count).foldl max 0 = capacity at h
  cases hscan : matchCaptures query capacity collection.captures
      ⟨membership, ⟨0, 0, 0, 0⟩, ⟨collection.captures.length, [], [], [], 0, -1, 0⟩⟩ with
  | none => simp only [hscan, reduceCtorEq] at h
  | some scan =>
      simp only [hscan, Option.some.injEq, Prod.mk.injEq] at h
      obtain ⟨rfl, -⟩ := h
      have hstart : CollectionScan.Sound query []
          ⟨membership, ⟨0, 0, 0, 0⟩, ⟨collection.captures.length, [], [], [], 0, -1, 0⟩⟩ :=
        fun hpos => absurd hpos (by norm_num)
      have hsound : scan.Sound query ([] ++ collection.captures) :=
        matchCaptures_sound hq hs rfl hstart hscan
      exact hsound hfour

/-! ### Identification -/

/-- A collection that does not both lead and reach the threshold changes no verdict. -/
theorem identifyStep_refuse {policy : IdentificationPolicy} (i : ℕ) {found : CollectionMatchResult}
    {result : IdentificationResult}
    (h : ¬(result.score < found.score ∧ policy.threshold ≤ found.score)) :
    (identifyStep policy i found result).1.matched = result.matched ∧
      (identifyStep policy i found result).2 = false := by
  dsimp only [identifyStep]
  split_ifs with hlead hreach
  · exact absurd ⟨hlead, hreach⟩ h
  · exact ⟨rfl, rfl⟩
  · exact ⟨rfl, rfl⟩

/-- What a walk that starts at collection `i` reports when it reports a match it had not before. -/
theorem identifyFrom_sound {query : CapturePayloadView} (hq : query.IsProfile300)
    {policy : IdentificationPolicy} (hthreshold : 4 ≤ policy.threshold) {i : ℕ}
    {rest : List LoadedCollection}
    (hs : ∀ collection ∈ rest, ∀ capture ∈ collection.captures, capture.view.IsProfile300)
    {result result' : IdentificationResult} {membership membership' : List UInt8}
    (hunmatched : result.matched ≠ 1)
    (h : identifyFrom query policy i rest result membership = some (result', membership'))
    (hmatched : result'.matched = 1) :
    ∃ k collection, rest[k]? = some collection ∧ result'.selectedTemplate = ((i + k : ℕ) : ℤ) ∧
      0 ≤ result'.selectedCapture ∧
      ∃ capture, collection.captures[result'.selectedCapture.toNat]? = some capture ∧
        ∃ t pairs, AcceptEvidence capture.view query t pairs ∧
          policy.threshold ≤ (pairs.length : ℤ) := by
  induction rest generalizing i result membership with
  | nil =>
      simp only [identifyFrom, Option.some.injEq, Prod.mk.injEq] at h
      rw [← h.1] at hmatched
      exact absurd hmatched hunmatched
  | cons collection rest ih =>
      rw [identifyFrom] at h
      cases hm : matchProfile300Collection collection query membership with
      | none => simp only [hm, reduceCtorEq] at h
      | some fm =>
          obtain ⟨found, membership₁⟩ := fm
          simp only [hm] at h
          have hcontinue : ∀ next : IdentificationResult, next.matched ≠ 1 →
              identifyFrom query policy (i + 1) rest next membership₁ =
                some (result', membership') → _ := fun next hnext hrest =>
            ih (fun c hc => hs c (by simp [hc])) hnext hrest
          by_cases haccept : result.score < found.score ∧ policy.threshold ≤ found.score
          · simp only [identifyStep, haccept.1, haccept.2, if_true, Option.some.injEq,
              Prod.mk.injEq] at h
            obtain ⟨rfl, -⟩ := h
            obtain ⟨hnonneg, capture, hcapture, t, pairs, hevidence, hcount⟩ :=
              matchProfile300Collection_sound (hs collection (by simp)) hq hm
                (by have := haccept.2; omega)
            exact ⟨0, collection, rfl, rfl, hnonneg, capture, hcapture, t, pairs, hevidence,
              haccept.2.trans (by exact_mod_cast hcount)⟩
          · have hnext := identifyStep_refuse i haccept
            rw [← hnext.1] at hunmatched
            simp only [hnext.2, Bool.false_eq_true, if_false] at h
            obtain ⟨k, c, hk, hsel, hrest⟩ := hcontinue _ hunmatched h
            exact ⟨k + 1, c, by simpa using hk, by rw [hsel]; congr 1; omega, hrest⟩

/-- **An accepted query has evidence for the threshold.**  If identification over profile-300
captures reports a match, the capture it names and the query share at least `threshold` features
that justify it. -/
theorem identifyProfile300_accept_sound {collections : List LoadedCollection}
    {query : CapturePayloadView} {queryQuality : ℤ} {membership membership' : List UInt8}
    {policy : IdentificationPolicy} {result : IdentificationResult}
    (hstored : ∀ collection ∈ collections, ∀ capture ∈ collection.captures,
      capture.view.IsProfile300)
    (hquery : query.IsProfile300) (hthreshold : 4 ≤ policy.threshold)
    (hreturn : identifyProfile300 collections query queryQuality membership policy =
      some (result, membership'))
    (hmatched : result.matched = 1) :
    0 ≤ result.selectedTemplate ∧ 0 ≤ result.selectedCapture ∧
      ∃ collection, collections[result.selectedTemplate.toNat]? = some collection ∧
        ∃ capture, collection.captures[result.selectedCapture.toNat]? = some capture ∧
          ∃ t pairs, AcceptEvidence capture.view query t pairs ∧
            policy.threshold ≤ (pairs.length : ℤ) := by
  unfold identifyProfile300 at hreturn
  split_ifs at hreturn
  cases hwalk : identifyFrom query policy 0 collections IdentificationResult.empty membership with
  | none => simp only [hwalk, reduceCtorEq] at hreturn
  | some rm =>
      obtain ⟨found, bits⟩ := rm
      simp only [hwalk, Option.some.injEq, Prod.mk.injEq] at hreturn
      obtain ⟨rfl, -⟩ := hreturn
      obtain ⟨k, collection, hk, hsel, hcap, hevidence⟩ :=
        identifyFrom_sound hquery hthreshold hstored (by decide) hwalk hmatched
      refine ⟨by rw [hsel]; positivity, hcap, collection, ?_, hevidence⟩
      rw [hsel]
      simpa using hk

/-- Eight features on a curve, each with a descriptor of its own, all moved by `shift` pixels. -/
def curveCapture (shift : ℕ) : CapturePayloadView where
  count := 8
  mode := 1
  descriptorBytes := 16
  levels := 1
  tableWidth := 5
  levelFields := some [8, 16384, 16384, 8, 8]
  levelExtra := none
  compactCoordinates := some ((List.range 8).flatMap fun i =>
    [UInt8.ofNat (10 + 7 * i + shift), UInt8.ofNat (10 + 9 * (i * i % 8) + shift)])
  descriptors := some ((List.range 8).flatMap fun i =>
    (List.range 16).map fun j => if i = j then 255 else 0)
  membership := some [255]
  coordinates := none
  scores := none
  angles := none

theorem curveCapture_isProfile300 (shift : ℕ) : (curveCapture shift).IsProfile300 :=
  ⟨rfl, rfl, rfl, rfl, by simp [curveCapture], by simp [curveCapture], by simp [curveCapture]⟩

/-- A capture and the same capture moved by three pixels are accepted, with all their evidence. -/
theorem identifyProfile300_accept_sound_curve :
    ∃ result membership,
      identifyProfile300 [⟨[⟨curveCapture 0, some 1⟩], 32⟩] (curveCapture 3) 0 [0]
        ⟨4, 1000, 5, 20⟩ = some (result, membership) ∧
      0 ≤ result.selectedTemplate ∧ 0 ≤ result.selectedCapture ∧
      ∃ collection, [(⟨[⟨curveCapture 0, some 1⟩], 32⟩ : LoadedCollection)][
          result.selectedTemplate.toNat]? = some collection ∧
        ∃ capture, collection.captures[result.selectedCapture.toNat]? = some capture ∧
          ∃ t pairs, AcceptEvidence capture.view (curveCapture 3) t pairs ∧
            4 ≤ (pairs.length : ℤ) := by
  have hrun : identifyProfile300 [⟨[⟨curveCapture 0, some 1⟩], 32⟩] (curveCapture 3) 0 [0]
      ⟨4, 1000, 5, 20⟩ =
        some (⟨8, 8, 1, 0, 0, 1, 1, 1 :: List.replicate 99 0⟩, [255]) := by
    decide +kernel
  refine ⟨_, _, hrun, identifyProfile300_accept_sound ?_ (curveCapture_isProfile300 3)
    (le_refl 4) hrun rfl⟩
  intro collection hcollection capture hcapture
  obtain rfl := List.mem_singleton.1 hcollection
  obtain rfl := List.mem_singleton.1 hcapture
  exact curveCapture_isProfile300 0

end Fpc
