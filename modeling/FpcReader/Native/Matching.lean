/-
**Matching captures, collections and templates.**

One stored capture is matched against the query by mutual nearest descriptors and geometric
verification; its score is the number of inliers left.  A collection scores as its best capture,
and identification walks through the collections until one reaches the threshold.  The query's
membership bitmap is shared: every verification may set bits of it, and the next one sees them.

Main definitions:

* `Fpc.matchProfile300Captures` — one stored capture against the query;
* `Fpc.matchProfile300Collection` — the scores of a collection and its first best capture;
* `Fpc.identifyProfile300` — the walk over the collections, with its policy and its report.

A nonzero status is `none`; the working buffers are taken to be there.
-/

import FpcReader.Native.Geometry

set_option relaxedAutoImplicit false
set_option autoImplicit false

namespace Fpc

/-! ### One pair of captures -/

/-- The Q4 positions of feature `ij.1` of the first capture and feature `ij.2` of the second. -/
def pairCoordinates (first second : CapturePayloadView) (ij : ℕ × ℕ) : MatchCoordinates :=
  let p := captureCompactPoint first ij.1
  let q := captureCompactPoint second ij.2
  ⟨p.1, p.2, q.1, q.2⟩

def captureCandidateCoordinates (first second : CapturePayloadView) (pairs : List Candidate) :
    Option (List MatchCoordinates) :=
  if !captureCompactLevelsValid first || !captureCompactLevelsValid second then none
  else if pairs.any fun c => decide (first.count ≤ c.first ∨ second.count ≤ c.second) then none
  else some (pairs.map fun c => pairCoordinates first second (c.first, c.second))

/-- The checks both captures, the target bitmap and the pair buffer have to pass. -/
def capturesMatchable (first second : CapturePayloadView) (targetMembership : List UInt8)
    (capacity : ℕ) : Bool :=
  captureCompactLevelsValid first && captureCompactLevelsValid second &&
    decide (first.levels = 1 ∧ second.levels = 1 ∧ first.mode = 1 ∧ second.mode = 1 ∧
      first.descriptorBytes = 16 ∧ second.descriptorBytes = 16 ∧
      first.count ≤ 32767 ∧ second.count ≤ 32767 ∧ first.count ≤ capacity ∧
      (first.count ≠ 0 → first.descriptors ≠ none ∧ first.membership ≠ none) ∧
      (second.count ≠ 0 → second.descriptors ≠ none) ∧
      (second.count + 7) / 8 ≤ targetMembership.length)

/-- The distances of all pairs of descriptors, row by row, each stored in a byte. -/
def distanceMatrix (first second : CapturePayloadView) : List UInt8 :=
  (List.range (first.count * second.count)).map fun k =>
    UInt8.ofNat (descriptorDistance128 (first.descriptorAt (k / second.count))
      (second.descriptorAt (k % second.count)))

def matchProfile300Captures (first second : CapturePayloadView) (targetMembership : List UInt8)
    (capacity : ℕ) : Option VerifiedGeometry :=
  if !capturesMatchable first second targetMembership capacity then none
  else if first.count = 0 ∨ second.count = 0 then
    some ⟨[], targetMembership, GeometryResult.zero⟩
  else
    match mutualCandidates (distanceMatrix first second) first.count second.count second.count 64
        0 0 capacity with
    | none => none
    | some pairs =>
        match captureCandidateCoordinates first second pairs with
        | none => none
        | some coordinates =>
            verifyGeometryProfile300 coordinates pairs
              ((first.membership.getD []).take ((first.count + 7) / 8)) targetMembership
              GeometryResult.zero

/-! ### A collection -/

/-- The outcome for a collection: one score, spatial score and transform for each capture, and the
first capture with the best score, minus one when no capture scores. -/
structure CollectionMatchResult where
  count : ℕ
  scores : List ℕ
  spatialScores : List ℕ
  transforms : List Transform
  score : ℕ
  selectedCapture : ℤ
  rank : ℕ
  deriving DecidableEq, Repr

/-- What the loop over the captures carries: the query bitmap, the transform of the last capture
that had candidates, and the result so far. -/
structure CollectionScan where
  membership : List UInt8
  previousTransform : Transform
  result : CollectionMatchResult
  deriving DecidableEq, Repr

/-- One capture of the collection. -/
def matchCaptureStep (query : CapturePayloadView) (capacity : ℕ) (scan : CollectionScan)
    (capture : LoadedCapture) : Option CollectionScan :=
  match matchProfile300Captures capture.view query scan.membership capacity with
  | none => none
  | some verified =>
      let transform :=
        if verified.pairs = [] then scan.previousTransform else verified.result.transform
      let score := verified.result.inliers % 65536
      let better := scan.result.score < score
      some {
        membership := verified.targetMembership
        previousTransform := transform
        result := { scan.result with
          scores := scan.result.scores ++ [score]
          spatialScores := scan.result.spatialScores ++ [verified.result.spatialInliers % 65536]
          transforms := scan.result.transforms ++ [transform]
          score := if better then score else scan.result.score
          selectedCapture :=
            if better then scan.result.scores.length else scan.result.selectedCapture } }

/-- The loop over the captures. -/
def matchCaptures (query : CapturePayloadView) (capacity : ℕ) :
    List LoadedCapture → CollectionScan → Option CollectionScan
  | [], scan => some scan
  | capture :: rest, scan =>
      match matchCaptureStep query capacity scan capture with
      | none => none
      | some scan => matchCaptures query capacity rest scan

/-- Match a collection; the query bitmap comes back with the bits set on the way. -/
def matchProfile300Collection (collection : LoadedCollection) (query : CapturePayloadView)
    (queryMembership : List UInt8) : Option (CollectionMatchResult × List UInt8) :=
  if 80 < collection.captures.length then none
  else if collection.captures.any fun capture => decide (32767 < capture.view.count) then none
  else
    let capacity := (collection.captures.map fun capture => capture.view.count).foldl max 0
    match matchCaptures query capacity collection.captures
        ⟨queryMembership, ⟨0, 0, 0, 0⟩, ⟨collection.captures.length, [], [], [], 0, -1, 0⟩⟩ with
    | none => none
    | some scan => some ({ scan.result with rank := scan.result.score }, scan.membership)

/-! ### Identification -/

structure IdentificationPolicy where
  threshold : ℤ
  reportedScoreLimit : ℤ
  goodScoreThreshold : ℤ
  goodQueryQualityThreshold : ℤ
  deriving DecidableEq, Repr

structure IdentificationResult where
  score : ℕ
  reportedScore : ℕ
  matched : ℤ
  selectedTemplate : ℤ
  selectedCapture : ℤ
  goodQuality : ℤ
  evaluated : ℕ
  tested : List UInt8
  deriving DecidableEq, Repr

/-- One collection: only a score above all earlier ones is looked at.  The flag says that it
reached the threshold, which ends the walk. -/
def identifyStep (policy : IdentificationPolicy) (i : ℕ) (found : CollectionMatchResult)
    (result : IdentificationResult) : IdentificationResult × Bool :=
  let result := { result with
    tested := result.tested.set i 1, evaluated := result.evaluated + 1 }
  if result.score < found.score then
    let result := { result with score := found.score, selectedCapture := found.selectedCapture }
    if policy.threshold ≤ found.score then
      ({ result with matched := 1, selectedTemplate := i }, true)
    else (result, false)
  else (result, false)

/-- The walk over the collections, the next one being number `i`. -/
def identifyFrom (query : CapturePayloadView) (policy : IdentificationPolicy) :
    ℕ → List LoadedCollection → IdentificationResult → List UInt8 →
      Option (IdentificationResult × List UInt8)
  | _, [], result, membership => some (result, membership)
  | i, collection :: rest, result, membership =>
      match matchProfile300Collection collection query membership with
      | none => none
      | some (found, membership) =>
          let next := identifyStep policy i found result
          if next.2 then some (next.1, membership)
          else identifyFrom query policy (i + 1) rest next.1 membership

/-- The result identification starts from. -/
def IdentificationResult.empty : IdentificationResult :=
  ⟨0, 0, 0, -1, 0, 0, 0, List.replicate 100 0⟩

def identifyProfile300 (collections : List LoadedCollection) (query : CapturePayloadView)
    (queryQuality : ℤ) (queryMembership : List UInt8) (policy : IdentificationPolicy) :
    Option (IdentificationResult × List UInt8) :=
  if 100 < collections.length ∨ policy.reportedScoreLimit < 0 then none
  else
    match identifyFrom query policy 0 collections IdentificationResult.empty queryMembership with
    | none => none
    | some (result, membership) =>
        let reported : ℤ :=
          if (result.score : ℤ) < policy.reportedScoreLimit then result.score
          else policy.reportedScoreLimit
        some ({ result with
          reportedScore := (reported % 65536).toNat
          goodQuality :=
            if policy.goodScoreThreshold ≤ result.score ∨
                policy.goodQueryQualityThreshold ≤ queryQuality then 1 else 0 }, membership)

end Fpc
