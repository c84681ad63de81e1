/-
**Geometric verification of candidate pairs.**

Given candidate pairs with their Q4 positions in both captures, the verifier looks for one
similarity that explains many of them: it samples pairs of correspondences with a small
linear-feedback generator, fits a similarity to each sample that looks rigid, counts the
correspondences whose residual is small, and keeps the best hypothesis.  The consensus is then
thinned out so that no two kept source points are close together.

All arithmetic is that of the recovered code: sums and products modulo `2 ^ 32`, read back as
signed numbers where the code does so.

Main definitions:

* `Fpc.fitSimilarityPair` — the similarity through two correspondences, Q14 and Q4;
* `Fpc.sampleGeometryPairs` — sixteen sampled pairs and their validity;
* `Fpc.similarityError` — the squared residual of a correspondence;
* `Fpc.verifyGeometryProfile300` — the whole verification, with its hypothesis loop, the greedy
  suppression and the membership gate.
-/

import FpcReader.Native.Candidates

set_option relaxedAutoImplicit false
set_option autoImplicit false

namespace Fpc

open Words Scans

/-! ### Fitting and measuring one similarity -/

/-- A correspondence: a source and a target point in signed Q4 units, each an `int16_t`. -/
structure MatchCoordinates where
  x : ℤ
  y : ℤ
  targetX : ℤ
  targetY : ℤ
  deriving DecidableEq, Repr, Inhabited

/-- A similarity: Q14 cosine and sine, each with the scale in it, and a Q4 translation. -/
structure Transform where
  c : ℤ
  s : ℤ
  tx : ℤ
  ty : ℤ
  deriving DecidableEq, Repr, Inhabited

/-- The number of zero bits above the highest set bit, counted down from bit `k - 1`. -/
def leadingFrom (value : BitVec 32) : ℕ → ℕ
  | 0 => 0
  | k + 1 => if value.getLsbD k then 0 else leadingFrom value k + 1

/-- The similarity through two correspondences; `none` when the sources coincide. -/
def fitSimilarityPair (a b : MatchCoordinates) : Option Transform :=
  let dx := b.x - a.x
  let dy := b.y - a.y
  let ex := b.targetX - a.targetX
  let ey := b.targetY - a.targetY
  let norm := u32 dx * u32 dx + u32 dy * u32 dy
  if norm = 0 then none
  else
    -- `(leading - 1) & 31` on an unsigned counter
    let shift := (leadingFrom norm 32 + 31) % 32
    let divisor := shiftFloor (signedU32 (norm <<< shift)) 14
    if divisor = 0 then none
    else
      let dot := u32 dx * u32 ex + u32 dy * u32 ey
      let cross := u32 dx * u32 ey - u32 dy * u32 ex
      let round := u32 (shiftFloor divisor 1)
      let c := (signedU32 (dot <<< shift + round)).tdiv divisor
      let s := (signedU32 (cross <<< shift + round)).tdiv divisor
      if c < -2 ^ 31 ∨ 2 ^ 31 - 1 < c ∨ s < -2 ^ 31 ∨ 2 ^ 31 - 1 < s then none
      else
        let sx := u32 (a.x + b.x)
        let sy := u32 (a.y + b.y)
        let tx := u32 (a.targetX + b.targetX + 1) <<< 14 - sx * u32 c + sy * u32 s
        let ty := u32 (a.targetY + b.targetY + 1) <<< 14 - sx * u32 s - sy * u32 c
        some ⟨signedU16 (u16 c), signedU16 (u16 s),
          signedU16 (u16 (shiftFloor (signedU32 tx) 15)),
          signedU16 (u16 (shiftFloor (signedU32 ty) 15))⟩

/-- The squared residual of a correspondence, modulo `2 ^ 32`. -/
def similarityError (p : MatchCoordinates) (t : Transform) : BitVec 32 :=
  let vx := u32 p.x * u32 t.c - u32 p.y * u32 t.s + u32 t.tx <<< 14 - u32 p.targetX <<< 14
  let vy := u32 p.y * u32 t.c + u32 p.x * u32 t.s + u32 t.ty <<< 14 - u32 p.targetY <<< 14
  let dx := u32 (shiftFloor (signedU32 vx) 14)
  let dy := u32 (shiftFloor (signedU32 vy) 14)
  dx * dx + dy * dy

/-- The correspondence counts as an inlier of the similarity. -/
def isInlier (t : Transform) (p : MatchCoordinates) : Bool := signedU32 (similarityError p t) < 768

/-! ### Sampling -/

/-- The state of the sampler, the sixteen sampled index pairs and their validity. -/
structure GeometrySample where
  state : BitVec 32 × BitVec 32
  indices : List (ℕ × ℕ)
  valid : List Bool
  deriving DecidableEq, Repr

/-- One feedback round of a generator word. -/
def stirred (a : BitVec 32) : BitVec 32 := a ||| (((a ^^^ (a <<< 5)) &&& 0x1fe0#32) <<< 18)

/-- An index below `count` from sixteen bits of a generator word. -/
def sampledIndex (count : ℕ) (a : BitVec 32) (k : ℕ) : ℕ :=
  count * ((a >>> k).toNat % 65536) / 65536

/-- Eight index pairs from one round of both words. -/
def sampleBatch (count : ℕ) (state : BitVec 32 × BitVec 32) :
    (BitVec 32 × BitVec 32) × List (ℕ × ℕ) :=
  let a := stirred state.1
  let b := stirred state.2
  ((a >>> 8, b >>> 8),
    (List.range 8).map fun k => (sampledIndex count a (k + 1), sampledIndex count b (k + 1)))

/-- The two correspondences are far enough apart, and about equally far apart in both captures. -/
def pairValid (toleranceShift : ℕ) (a b : MatchCoordinates) : Bool :=
  let dx := b.x - a.x
  let dy := b.y - a.y
  let ex := b.targetX - a.targetX
  let ey := b.targetY - a.targetY
  let n := signedU32 (u32 dx * u32 dx + u32 dy * u32 dy)
  let m := signedU32 (u32 ex * u32 ex + u32 ey * u32 ey)
  let tolerance := shiftFloor n (toleranceShift % 32)
  let low := signedU32 (u32 n - u32 tolerance)
  let high := signedU32 (u32 n + u32 tolerance)
  256 < n && low < m && m < high

def sampleGeometryPairs (points : List MatchCoordinates) (state : BitVec 32 × BitVec 32)
    (toleranceShift : ℕ) : Option GeometrySample :=
  let count := points.length
  if count = 0 ∨ 32767 < count then none
  else
    let first := sampleBatch count state
    let second := sampleBatch count first.1
    let indices := first.2 ++ second.2
    some ⟨second.1, indices, indices.map fun pair =>
      pairValid toleranceShift (points.getD pair.1 default) (points.getD pair.2 default)⟩

/-! ### The hypothesis loop -/

/-- What the loop carries from one hypothesis to the next. -/
structure Consensus where
  sample : GeometrySample
  best : ℕ
  bestTransform : Transform
  limit : ℕ
  accepted : ℕ
  progress : ℕ
  deriving DecidableEq, Repr

/-- The loop bound that each bucket of consensus sizes leaves, before scaling. -/
def limits : List ℕ :=
  [0x3334, 0x8000, 0x5dc0, 0x44c0, 0x3334, 0x2148, 0x1917, 0x13b7,
    0x0eda, 0x0c09, 0x0979, 0x072c, 0x0419, 0x0290, 0x018a, 0x0107]

/-- The loop bound for consensus bucket `i`. -/
def quota (i : ℕ) : ℕ := 10000 * limits.getD i 0 / 2 ^ 15

/-- The number of correspondences a similarity explains. -/
def countInliers (points : List MatchCoordinates) (t : Transform) : ℕ := points.countP (isInlier t)

/-- One sampled hypothesis: fit it, and keep it if it explains more than the best so far. -/
def tryHypothesis (points : List MatchCoordinates) (iteration : ℕ) (pair : ℕ × ℕ)
    (st : Consensus) : Option Consensus :=
  let st := { st with accepted := st.accepted + 32768 }
  match fitSimilarityPair (points.getD pair.1 default) (points.getD pair.2 default) with
  | none => none
  | some transform =>
      if 1500 < iteration ∧ st.accepted < st.progress then some { st with limit := iteration }
      else
        let inliers := countInliers points transform
        if st.best < inliers then
          let bucket := min (inliers * (32768 / points.length) / 1024) 15
          some { st with best := inliers, bestTransform := transform, limit := quota bucket }
        else some st

/-- One iteration: draw sixteen new samples when the old ones are used up, try one of them. -/
def hypothesisStep (points : List MatchCoordinates) (iteration : ℕ) (st : Consensus) :
    Option Consensus :=
  let slot := iteration % 16
  match if slot = 0 then sampleGeometryPairs points st.sample.state 3 else some st.sample with
  | none => none
  | some sample =>
      let st := { st with sample := sample }
      match if sample.valid.getD slot false then
          tryHypothesis points iteration (sample.indices.getD slot (0, 0)) st
        else some st with
      | none => none
      | some st => some { st with progress := st.progress + 4424 }

/-- The loop, with `fuel` iterations at most; no bound it sets exceeds ten thousand. -/
def hypothesisLoop (points : List MatchCoordinates) : ℕ → ℕ → Consensus → Option Consensus
  | 0, _, st => some st
  | fuel + 1, iteration, st =>
      if iteration < st.limit then
        match hypothesisStep points iteration st with
        | none => none
        | some st => hypothesisLoop points fuel (iteration + 1) st
      else some st

/-- The loop starts with no samples, no hypothesis and a bound of fifteen hundred. -/
def initialConsensus : Consensus where
  sample := ⟨(0xfffe#32, 0x8300#32), [], []⟩
  best := 0
  bestTransform := ⟨0, 0, 0, 0⟩
  limit := 1500
  accepted := 0
  progress := 0

/-! ### The consensus, thinned out and gated -/

structure GeometryResult where
  transform : Transform
  inliers : ℕ
  spatialInliers : ℕ
  success : ℕ
  lowMovement : ℕ
  deriving DecidableEq, Repr

/-- All fields zero, as `memset` leaves them. -/
def GeometryResult.zero : GeometryResult := ⟨⟨0, 0, 0, 0⟩, 0, 0, 0, 0⟩

/-- What verification leaves behind: the flagged pairs, the target bitmap and the result. -/
structure VerifiedGeometry where
  pairs : List Candidate
  targetMembership : List UInt8
  result : GeometryResult
  deriving DecidableEq, Repr

/-- Source points `i` and `j` are too close together for both to be kept. -/
def sourceClose (points : List MatchCoordinates) (i j : ℕ) : Bool :=
  let p := points.getD i default
  let q := points.getD j default
  let dx := p.x - q.x
  let dy := p.y - q.y
  signedU32 (u32 dx * u32 dx + u32 dy * u32 dy) < 3584

/-- The correspondence moves by so little that it says nothing new about the target. -/
def movesLittle (p : MatchCoordinates) : Bool :=
  let dx := p.x - p.targetX
  let dy := p.y - p.targetY
  signedU32 (u32 dx * u32 dx + u32 dy * u32 dy) < 768

/-- Write the flags into the pairs. -/
def withFlags (pairs : List Candidate) (flags : List Bool) : List Candidate :=
  pairs.zipWith (fun c f => { c with flag := if f then 1 else 0 }) flags

/-- The pairs whose flag is one. -/
def flagged (pairs : List Candidate) : List Candidate := pairs.filter (·.flag = 1)

/-- Set one bit of a bitmap. -/
def setBit (membership : List UInt8) (i : ℕ) : List UInt8 :=
  membership.modify (i / 8) (· ||| (1 : UInt8) <<< UInt8.ofNat (i % 8))

/-- The total movement of the flagged correspondences along one axis. -/
def totalMovement (points : List MatchCoordinates) (flags : List Bool)
    (axis : MatchCoordinates → ℤ) : ℕ :=
  ((points.zip flags).map fun pf => if pf.2 then (axis pf.1).natAbs else 0).sum

/-- The consensus of a similarity, thinned out, and the number of pairs left in it. -/
def thinnedConsensus (points : List MatchCoordinates) (transform : Transform) (best : ℕ) :
    List Bool × ℕ :=
  suppress (sourceClose points) points.length (points.map (isInlier transform), best)

/-- Along some axis the thinned consensus moves by less than two pixels on average. -/
def lowMovement (points : List MatchCoordinates) (kept : List Bool × ℕ) : Bool :=
  kept.2 ≠ 0 &&
    (decide (totalMovement points kept.1 (fun p => p.x - p.targetX) / kept.2 < 32) ||
      decide (totalMovement points kept.1 (fun p => p.y - p.targetY) / kept.2 < 32))

/-- The flags and the inlier count after the movement test. -/
def movedConsensus (points : List MatchCoordinates) (kept : List Bool × ℕ) : List Bool × ℕ :=
  if lowMovement points kept then (kept.1.map fun _ => false, 0) else kept

/-- The bits set in the target bitmap: those of the flagged pairs that move. -/
def touchTarget (points : List MatchCoordinates) (pairs : List Candidate)
    (targetMembership : List UInt8) : List UInt8 :=
  ((points.zip pairs).filter fun pc => pc.2.flag = 1 && !movesLittle pc.1).foldl
    (fun bits pc => setBit bits pc.2.second) targetMembership

/-- The number of flagged pairs whose first feature is a source member. -/
def memberCount (pairs : List Candidate) (sourceMembership : List UInt8) : ℕ :=
  (flagged pairs).countP fun c => memberBit sourceMembership c.first

/-- The part after the loop when some hypothesis explained anything: flag the consensus, thin it
out, drop it if hardly anything moved, and gate it by source membership. -/
def settleConsensus (points : List MatchCoordinates) (pairs : List Candidate)
    (sourceMembership targetMembership : List UInt8) (best : ℕ) (transform : Transform)
    (result : GeometryResult) : VerifiedGeometry :=
  let kept := thinnedConsensus points transform best
  let moved := movedConsensus points kept
  let pairs := withFlags pairs moved.1
  let members := memberCount pairs sourceMembership
  let result := { result with
    transform := transform, spatialInliers := kept.2,
    lowMovement := if lowMovement points kept then 1 else 0 }
  if members < 4 then ⟨pairs, targetMembership, { result with inliers := members }⟩
  else ⟨pairs, touchTarget points pairs targetMembership, { result with inliers := moved.2 }⟩

/-- Verification of candidate pairs against their positions.  The result passed in keeps its
fields, success aside, when there are fewer than eight pairs. -/
def verifyGeometryProfile300 (points : List MatchCoordinates) (pairs : List Candidate)
    (sourceMembership targetMembership : List UInt8) (result : GeometryResult) :
    Option VerifiedGeometry :=
  if 32767 < points.length then none
  else if pairs.any fun c =>
      decide (sourceMembership.length ≤ c.first / 8 ∨ targetMembership.length ≤ c.second / 8) then
    none
  else
    let result := { result with success := 0 }
    if points.length < 8 then some ⟨pairs, targetMembership, result⟩
    else
      match hypothesisLoop points 10000 0 initialConsensus with
      | none => none
      | some st =>
          let result := { result with
            transform := st.bestTransform, inliers := st.best, spatialInliers := st.best,
            success := if 8 ≤ st.best then 1 else 0 }
          if st.best = 0 then some ⟨pairs, targetMembership, result⟩
          else
            some (settleConsensus points pairs sourceMembership targetMembership st.best
              st.bestTransform result)

end Fpc
