/-
**The metrics of an enrollment.**

After every accepted image the session is measured anew.  The areas that its groups cover are added
up, a capture without a group counts with half of its own coverage, and the sum is appended to the
history of areas.  The change against the last areas and a weighted mean of the last displacements
tell how much the finger still moves.

Numbers of single precision are left opaque, with the operations the source uses on them.

Main definitions:

* `Fpc.Single` — arithmetic of single precision;
* `Fpc.coverageAreas` — the areas of all groups, added up with one buffer;
* `Fpc.updateEnrollmentMetrics`, `Fpc.computeEnrollmentMetrics` — the metrics;
* `Fpc.NativeEnrollment.measured`, `Fpc.EnrollmentCall.measuring` — a session that is measured so;
* `Fpc.shownPoints` — the points of a canvas that a group shows.

Main results:

* `Fpc.coverageAreas_eq` — **the areas are the numbers of points shown**, group by group;
* `Fpc.computeEnrollmentMetrics_kept` — earlier entries of the history are not rewritten;
* `Fpc.enrollment_areas` — **the history of a session**, over all lists of calls.
-/

import FpcReader.Native.Coverage
import FpcReader.Native.EnrollmentRuns

set_option relaxedAutoImplicit false
set_option autoImplicit false

namespace Fpc

open PackedBits Stages Words

/-! ### The source's functions -/

/-- Arithmetic of single precision: the number nearest to a rational, and the operations. -/
structure Single (F : Type) where
  num : ℚ → F
  add : F → F → F
  sub : F → F → F
  mul : F → F → F
  div : F → F → F
  neg : F → F
  lt : F → F → Bool
  sqrt : F → F

section Source

variable {F : Type} (single : Single F)

def Single.abs (value : F) : F :=
  if single.lt value (single.num 0) then single.neg value else value

/-- The change of the area against the latest ones, and its weight. -/
def areaChange (area : List F) (count : ℕ) : F × F :=
  let entry := fun k => area.getD (count - k) (single.num 0)
  let change := single.abs (single.sub (entry 1) (entry 2))
  if count < 3 then (change, single.num 1)
  else
    let previous := single.abs (single.sub (entry 2) (entry 3))
    let change := single.add (single.mul previous (single.num 0.67000002)) change
    if count < 4 then (change, single.num 1.6700001)
    else
      let older := single.abs (single.sub (entry 3) (entry 4))
      (single.add (single.mul older (single.num 0.33000001)) change, single.num 2)

/-- The displacement of a pair; pairs without a match count as far apart. -/
def pairDistance (fallback : F) (pair : CaptureMatch) : F :=
  if pair.success ≠ 0 then
    let x := single.mul (single.num pair.transform.tx) (single.num 0.0625)
    let y := single.mul (single.num pair.transform.ty) (single.num 0.0625)
    single.sqrt (single.add (single.mul y y) (single.mul x x))
  else fallback

/-- The numbers of a loop that counts from one number to before another. -/
def countUp (first last : ℤ) : List ℤ :=
  (List.range (last - first).toNat).map fun k => first + k

/-- One pair of the latest captures, both counted back from their number. -/
def motionStep (captureMatches : List CaptureMatch) (n : ℤ) (fallback : F) (later : ℤ) (s : F × F)
    (earlier : ℤ) : F × F :=
  let distance := pairDistance single fallback
    (pairAt captureMatches (n + later).toNat (earlier + n).toNat)
  let weight := single.add (single.num earlier) (single.add (single.num later) (single.num 8))
  (single.add (single.mul weight distance) s.1,
    if later = -1 ∧ earlier = -2 then distance else s.2)

/-- The weighted displacements of the latest pairs, and that of the last pair. -/
def latestMotions (captureMatches : List CaptureMatch) (n : ℤ) (fallback latestMotion : F) :
    F × F :=
  (countUp (max (1 - n) (-3)) 0).foldl (fun s later =>
    (countUp (max (-n) (-4)) (if later < -1 then later else -1)).foldl
      (motionStep single captureMatches n fallback later) s) (single.num 0, latestMotion)

/-- The history is continued by an area. -/
def updateEnrollmentMetrics (count : ℕ) (area : F) (imageWidth imageHeight : ℤ)
    (captureMatches : List CaptureMatch) (matchCount : ℕ) (state : EnrollmentMetrics F) :
    Option (EnrollmentMetrics F) :=
  if count = 0 ∨ 80 < count ∨ single.lt (single.num 0) area = false ∨ imageWidth < 1 ∨
      imageHeight < 1 ∨ matchCount < count * (count - 1) / 2 then none
  else
    let state := { state with area := state.area.set (count - 1) area }
    if count < 2 then some state
    else
      let change := areaChange single state.area count
      let diagonal := signedU32 (word 32 (imageHeight * imageHeight + imageWidth * imageWidth))
      let fallback := single.sqrt (single.num diagonal)
      let motions := latestMotions single captureMatches count fallback state.latestMotion
      let divisor := single.num (if count = 2 then 5 else if count = 3 then 12 else 18)
      let motion := single.div motions.1 divisor
      some { area := state.area
             motion := state.motion.set (count - 1) motion
             latestMotion := motions.2
             normalizedMotion := single.div motion (single.sqrt area)
             relativeAreaChange := single.div change.1 (single.mul change.2 area) }

variable (floats : CoverageFloats F) (captures : List CaptureCoverage) (count : ℕ)
  (groups : List ℤ) (roots : List UInt16) (transforms : List F) (canvasWidth canvasHeight : ℤ)

/-- The area of one more group; the canvas is used again. -/
def coverageAreaStep (s : List (BitVec 32) × F) (group : ℕ) : Option (List (BitVec 32) × F) := do
  let mask ← buildGroupMaskUnion floats captures count groups roots transforms canvasWidth
    canvasHeight group s.1
  let area ← countPackedMask mask canvasWidth.toNat canvasHeight.toNat (wordEnd canvasWidth.toNat)
  return (mask, single.add s.2 (single.num (signedU32 (BitVec.ofNat 32 area))))

/-- The areas of all groups. -/
def coverageAreas (groupCount : ℕ) : Option (List (BitVec 32) × F) :=
  (List.range groupCount).foldlM (coverageAreaStep single floats captures count groups roots
    transforms canvasWidth canvasHeight)
    (List.replicate (canvasWords canvasWidth canvasHeight) 0, single.num 0)

/-- What captures without a group count for. -/
def unalignedArea (coveragePercent : List ℤ) : F :=
  let reference := coverageAt captures 0
  let pixels := signedU32 (word 32 reference.imageWidth * word 32 reference.imageHeight)
  (List.range count).foldl (fun total i =>
    if groups.getD i (-1) < 0 then
      single.add total (single.mul (single.mul
        (single.div (single.num (coveragePercent.getD i 0)) (single.num 100)) (single.num pixels))
        (single.num 0.5))
    else total) (single.num 0)

/-- The metrics of a session; nothing is written when they cannot be computed. -/
def computeEnrollmentMetrics (coveragePercent : List ℤ) (groupCount : ℕ)
    (captureMatches : List CaptureMatch) (matchCount : ℕ) (state : EnrollmentMetrics F) :
    Option (EnrollmentMetrics F) :=
  if count = 0 ∨ 80 < count ∨ count < groupCount ∨ canvasWidth < 1 ∨
      2 ^ 31 - 1 - 31 < canvasWidth ∨ canvasHeight < 1 ∨
      (2 ^ 64 - 1) / (wordEnd canvasWidth.toNat / 32) / 4 < canvasHeight.toNat then none
  else do
    let (_, aligned) ← coverageAreas single floats captures count groups roots transforms
      canvasWidth canvasHeight groupCount
    let unaligned := unalignedArea single captures count groups coveragePercent
    let reference := coverageAt captures 0
    updateEnrollmentMetrics single count (single.add aligned unaligned) reference.imageWidth
      reference.imageHeight captureMatches matchCount state

/-- The masks of a session, as they are measured. -/
def NativeEnrollment.coverages (s : NativeEnrollment F) : List CaptureCoverage :=
  (List.range s.count).map fun i =>
    ⟨112, 88, 112, 88, 128, (s.masks.getD i []).map UInt32.toBitVec⟩

/-- A session measured by the source's metrics, with its status. -/
def NativeEnrollment.measured (s : NativeEnrollment F) : ℤ × EnrollmentMetrics F :=
  match computeEnrollmentMetrics single floats s.coverages s.count s.groups s.roots s.transforms
    500 500 s.coverage s.grouping.groupCount.toNat s.captureMatches s.pairCount s.metrics with
  | none => (-1, s.metrics)
  | some metrics => (0, metrics)

/-- The call, with the session measured by the source's metrics. -/
def EnrollmentCall.measuring (call : EnrollmentCall F) : EnrollmentCall F :=
  { call with computeEnrollmentMetrics := NativeEnrollment.measured single floats }

end Source

/-! ### The areas of the groups -/

section Areas

variable {F : Type} {single : Single F} {floats : CoverageFloats F}
variable {captures : List CaptureCoverage} {count : ℕ} {groups : List ℤ} {roots : List UInt16}
  {transforms : List F} {canvasWidth canvasHeight : ℤ}

open Classical in
/-- The points of the canvas that a group shows. -/
noncomputable def shownPoints (floats : CoverageFloats F) (captures : List CaptureCoverage)
    (count : ℕ) (groups : List ℤ) (roots : List UInt16) (transforms : List F)
    (canvasWidth canvasHeight : ℤ) (group : ℕ) : Finset (ℕ × ℕ) :=
  (Finset.range canvasWidth.toNat ×ˢ Finset.range canvasHeight.toNat).filter fun p =>
    GroupShows floats captures count groups roots transforms canvasWidth canvasHeight group p.1 p.2

theorem card_shownPoints_le {group : ℕ} :
    (shownPoints floats captures count groups roots transforms canvasWidth canvasHeight
      group).card ≤ canvasWidth.toNat * canvasHeight.toNat := by
  classical
  calc _ ≤ (Finset.range canvasWidth.toNat ×ˢ Finset.range canvasHeight.toNat).card :=
        Finset.card_filter_le _ _
    _ = canvasWidth.toNat * canvasHeight.toNat := by
        rw [Finset.card_product, Finset.card_range, Finset.card_range]

theorem covered_eq_shownPoints {group : ℕ} {output mask : List (BitVec 32)}
    (hlow : canvasHeight < 2 ^ 31)
    (h : buildGroupMaskUnion floats captures count groups roots transforms canvasWidth canvasHeight
      group output = some mask) :
    covered mask canvasWidth.toNat canvasHeight.toNat (wordEnd canvasWidth.toNat) =
      shownPoints floats captures count groups roots transforms canvasWidth canvasHeight group := by
  obtain ⟨-, hbits⟩ := buildGroupMaskUnion_some hlow h
  ext ⟨x, y⟩
  simp only [covered, shownPoints, Finset.mem_filter, Finset.mem_product, Finset.mem_range]
  refine and_congr_right ?_
  rintro ⟨hx, hy⟩
  rw [hbits x y (hx.trans_le (le_wordEnd _)), if_pos hy]

/-- **The area of one more group** is added: what the buffer held before does not matter. -/
theorem coverageAreaStep_some {s s' : List (BitVec 32) × F} {group : ℕ}
    (hsize : canvasWidth * canvasHeight < 2 ^ 31)
    (h : coverageAreaStep single floats captures count groups roots transforms canvasWidth
      canvasHeight s group = some s') :
    s'.2 = single.add s.2 (single.num (shownPoints floats captures count groups roots transforms
      canvasWidth canvasHeight group).card) := by
  obtain ⟨mask, hmask, h⟩ := Option.bind_eq_some_iff.1 h
  obtain ⟨area, harea, h⟩ := Option.bind_eq_some_iff.1 h
  obtain rfl := Option.some.inj h
  have haccepts := coverageAccepts_of_eq_some hmask
  have hwidth := haccepts.width
  have hheight := haccepts.height
  have hlow : canvasHeight < 2 ^ 31 := by nlinarith
  have hcard := countPackedMask_eq harea
  rw [covered_eq_shownPoints hlow hmask] at hcard
  have hfew : area < 2 ^ 31 := by
    have hle : area ≤ canvasWidth.toNat * canvasHeight.toNat := hcard.trans_le card_shownPoints_le
    zify at hle ⊢
    rw [Int.toNat_of_nonneg (by omega), Int.toNat_of_nonneg (by omega)] at hle
    exact hle.trans_lt hsize
  have hsigned : signedU32 (BitVec.ofNat 32 area) = area := by
    rw [← BitVec.ofInt_natCast]
    exact signedU32_u32 (by omega) (by omega)
  dsimp only
  rw [hsigned, hcard]
  rfl

/-- **The areas are the numbers of points shown**, group by group, in one buffer. -/
theorem coverageAreas_eq {groupCount : ℕ} {last : List (BitVec 32) × F}
    (hsize : canvasWidth * canvasHeight < 2 ^ 31)
    (h : coverageAreas single floats captures count groups roots transforms canvasWidth
      canvasHeight groupCount = some last) :
    last.2 = (List.range groupCount).foldl (fun total group =>
      single.add total (single.num (shownPoints floats captures count groups roots transforms
        canvasWidth canvasHeight group).card)) (single.num 0) := by
  refine Loops.foldlM_range_some (fun n s => s.2 = (List.range n).foldl (fun total group =>
      single.add total (single.num (shownPoints floats captures count groups roots transforms
        canvasWidth canvasHeight group).card)) (single.num 0)) rfl ?_ h
  intro n _ s s' hs hstep
  rw [Scans.foldl_range_succ, coverageAreaStep_some hsize hstep, hs]

end Areas

/-! ### The history -/

section History

variable {F : Type}

/-- The first `n` entries of both histories stay, and the room for entries. -/
structure EnrollmentMetrics.Continues (before : EnrollmentMetrics F) (n : ℕ)
    (after : EnrollmentMetrics F) : Prop where
  area : ∀ k < n, after.area[k]? = before.area[k]?
  motion : ∀ k < n, after.motion[k]? = before.motion[k]?
  room : after.area.length = before.area.length

theorem EnrollmentMetrics.Continues.refl (metrics : EnrollmentMetrics F) (n : ℕ) :
    metrics.Continues n metrics :=
  ⟨fun _ _ => rfl, fun _ _ => rfl, rfl⟩

theorem EnrollmentMetrics.Continues.trans {before mid after : EnrollmentMetrics F} {n m : ℕ}
    (h : before.Continues n mid) (h' : mid.Continues m after) (hle : n ≤ m) :
    before.Continues n after where
  area k hk := (h'.area k (hk.trans_le hle)).trans (h.area k hk)
  motion k hk := (h'.motion k (hk.trans_le hle)).trans (h.motion k hk)
  room := h'.room.trans h.room

variable (single : Single F) (floats : CoverageFloats F)

/-- An update appends the area and leaves the earlier entries alone. -/
theorem updateEnrollmentMetrics_some {count matchCount : ℕ} {area : F} {imageWidth imageHeight : ℤ}
    {captureMatches : List CaptureMatch} {state next : EnrollmentMetrics F}
    (h : updateEnrollmentMetrics single count area imageWidth imageHeight captureMatches matchCount
      state = some next) :
    state.Continues (count - 1) next ∧ next.area = state.area.set (count - 1) area := by
  have hset : ∀ (l : List F) (value : F), ∀ k < count - 1, (l.set (count - 1) value)[k]? = l[k]? :=
    fun l value k hk => List.getElem?_set_ne (by omega)
  rw [updateEnrollmentMetrics] at h
  split at h
  · cases h
  dsimp only at h
  by_cases hone : count < 2
  · rw [if_pos hone] at h
    obtain rfl := Option.some.inj h
    exact ⟨⟨hset _ _, fun _ _ => rfl, List.length_set⟩, rfl⟩
  · rw [if_neg hone] at h
    obtain rfl := Option.some.inj h
    exact ⟨⟨hset _ _, hset _ _, List.length_set⟩, rfl⟩

/-- The areas that the groups show and what captures without a group count for. -/
noncomputable def shownArea (captures : List CaptureCoverage) (count : ℕ) (groups : List ℤ)
    (roots : List UInt16) (transforms : List F) (canvasWidth canvasHeight : ℤ)
    (coveragePercent : List ℤ) (groupCount : ℕ) : F :=
  single.add ((List.range groupCount).foldl (fun total group =>
      single.add total (single.num (shownPoints floats captures count groups roots transforms
        canvasWidth canvasHeight group).card)) (single.num 0))
    (unalignedArea single captures count groups coveragePercent)

/-- **The metrics append the area that the captures show**, and no earlier entry of the history is
written again. -/
theorem computeEnrollmentMetrics_kept {captures : List CaptureCoverage} {count : ℕ}
    {groups : List ℤ} {roots : List UInt16} {transforms : List F} {canvasWidth canvasHeight : ℤ}
    {coveragePercent : List ℤ} {groupCount matchCount : ℕ} {captureMatches : List CaptureMatch}
    {state next : EnrollmentMetrics F} (hsize : canvasWidth * canvasHeight < 2 ^ 31)
    (h : computeEnrollmentMetrics single floats captures count groups roots transforms canvasWidth
      canvasHeight coveragePercent groupCount captureMatches matchCount state = some next) :
    state.Continues (count - 1) next ∧
      next.area = state.area.set (count - 1) (shownArea single floats captures count groups roots
        transforms canvasWidth canvasHeight coveragePercent groupCount) := by
  rw [computeEnrollmentMetrics] at h
  split_ifs at h
  obtain ⟨⟨mask, aligned⟩, haligned, h⟩ := Option.bind_eq_some_iff.1 h
  have hareas := coverageAreas_eq hsize haligned
  rw [shownArea, ← hareas]
  exact updateEnrollmentMetrics_some single h

/-- What a session shows. -/
noncomputable def NativeEnrollment.shownArea (s : NativeEnrollment F) : F :=
  Fpc.shownArea single floats s.coverages s.count s.groups s.roots s.transforms 500 500 s.coverage
    s.grouping.groupCount.toNat

theorem measured_continues (s : NativeEnrollment F) :
    s.metrics.Continues (s.count - 1) (s.measured single floats).2 := by
  rw [NativeEnrollment.measured]
  split
  · exact .refl _ _
  · rename_i metrics hmetrics
    exact (computeEnrollmentMetrics_kept single floats (by norm_num) hmetrics).1

theorem measured_area {s : NativeEnrollment F} (h : (s.measured single floats).1 = 0) :
    (s.measured single floats).2.area =
      s.metrics.area.set (s.count - 1) (s.shownArea single floats) := by
  rw [NativeEnrollment.measured] at h ⊢
  split
  · rename_i hnone
    rw [hnone] at h
    exact absurd h (by norm_num)
  · rename_i metrics hmetrics
    exact (computeEnrollmentMetrics_kept single floats (by norm_num) hmetrics).2

end History

/-! ### The stages of a call -/

section Stage

variable {F : Type} {enrollmentFloats : EnrollmentFloats F} {single : Single F}
  {floats : CoverageFloats F}

/-- The number of captures and the metrics while an image is added. -/
structure Adding.At (n : ℕ) (metrics : EnrollmentMetrics F) (a : Adding F) : Prop where
  count : a.session.count = n
  metrics : a.session.metrics = metrics

variable {n : ℕ} {metrics : EnrollmentMetrics F} {a : Adding F}

theorem storeCapture_at (call : EnrollmentCall F) (h : a.At n metrics) :
    Holds (Adding.At n metrics) (storeCapture call a) := by
  unfold storeCapture
  by_cases hslot : a.session.incoming.storage ≠ none
  · rw [if_pos hslot]
    exact h
  rw [if_neg hslot]
  cases captureFromPrepared call.prepared.toPreparedCapture true call.fresh with
  | error fault => cases fault <;> exact h
  | ok capture =>
      dsimp only
      split_ifs
      · exact ⟨h.count, h.metrics⟩
      · exact h

theorem appendPair_at (call : EnrollmentCall F) (h : a.At n metrics) (i : ℕ) :
    Holds (Adding.At n metrics) (appendPair call a i) := by
  unfold appendPair
  dsimp only
  cases matchIncoming call a.session i with
  | none => exact h
  | some verified => exact ⟨h.count, h.metrics⟩

theorem countCapture_at (call : EnrollmentCall F) (h : a.At n metrics) :
    Holds (Adding.At (n + 1) metrics) (countCapture call a) := by
  have hcount : a.session.count + 1 = n + 1 := congrArg (· + 1) h.count
  unfold countCapture
  dsimp only
  split_ifs
  · exact ⟨hcount, h.metrics⟩
  · exact ⟨hcount, h.metrics⟩
  · exact ⟨hcount, h.metrics⟩

theorem checkMovement_at (h : a.At n metrics) :
    Holds (Adding.At n metrics) (checkMovement enrollmentFloats a) := by
  unfold checkMovement
  dsimp only
  split
  · exact h
  · exact ⟨h.count, h.metrics⟩

theorem advanceProgress_at (h : a.At n metrics) :
    Holds (Adding.At n metrics) (advanceProgress enrollmentFloats a) := by
  unfold advanceProgress
  dsimp only
  split
  · exact h
  · exact ⟨h.count, h.metrics⟩

theorem measureCaptures_at (call : EnrollmentCall F) (h : a.At n metrics) :
    Holds (Adding.At n (a.session.measured single floats).2)
      (measureCaptures (call.measuring single floats) a) := by
  unfold measureCaptures
  dsimp only [EnrollmentCall.measuring]
  split_ifs
  · exact ⟨h.count, rfl⟩
  · exact ⟨h.count, rfl⟩

/-- **Whether they fail or not, the stages leave the history of the captures before alone.** -/
theorem enrollImage_continues (call : EnrollmentCall F) (a : Adding F) :
    Holds (fun b => a.session.metrics.Continues a.session.count b.session.metrics)
      (enrollImage enrollmentFloats (call.measuring single floats) a) := by
  have hsame : ∀ {m : ℕ} (b : Adding F), b.At m a.session.metrics →
      a.session.metrics.Continues a.session.count b.session.metrics :=
    fun b hb => hb.metrics ▸ .refl _ _
  unfold enrollImage
  refine (storeCapture_at _ ⟨rfl, rfl⟩).bind hsame fun stored hstored => ?_
  refine (Holds.foldlM _ hstored fun b hb i => appendPair_at _ hb i).bind hsame
    fun paired hpaired => ?_
  refine (countCapture_at _ hpaired).bind hsame fun counted hcounted => ?_
  have hmeasured : a.session.metrics.Continues a.session.count
      (counted.session.measured single floats).2 := by
    have hcontinues := measured_continues single floats counted.session
    rwa [hcounted.metrics, hcounted.count, Nat.add_sub_cancel] at hcontinues
  have hafter : ∀ b : Adding F, b.At (a.session.count + 1)
      (counted.session.measured single floats).2 →
      a.session.metrics.Continues a.session.count b.session.metrics :=
    fun b hb => hb.metrics.symm ▸ hmeasured
  refine (measureCaptures_at call hcounted).bind hafter fun measured hmeasured => ?_
  refine (checkMovement_at hmeasured).bind hafter fun moved hmoved => ?_
  exact (advanceProgress_at hmoved).mono hafter

/-- **An accepted image is recorded with the area that the session shows then.** -/
theorem enrollImage_area {call : EnrollmentCall F} {a b : Adding F}
    (hroom : a.session.count < a.session.metrics.area.length)
    (hrun : enrollImage enrollmentFloats (call.measuring single floats) a = .ok b) :
    b.session.count = a.session.count + 1 ∧
      b.session.metrics.area[a.session.count]? = some (b.session.shownArea single floats) := by
  unfold enrollImage at hrun
  obtain ⟨stored, hstored, hafterStore⟩ := bind_ok hrun
  obtain ⟨paired, hpaired, hafterPairs⟩ := bind_ok hafterStore
  obtain ⟨counted, hcounted, hafterCount⟩ := bind_ok hafterPairs
  obtain ⟨measured, hmeasured, hafterMeasure⟩ := bind_ok hafterCount
  obtain ⟨moved, hmoved, hadvance⟩ := bind_ok hafterMeasure
  have hstoredAt : Holds (Adding.At a.session.count a.session.metrics) _ :=
    storeCapture_at (call.measuring single floats) ⟨rfl, rfl⟩
  rw [hstored] at hstoredAt
  have hpairedAt : Holds (Adding.At a.session.count a.session.metrics) _ :=
    Holds.foldlM (List.range stored.session.count) hstoredAt
      fun b hb i => appendPair_at (call.measuring single floats) hb i
  rw [hpaired] at hpairedAt
  have hcountedAt := countCapture_at (call.measuring single floats) hpairedAt
  rw [hcounted] at hcountedAt
  obtain ⟨hcount, hmetrics⟩ := hcountedAt
  have hsession : measured.session =
      { counted.session with metrics := (counted.session.measured single floats).2 } ∧
      (counted.session.measured single floats).1 = 0 := by
    unfold measureCaptures at hmeasured
    dsimp only [EnrollmentCall.measuring] at hmeasured
    split_ifs at hmeasured with hstatus
    rw [← Except.ok.inj hmeasured]
    exact ⟨rfl, not_not.1 hstatus⟩
  have hlast : b.session = { counted.session with
      metrics := (counted.session.measured single floats).2
      insufficientMovement := moved.session.insufficientMovement
      quality := b.session.quality } := by
    rw [(advanceProgress_ok hadvance).1, checkMovement_ok hmoved, hsession.1]
  have hshown : b.session.shownArea single floats = counted.session.shownArea single floats := by
    rw [hlast]
    rfl
  have harea := measured_area single floats hsession.2
  rw [hcount, hmetrics, Nat.add_sub_cancel] at harea
  rw [hshown, hlast]
  refine ⟨hcount, ?_⟩
  dsimp only
  rw [harea]
  exact List.getElem?_set_self hroom

end Stage

/-! ### Sessions -/

section Sessions

variable {F : Type} (enrollmentFloats : EnrollmentFloats F) (single : Single F)
  (floats : CoverageFloats F)

/-- A session that is measured by the source's metrics in every call. -/
def measuredFrom (s : NativeEnrollment F) (calls : List (EnrollmentCall F)) : NativeEnrollment F :=
  enrollFrom enrollmentFloats s (calls.map fun call => call.measuring single floats)

/-- The latest area is what the session shows, unless a call has failed. -/
structure NativeEnrollment.AreaRecorded (s : NativeEnrollment F) : Prop where
  room : s.metrics.area.length = 80
  few : s.count ≤ 13
  latest : s.failed = false → 0 < s.count →
    s.metrics.area[s.count - 1]? = some (s.shownArea single floats)

variable {enrollmentFloats single floats}

/-- **What one call does to the history.** -/
theorem nativeEnrollmentAdd_area {s : NativeEnrollment F} (h : s.AreaRecorded single floats)
    (call : EnrollmentCall F) :
    (nativeEnrollmentAdd enrollmentFloats s (call.measuring single floats)).session.AreaRecorded
        single floats ∧
      s.metrics.Continues s.count
        (nativeEnrollmentAdd enrollmentFloats s
          (call.measuring single floats)).session.metrics := by
  rcases nativeEnrollmentAdd_cases enrollmentFloats s (call.measuring single floats) with
    ⟨-, ho⟩ | ⟨-, -, ho⟩ | ⟨-, -, -, ho⟩ | ⟨halive, hroom, -, hrun⟩
  · rw [ho]
    exact ⟨h, .refl _ _⟩
  · rw [ho]
    exact ⟨h, .refl _ _⟩
  · rw [ho]
    exact ⟨⟨h.room, h.few, h.latest⟩, .refl _ _⟩
  · set gated := gatedSession enrollmentFloats s (call.measuring single floats)
    have hcontinues : Holds _ (enrollImage enrollmentFloats (call.measuring single floats) gated) :=
      enrollImage_continues call gated
    have hframe : Holds _ (enrollImage enrollmentFloats (call.measuring single floats) gated) :=
      enrollImage_frame (call.measuring single floats) gated
    rcases hrun with ⟨status, a, hrun, ho⟩ | ⟨a, hrun, ho⟩
    · rw [hrun] at hcontinues hframe
      rw [ho]
      have hcount : a.session.count = s.count ∨ a.session.count = s.count + 1 :=
        hframe.imp (·.count) (·.count)
      refine ⟨⟨hcontinues.room.trans h.room, ?_, fun hfailed => ?_⟩, hcontinues⟩
      · show a.session.count ≤ 13
        omega
      · cases hfailed
    · rw [hrun] at hcontinues
      rw [ho]
      have hspace : gated.session.count < gated.session.metrics.area.length := by
        rw [show gated.session.metrics.area.length = 80 from h.room]
        exact hroom.trans (by norm_num)
      obtain ⟨hcount, harea⟩ := enrollImage_area hspace hrun
      have hcount : a.session.count = s.count + 1 := hcount
      refine ⟨⟨hcontinues.room.trans h.room, by show a.session.count ≤ 13; omega, fun _ _ => ?_⟩,
        hcontinues⟩
      rw [show a.session.count - 1 = s.count by omega]
      exact harea

theorem measuredFrom_area {s : NativeEnrollment F} (h : s.AreaRecorded single floats)
    (calls : List (EnrollmentCall F)) :
    (measuredFrom enrollmentFloats single floats s calls).AreaRecorded single floats ∧
      s.metrics.Continues s.count
        (measuredFrom enrollmentFloats single floats s calls).metrics := by
  induction calls generalizing s with
  | nil => exact ⟨h, .refl _ _⟩
  | cons call calls ih =>
      obtain ⟨hnext, hcontinues⟩ := @nativeEnrollmentAdd_area F enrollmentFloats _ _ s h call
      have hgrows := nativeEnrollmentAdd_grows enrollmentFloats s (call.measuring single floats)
      obtain ⟨hlast, hrest⟩ := ih hnext
      exact ⟨hlast, hcontinues.trans hrest hgrows.count⟩

/-- **The history of a session**, over all lists of calls.  While no call has failed, the latest
area is what the groups of the session and their masks show, with the captures that have no group;
and whatever is called further, the areas and motions recorded for the captures so far stay. -/
theorem enrollment_areas (enrollmentFloats : EnrollmentFloats F) (single : Single F)
    (floats : CoverageFloats F) (calls more : List (EnrollmentCall F)) :
    ((measuredFrom enrollmentFloats single floats (nativeEnrollmentCreate enrollmentFloats)
        calls).AreaRecorded single floats) ∧
      (measuredFrom enrollmentFloats single floats (nativeEnrollmentCreate enrollmentFloats)
        calls).metrics.Continues
        (measuredFrom enrollmentFloats single floats (nativeEnrollmentCreate enrollmentFloats)
          calls).count
        (measuredFrom enrollmentFloats single floats (nativeEnrollmentCreate enrollmentFloats)
          (calls ++ more)).metrics := by
  have hstart : (nativeEnrollmentCreate enrollmentFloats).AreaRecorded single floats :=
    ⟨List.length_replicate, Nat.zero_le _, fun _ hpos => absurd hpos (Nat.lt_irrefl 0)⟩
  have hcalls := (@measuredFrom_area F enrollmentFloats _ _ _ hstart calls).1
  refine ⟨hcalls, ?_⟩
  have happend : measuredFrom enrollmentFloats single floats
      (nativeEnrollmentCreate enrollmentFloats) (calls ++ more) =
      measuredFrom enrollmentFloats single floats (measuredFrom enrollmentFloats single floats
        (nativeEnrollmentCreate enrollmentFloats) calls) more := by
    rw [measuredFrom, List.map_append, enrollFrom_append]
    rfl
  rw [happend]
  exact (measuredFrom_area hcalls more).2

end Sessions

end Fpc
