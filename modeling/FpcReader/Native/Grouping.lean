/-
**Grouping captures.**

The captures of a session are grouped by their matches.  A group starts at the ungrouped capture
with most inliers and grows by one capture at a time, the one with most inliers in matches with
grouped captures, until there is none; then the next group starts.  The state of the session keeps
one of the groups selected.

Placing a capture is floating-point work and left opaque, as are the bounds of a group.  Loops run
on fuel, and a result of `none` means that there was not enough of it.

Main definitions:

* `Fpc.pairWeights`, `Fpc.heaviestCapture` — what a capture has in common with others, and the next
  capture;
* `Fpc.growGroup`, `Fpc.growGroups` — the two loops;
* `Fpc.rebuildCaptureGroups` — the groups of a session, built anew;
* `Fpc.Linked` — two captures have a successful match with inliers.

Main results:

* `Fpc.growGroups_grouped` — the loops end, and in groups that are complete;
* `Fpc.rebuildCaptureGroups_components` — **groups are the connected components**.
-/

import FpcReader.Lib.Components
import FpcReader.Lib.Loops
import FpcReader.Lib.Triangle
import FpcReader.Native.Enrollment
import FpcReader.Native.GeometrySound
import FpcReader.Native.Replacement

set_option relaxedAutoImplicit false
set_option autoImplicit false

namespace Fpc

open Relation

/-! ### The loops -/

/-- The record of two captures, the later one named first. -/
def pairAt (captureMatches : List CaptureMatch) (later earlier : ℕ) : CaptureMatch :=
  captureMatches.getD (later * (later - 1) / 2 + earlier) ⟨⟨0, 0, 0, 0⟩, 0, 0⟩

section Weights

variable (captureMatches : List CaptureMatch) (count : ℕ) (admits : ℕ → ℕ → Bool)

/-- One pair: its inliers count for each of the two captures that is admitted by the other. -/
def addPairWeight (later : ℕ) (weights : List UInt32) (earlier : ℕ) : List UInt32 :=
  let pair := pairAt captureMatches later earlier
  let add := fun (weights : List UInt32) capture partner =>
    if admits capture partner then weights.modify capture (· + UInt32.ofNat pair.inliers)
    else weights
  if pair.success ≠ 0 then add (add weights later earlier) earlier later else weights

/-- The weights of all captures. -/
def pairWeights : List UInt32 :=
  (List.range' 1 (count - 1)).foldl (fun weights later =>
    (List.range later).foldl (addPairWeight captureMatches admits later) weights)
    (List.replicate count 0)

end Weights

/-- A capture of larger weight, as a signed number, takes the place of the best one so far. -/
def heavierCapture (weights : List UInt32) (best : ℤ × ℕ) (i : ℕ) : ℤ × ℕ :=
  if best.1 < signedU32 (weights.getD i 0).toBitVec then
    (signedU32 (weights.getD i 0).toBitVec, i)
  else best

/-- The first capture of largest weight, when that is positive; `count` when there is none. -/
def heaviestCapture (count : ℕ) (weights : List UInt32) : ℕ :=
  ((List.range count).foldl (heavierCapture weights) (0, count)).2

/-- The floating-point work: placing a capture in its group from the matches with grouped captures,
the bounds of a group, and the middle of an interval given by its length and its start. -/
structure GroupFloats (F : Type) where
  identity : Vector F 9
  weightedGroupTransform : ℕ → List ℤ → List F → Option (Vector F 9)
  captureGroupBounds : List ℤ → List F → ℤ → Option (ℤ × ℤ × ℤ × ℤ)
  centre : ℤ → ℤ → F

/-- The local variables of the loops and the arrays they write. -/
structure GroupingState (F : Type) where
  visited : List Bool
  groups : List ℤ
  roots : List UInt16
  transforms : List F
  group : ℤ

/-- The nine values of one transform are written. -/
def writeTransform {F : Type} (transforms : List F) (capture : ℕ) (matrix : Vector F 9) : List F :=
  transforms.take (capture * 9) ++ matrix.toList ++ transforms.drop (capture * 9 + 9)

section Grouping

variable {F : Type} (floats : GroupFloats F) (captureMatches : List CaptureMatch) (count : ℕ)
  (preserveTransforms : Bool)

/-- A capture that may start a group has not been visited. -/
def startsGroup (s : GroupingState F) (capture _ : ℕ) : Bool := !s.visited.getD capture false

/-- A capture that may join has not been visited, and the other one of the pair is grouped. -/
def joinsGroup (s : GroupingState F) (capture partner : ℕ) : Bool :=
  !s.visited.getD capture false && decide (s.groups.getD partner (-1) ≠ -1)

/-- A group starts at a capture, which is its root. -/
def startGroup (selected : ℕ) (s : GroupingState F) : GroupingState F where
  visited := s.visited.set selected true
  groups := s.groups.set selected (signedU16 (u16 (s.group + 1)))
  roots := s.roots.set (s.group + 1).toNat (UInt16.ofNat selected)
  transforms := writeTransform s.transforms selected floats.identity
  group := s.group + 1

/-- A capture joins the newest group, unless it is there already and transforms are to be kept. -/
def joinGroup (selected : ℕ) (s : GroupingState F) : Except (GroupingState F) (GroupingState F) :=
  let s := { s with visited := s.visited.set selected true }
  if !preserveTransforms || s.groups.getD selected (-1) ≠ s.group then
    match floats.weightedGroupTransform selected s.groups s.transforms with
    -- the capture stays visited, but has no group
    | none => .error s
    | some matrix => .ok { s with
        transforms := writeTransform s.transforms selected matrix
        groups := s.groups.set selected (signedU16 (u16 s.group)) }
  else .ok s

/-- The inner loop: the newest group grows. -/
def growGroup : ℕ → GroupingState F → Option (Except (GroupingState F) (GroupingState F))
  | 0, _ => none
  | fuel + 1, s =>
      let selected := heaviestCapture count (pairWeights captureMatches count (joinsGroup s))
      if selected = count then some (.ok s)
      else
        match joinGroup floats preserveTransforms selected s with
        | .error s => some (.error s)
        | .ok s => growGroup fuel s

/-- The outer loop: groups are started and grown. -/
def growGroups : ℕ → GroupingState F → Option (Except (GroupingState F) (GroupingState F))
  | 0, _ => none
  | fuel + 1, s =>
      let selected := heaviestCapture count (pairWeights captureMatches count (startsGroup s))
      if selected = count then some (.ok s)
      else
        -- both loops visit a capture at every turn, so one count of turns bounds both
        match growGroup floats captureMatches count preserveTransforms (fuel + 1)
            (startGroup floats selected s) with
        | none => none
        | some (.error s) => some (.error s)
        | some (.ok s) => growGroups fuel s

/-! ### The selected group -/

/-- The state of the session and the flags while a group is chosen. -/
structure Selecting (F : Type) where
  grouping : CaptureGroupsState F
  flags : UInt32

/-- Group `g` is chosen when it has members enough. -/
def chooseGroup (minimumGroupSize : ℤ) (s : GroupingState F) (t : Selecting F) (g : ℕ) :
    Except (Selecting F) (Selecting F) :=
  if minimumGroupSize ≤ ((List.range count).countP fun i => s.groups.getD i (-1) = g : ℕ) then
    match floats.captureGroupBounds s.groups s.transforms g with
    | none => .error t
    -- a later group takes the place of one that was chosen before
    | some (x, y, width, height) => .ok {
        grouping := { t.grouping with
          selectedGroup := g
          referenceCapture := (s.roots.getD g 0).toNat
          centerX := floats.centre width x
          centerY := floats.centre height y }
        flags := t.flags ||| 0x20 }
  else .ok t

/-- The group of the reference capture is looked up, and the capture becomes its root. -/
def followReference (reference : ℤ) (groups : List ℤ) (found : ℤ × List UInt16) (i : ℕ) :
    ℤ × List UInt16 :=
  if found.1 = -1 ∧ (i : ℤ) = reference ∧ 0 ≤ groups.getD i (-1) then
    (groups.getD i (-1), found.2.set (groups.getD i (-1)).toNat (UInt16.ofNat i))
  else found

/-- A selected group stays the one of the reference capture, as long as that has a group. -/
def keepSelection (s : GroupingState F) (grouping : CaptureGroupsState F) :
    List UInt16 × CaptureGroupsState F :=
  let found := (List.range count).foldl
    (followReference grouping.referenceCapture s.groups) (-1, s.roots)
  if found.1 = -1 then
    -- group 0 is selected even when there is no group at all
    (found.2, { grouping with
      selectedGroup := 0, referenceCapture := (found.2.getD 0 0).toNat })
  else (found.2, { grouping with selectedGroup := found.1 })

/-- The groups of a session, built anew; `allocated` says whether the two buffers could be had. -/
def rebuildCaptureGroups (allocated : Bool) (fuel : ℕ) (minimumGroupSize : ℤ) (groups : List ℤ)
    (roots : List UInt16) (transforms : List F) (grouping : CaptureGroupsState F)
    (flags : UInt32) : Option (Regrouped F) :=
  if count = 0 ∨ 32767 < count ∨ captureMatches.length < count * (count - 1) / 2 ∨ !allocated then
    some ⟨-1, groups, roots, transforms, grouping, flags⟩
  else
    match growGroups floats captureMatches count preserveTransforms fuel
        ⟨List.replicate count false, List.replicate count (-1) ++ groups.drop count, roots,
          transforms, -1⟩ with
    | none => none
    | some (.error s) => some ⟨-1, s.groups, s.roots, s.transforms, grouping, flags⟩
    | some (.ok s) =>
        let grouping := { grouping with groupCount := s.group + 1 }
        if grouping.selectedGroup = -1 then
          match (List.range (s.group + 1).toNat).foldlM
              (chooseGroup floats count minimumGroupSize s) ⟨grouping, flags⟩ with
          | .error t => some ⟨-1, s.groups, s.roots, s.transforms, t.grouping, t.flags⟩
          | .ok t => some ⟨0, s.groups, s.roots, s.transforms, t.grouping, t.flags⟩
        else
          let kept := keepSelection count s grouping
          some ⟨0, s.groups, kept.1, s.transforms, kept.2, flags⟩

end Grouping

/-! ### Weights -/

/-- Two captures have a successful match with inliers. -/
def Linked (captureMatches : List CaptureMatch) (count i j : ℕ) : Prop :=
  i ≠ j ∧ i < count ∧ j < count ∧
    (pairAt captureMatches (max i j) (min i j)).success ≠ 0 ∧
    0 < (pairAt captureMatches (max i j) (min i j)).inliers

theorem Linked.symm {captureMatches : List CaptureMatch} {count i j : ℕ}
    (h : Linked captureMatches count i j) : Linked captureMatches count j i := by
  obtain ⟨hne, hi, hj, hpair⟩ := h
  rw [max_comm, min_comm] at hpair
  exact ⟨hne.symm, hj, hi, hpair⟩

section Weights

variable {captureMatches : List CaptureMatch} {count : ℕ} {admits : ℕ → ℕ → Bool}

/-- The values of the first elements add up to at most those of all. -/
theorem sum_getD_le {α : Type} (f : α → ℕ) (d : α) (xs : List α) {n : ℕ} (h : n ≤ xs.length) :
    ∑ i ∈ Finset.range n, f (xs.getD i d) ≤ (xs.map f).sum := by
  induction xs generalizing n with
  | nil =>
      obtain rfl : n = 0 := Nat.le_zero.1 h
      simp
  | cons x xs ih =>
      cases n with
      | zero => simp
      | succ n =>
          have hrest := ih (Nat.le_of_succ_le_succ h)
          rw [Finset.sum_range_succ']
          simpa [Nat.add_comm] using hrest

/-- What a pair adds to the weight of capture `k`. -/
def pairShare (captureMatches : List CaptureMatch) (admits : ℕ → ℕ → Bool) (k later earlier : ℕ) :
    ℕ :=
  if (pairAt captureMatches later earlier).success ≠ 0 ∧
      (k = later ∧ admits later earlier ∨ k = earlier ∧ admits earlier later) then
    (pairAt captureMatches later earlier).inliers
  else 0

theorem pairShare_le (k later earlier : ℕ) :
    pairShare captureMatches admits k later earlier ≤
      (pairAt captureMatches later earlier).inliers := by
  rw [pairShare]
  split_ifs
  · exact le_rfl
  · exact Nat.zero_le _

theorem modify_adds (weights : List UInt32) (i n : ℕ) (admitted : Bool) :
    CostAdds weights (if admitted then weights.modify i (· + UInt32.ofNat n) else weights)
      fun k => if k = i ∧ admitted then n else 0 := by
  cases admitted with
  | false => simpa using CostAdds.zero weights
  | true =>
      refine ⟨by simp, ?_⟩
      intro k hk
      rw [if_pos rfl, getD_modify_add _ _ _ _ hk]
      by_cases hki : i = k
      · simp [hki, UInt32.toNat_add]
      · have hmod := Nat.mod_eq_of_lt (weights.getD k 0).toNat_lt
        simp only [List.getD_eq_getElem?_getD] at hmod
        simp [hki, Ne.symm hki, hmod]

variable (captureMatches admits) in
theorem addPairWeight_adds {later earlier : ℕ} (h : earlier < later) (weights : List UInt32) :
    CostAdds weights (addPairWeight captureMatches admits later weights earlier)
      fun k => pairShare captureMatches admits k later earlier := by
  rw [addPairWeight]
  by_cases hs : (pairAt captureMatches later earlier).success = 0
  · simpa [pairShare, hs] using CostAdds.zero weights
  · have hadds := (modify_adds weights later (pairAt captureMatches later earlier).inliers
      (admits later earlier)).trans (modify_adds _ earlier
        (pairAt captureMatches later earlier).inliers (admits earlier later))
    have hshare : (fun k => pairShare captureMatches admits k later earlier) = fun k =>
        (if k = later ∧ admits later earlier then
          (pairAt captureMatches later earlier).inliers else 0) +
        (if k = earlier ∧ admits earlier later then
          (pairAt captureMatches later earlier).inliers else 0) := by
      funext k
      rw [pairShare]
      -- no capture is both the later and the earlier one
      by_cases hk : k = later
      · have hne : k ≠ earlier := by omega
        simp [hs, hk, hk ▸ hne]
      · simp [hs, hk]
    rw [hshare]
    simpa [hs] using hadds

theorem pairWeights_eq :
    pairWeights captureMatches count admits = (List.range count).foldl (fun weights later =>
      (List.range later).foldl (addPairWeight captureMatches admits later) weights)
      (List.replicate count 0) := by
  rw [pairWeights]
  cases count with
  | zero => rfl
  | succ n =>
      rw [List.range_eq_range', List.range'_succ, List.foldl_cons]
      rfl

variable (captureMatches count admits) in
theorem pairWeights_adds :
    CostAdds (List.replicate count 0) (pairWeights captureMatches count admits) fun k =>
      ∑ later ∈ Finset.range count, ∑ earlier ∈ Finset.range later,
        pairShare captureMatches admits k later earlier := by
  rw [pairWeights_eq]
  refine Loops.foldl_range (fun n weights => CostAdds (List.replicate count 0) weights fun k =>
    ∑ later ∈ Finset.range n, ∑ earlier ∈ Finset.range later,
      pairShare captureMatches admits k later earlier) ?_ ?_
  · simpa using CostAdds.zero (List.replicate count 0)
  · intro later _ weights hweights
    have hrow : CostAdds weights
        ((List.range later).foldl (addPairWeight captureMatches admits later) weights) fun k =>
        ∑ earlier ∈ Finset.range later, pairShare captureMatches admits k later earlier := by
      refine Loops.foldl_range (fun n weights' => CostAdds weights weights' fun k =>
        ∑ earlier ∈ Finset.range n, pairShare captureMatches admits k later earlier) ?_ ?_
      · simpa using CostAdds.zero weights
      · intro earlier hearlier weights' hweights'
        have := hweights'.trans (addPairWeight_adds captureMatches admits hearlier weights')
        simpa [Finset.sum_range_succ] using this
    have := hweights.trans hrow
    simpa [Finset.sum_range_succ] using this

variable (admits) in
/-- All inliers together bound every weight. -/
theorem pairShares_le (hlength : Triangle.pairs count ≤ captureMatches.length) (k : ℕ) :
    ∑ later ∈ Finset.range count, ∑ earlier ∈ Finset.range later,
        pairShare captureMatches admits k later earlier ≤
      (captureMatches.map CaptureMatch.inliers).sum := by
  calc ∑ later ∈ Finset.range count, ∑ earlier ∈ Finset.range later,
        pairShare captureMatches admits k later earlier
      ≤ ∑ later ∈ Finset.range count, ∑ earlier ∈ Finset.range later,
          (pairAt captureMatches later earlier).inliers :=
        Finset.sum_le_sum fun later _ => Finset.sum_le_sum fun earlier _ => pairShare_le _ _ _
    _ = ∑ i ∈ Finset.range (Triangle.pairs count),
          (captureMatches.getD i ⟨⟨0, 0, 0, 0⟩, 0, 0⟩).inliers :=
        Triangle.sum_append count fun i => (captureMatches.getD i ⟨⟨0, 0, 0, 0⟩, 0, 0⟩).inliers
    _ ≤ (captureMatches.map CaptureMatch.inliers).sum := sum_getD_le _ _ _ hlength

/-- **A capture has weight exactly when one of its partners admits it.** -/
theorem pairWeights_pos_iff (hlength : Triangle.pairs count ≤ captureMatches.length)
    (htotal : (captureMatches.map CaptureMatch.inliers).sum < 2 ^ 31) {k : ℕ} (hk : k < count) :
    0 < signedU32 ((pairWeights captureMatches count admits).getD k 0).toBitVec ↔
      ∃ j, Linked captureMatches count k j ∧ admits k j = true := by
  have hle := pairShares_le admits hlength k
  have hvalue := (pairWeights_adds captureMatches count admits).2 k (by rwa [List.length_replicate])
  set total := ∑ later ∈ Finset.range count, ∑ earlier ∈ Finset.range later,
    pairShare captureMatches admits k later earlier with htotal'
  -- all inliers together fit a signed word, so a weight is the sum it stands for
  have hnat : ((pairWeights captureMatches count admits).getD k 0).toNat = total := by
    rw [hvalue, List.getD_replicate _ hk]
    exact (congrArg (· % 2 ^ 32) (Nat.zero_add total)).trans (Nat.mod_eq_of_lt (by omega))
  have hsigned : signedU32 ((pairWeights captureMatches count admits).getD k 0).toBitVec =
      total := by
    rw [signedU32, BitVec.toInt_eq_toNat_of_lt, UInt32.toNat_toBitVec, hnat]
    rw [UInt32.toNat_toBitVec, hnat]
    omega
  rw [hsigned, Int.natCast_pos, Nat.pos_iff_ne_zero, htotal', Ne, Finset.sum_eq_zero_iff]
  simp only [Finset.sum_eq_zero_iff, Finset.mem_range, pairShare]
  constructor
  · intro h
    push Not at h
    obtain ⟨later, hlater, earlier, hearlier, hshare⟩ := h
    rw [ne_eq, ite_eq_right_iff, Classical.not_imp] at hshare
    obtain ⟨⟨hsuccess, hk | hk⟩, hinliers⟩ := hshare
    · refine ⟨earlier, ⟨by omega, by omega, by omega, ?_⟩, hk.1 ▸ hk.2⟩
      rw [hk.1, max_eq_left hearlier.le, min_eq_right hearlier.le]
      exact ⟨hsuccess, Nat.pos_of_ne_zero hinliers⟩
    · refine ⟨later, ⟨by omega, by omega, by omega, ?_⟩, hk.1 ▸ hk.2⟩
      rw [hk.1, max_eq_right hearlier.le, min_eq_left hearlier.le]
      exact ⟨hsuccess, Nat.pos_of_ne_zero hinliers⟩
  · rintro ⟨j, ⟨hne, -, hj, hsuccess, hinliers⟩, hadmits⟩ hzero
    have hlt : min k j < max k j := by omega
    have := hzero (max k j) (by omega) (min k j) hlt
    rw [if_pos] at this
    · omega
    · refine ⟨hsuccess, ?_⟩
      rcases Nat.lt_or_gt_of_ne hne with h | h
      · rw [max_eq_right h.le, min_eq_left h.le]
        exact Or.inr ⟨rfl, hadmits⟩
      · rw [max_eq_left h.le, min_eq_right h.le]
        exact Or.inl ⟨rfl, hadmits⟩

/-- The search after `n` captures: none of them has positive weight, or the best one has. -/
def BestUpTo (weights : List UInt32) (count n : ℕ) (best : ℤ × ℕ) : Prop :=
  (best = (0, count) ∧ ∀ k < n, ¬0 < signedU32 (weights.getD k 0).toBitVec) ∨
    (best.2 < n ∧ 0 < best.1 ∧ best.1 = signedU32 (weights.getD best.2 0).toBitVec)

theorem heavierCapture_best (weights : List UInt32) (count : ℕ) :
    BestUpTo weights count count
      ((List.range count).foldl (heavierCapture weights) (0, count)) := by
  refine Loops.foldl_range (BestUpTo weights count) (Or.inl ⟨rfl, by simp⟩) ?_
  rintro n - best hn
  rw [heavierCapture]
  split_ifs with h
  · refine Or.inr ⟨Nat.lt_succ_self n, ?_, rfl⟩
    rcases hn with ⟨hbest, -⟩ | ⟨-, hpos, -⟩
    · rw [hbest] at h
      exact h
    · exact hpos.trans h
  · rcases hn with ⟨hbest, hnone⟩ | ⟨hlt, hpos, hbest⟩
    · refine Or.inl ⟨hbest, ?_⟩
      intro k hk
      rcases Nat.lt_succ_iff_lt_or_eq.1 hk with hk | rfl
      · exact hnone k hk
      · rw [hbest] at h
        exact h
    · exact Or.inr ⟨Nat.lt_succ_of_lt hlt, hpos, hbest⟩

/-- The largest weight is looked for among positive ones. -/
theorem heaviestCapture_cases (count : ℕ) (weights : List UInt32) :
    (heaviestCapture count weights = count ∧
        ∀ k < count, ¬0 < signedU32 (weights.getD k 0).toBitVec) ∨
      (heaviestCapture count weights < count ∧
        0 < signedU32 (weights.getD (heaviestCapture count weights) 0).toBitVec) := by
  rw [heaviestCapture]
  rcases heavierCapture_best weights count with ⟨hbest, hnone⟩ | ⟨hlt, hpos, hbest⟩
  · exact Or.inl ⟨congrArg Prod.snd hbest, hnone⟩
  · rw [hbest] at hpos
    exact Or.inr ⟨hlt, hpos⟩

variable (admits) in
/-- **The next capture** is admitted by a partner; when there is none, no capture is. -/
theorem nextCapture_cases (hlength : Triangle.pairs count ≤ captureMatches.length)
    (htotal : (captureMatches.map CaptureMatch.inliers).sum < 2 ^ 31) :
    (heaviestCapture count (pairWeights captureMatches count admits) = count ∧
        ∀ k j, Linked captureMatches count k j → admits k j = false) ∨
      ∃ k, heaviestCapture count (pairWeights captureMatches count admits) = k ∧ k < count ∧
        ∃ j, Linked captureMatches count k j ∧ admits k j = true := by
  rcases heaviestCapture_cases count (pairWeights captureMatches count admits) with
    ⟨hcount, hnone⟩ | ⟨hlt, hpos⟩
  · refine Or.inl ⟨hcount, ?_⟩
    intro k j hlink
    have hk : k < count := hlink.2.1
    have := hnone k hk
    rw [pairWeights_pos_iff hlength htotal hk] at this
    exact Bool.eq_false_iff.2 fun hadmits => this ⟨j, hlink, hadmits⟩
  · exact Or.inr ⟨_, rfl, hlt, (pairWeights_pos_iff hlength htotal hlt).1 hpos⟩

end Weights

/-! ### The invariant -/

/-- A group number as it is stored. -/
def groupNumber : Option ℕ → ℤ
  | none => -1
  | some g => g

theorem groupNumber_inj {a b : Option ℕ} (h : groupNumber a = groupNumber b) : a = b := by
  cases a <;> cases b <;> simp only [groupNumber] at h
  · rfl
  · omega
  · omega
  · exact congrArg some (Int.ofNat.inj h)

theorem groupNumber_eq_neg_one {a : Option ℕ} : groupNumber a = -1 ↔ a = none := by
  constructor
  · exact fun h => groupNumber_inj (h : groupNumber a = groupNumber none)
  · rintro rfl
    rfl

/-- The arrays hold the groups that `label` tells, of which `g` have been started. -/
structure Grouped {F : Type} (captureMatches : List CaptureMatch) (count : ℕ)
    (s : GroupingState F) (label : ℕ → Option ℕ) (g : ℕ) : Prop where
  group : s.group = (g : ℤ) - 1
  visited_length : s.visited.length = count
  groups_length : count ≤ s.groups.length
  roots_length : count ≤ s.roots.length
  lt : ∀ {k l}, label k = some l → k < count
  /-- A capture has been visited when it has a group. -/
  visited : ∀ k < count, s.visited.getD k false = (label k).isSome
  groups : ∀ k < count, s.groups.getD k (-1) = groupNumber (label k)
  /-- The root of a group belongs to it. -/
  roots : ∀ l < g, label (s.roots.getD l 0).toNat = some l
  /-- Every group has used up a capture. -/
  room : g + s.visited.count false ≤ count
  grown : Components.Grown (Linked captureMatches count) label g

section Runs

variable {F : Type} {floats : GroupFloats F} {captureMatches : List CaptureMatch} {count : ℕ}
  {preserveTransforms : Bool} {s : GroupingState F} {label : ℕ → Option ℕ} {g : ℕ}

theorem Grouped.empty (captureMatches : List CaptureMatch) (groups : List ℤ) {roots : List UInt16}
    (hroots : count ≤ roots.length) (transforms : List F) :
    Grouped captureMatches count ⟨List.replicate count false,
      List.replicate count (-1) ++ groups.drop count, roots, transforms, -1⟩ (fun _ => none) 0 where
  group := rfl
  visited_length := List.length_replicate
  groups_length := by simp
  roots_length := hroots
  lt h := by simp at h
  visited k hk := by simp [hk]
  groups k hk := by simp [groupNumber, List.getElem?_append, hk]
  roots l hl := absurd hl (Nat.not_lt_zero l)
  room := by simp
  grown := Components.Grown.empty _

/-- A capture that may start a group. -/
theorem Grouped.startsGroup_iff (h : Grouped captureMatches count s label g) {k : ℕ}
    (hk : k < count) (j : ℕ) : startsGroup s k j = true ↔ label k = none := by
  rw [startsGroup, h.visited k hk]
  cases label k <;> simp

/-- A capture that may join by way of another. -/
theorem Grouped.joinsGroup_iff (h : Grouped captureMatches count s label g) {k j : ℕ}
    (hk : k < count) (hj : j < count) :
    joinsGroup s k j = true ↔ label k = none ∧ label j ≠ none := by
  rw [joinsGroup, h.visited k hk, h.groups j hj, Bool.and_eq_true, decide_eq_true_eq, Ne,
    groupNumber_eq_neg_one]
  cases label k <;> simp

/-- Visiting a capture uses it up. -/
theorem count_visit {visited : List Bool} {k : ℕ} (hk : k < visited.length)
    (h : visited.getD k false = false) :
    (visited.set k true).count false + 1 = visited.count false := by
  have hget : visited[k] = false := by rwa [List.getD_eq_getElem _ _ hk] at h
  have hmem : false ∈ visited := hget ▸ List.getElem_mem hk
  have hpos := List.count_pos_iff.2 hmem
  rw [List.count_set hk, hget]
  simp
  omega

/-- What a state becomes when capture `k` gets group `g`. -/
theorem Grouped.assign {t : GroupingState F} {g' : ℕ} (h : Grouped captureMatches count s label g)
    {k : ℕ} (hk : k < count) (hnone : label k = none) {l : ℕ} (hgroup : t.group = (g' : ℤ) - 1)
    (hvisited : t.visited = s.visited.set k true) (hgroups : t.groups = s.groups.set k l)
    (hrootsLength : count ≤ t.roots.length)
    (hroots : ∀ l' < g', Function.update label k (some l) (t.roots.getD l' 0).toNat = some l')
    (hroom : g' ≤ g + 1)
    (hgrown : Components.Grown (Linked captureMatches count)
      (Function.update label k (some l)) g') :
    Grouped captureMatches count t (Function.update label k (some l)) g' ∧
      t.visited.count false + 1 = s.visited.count false := by
  have hlen := h.visited_length
  have hcount : t.visited.count false + 1 = s.visited.count false := by
    rw [hvisited]
    refine count_visit (by omega) ?_
    rw [h.visited k hk, hnone]
    rfl
  refine ⟨⟨hgroup, ?_, ?_, hrootsLength, ?_, ?_, ?_, hroots, ?_, hgrown⟩, hcount⟩
  · rw [hvisited, List.length_set, hlen]
  · rw [hgroups, List.length_set]
    exact h.groups_length
  · intro i m hi
    by_cases hik : i = k
    · rwa [hik]
    · rw [Function.update_of_ne hik] at hi
      exact h.lt hi
  · intro i hi
    rw [hvisited, Scans.getD_set (by omega)]
    by_cases hik : i = k
    · simp [hik]
    · rw [if_neg hik, Function.update_of_ne hik]
      exact h.visited i hi
  · intro i hi
    rw [hgroups, Scans.getD_set (hk.trans_le h.groups_length)]
    by_cases hik : i = k
    · simp [hik, groupNumber]
    · rw [if_neg hik, Function.update_of_ne hik]
      exact h.groups i hi
  · have := h.room
    omega

variable (floats) in
/-- **Starting a group** at an ungrouped capture that has a partner. -/
theorem Grouped.startGroup (h : Grouped captureMatches count s label g) (hcount : count ≤ 32767)
    (hclosed : Components.Closed (Linked captureMatches count) label) {k j : ℕ} (hk : k < count)
    (hnone : label k = none) (hlink : Linked captureMatches count k j) :
    Grouped captureMatches count (startGroup floats k s) (Function.update label k (some g))
        (g + 1) ∧
      (Fpc.startGroup floats k s).visited.count false + 1 = s.visited.count false := by
  have hgroup : s.group + 1 = (g : ℤ) := by
    rw [h.group]
    omega
  have hunvisited : 0 < s.visited.count false := by
    have := count_visit (h.visited_length ▸ hk) (by rw [h.visited k hk, hnone]; rfl)
    omega
  have hg : g < count := by
    have := h.room
    omega
  have hk16 : (UInt16.ofNat k).toNat = k := by
    rw [UInt16.toNat_ofNat']
    exact Nat.mod_eq_of_lt (by omega)
  refine h.assign hk hnone ?_ rfl ?_ ?_ ?_ le_rfl
    (h.grown.start Linked.symm hclosed hnone hlink)
  · rw [Fpc.startGroup, hgroup]
    push_cast
    omega
  · rw [Fpc.startGroup, hgroup, signedU16_u16 (by omega) (by omega)]
  · rw [Fpc.startGroup, List.length_set]
    exact h.roots_length
  · intro l hl
    rw [Fpc.startGroup, hgroup, Int.toNat_natCast,
      Scans.getD_set (hg.trans_le h.roots_length)]
    by_cases hlg : l = g
    · rw [if_pos hlg, hk16, Function.update_self, hlg]
    · -- the root of another group is in it, so it is not the new capture
      have hroot := h.roots l (by omega)
      rw [if_neg hlg, Function.update_of_ne, hroot]
      rintro heq
      rw [heq, hnone] at hroot
      cases hroot

variable (floats preserveTransforms) in
/-- **A capture joins** by way of a grouped partner, unless it cannot be placed. -/
theorem Grouped.joinGroup (h : Grouped captureMatches count s label (g + 1))
    (hcount : count ≤ 32767) {k j : ℕ} (hk : k < count) (hnone : label k = none)
    (hlink : Linked captureMatches count k j) (hj : label j ≠ none) :
    (∃ s', joinGroup floats preserveTransforms k s = .error s') ∨
      ∃ s', Fpc.joinGroup floats preserveTransforms k s = .ok s' ∧
        Grouped captureMatches count s' (Function.update label k (some g)) (g + 1) ∧
        s'.visited.count false + 1 = s.visited.count false := by
  have hgroup : s.group = (g : ℤ) := by
    rw [h.group]
    push_cast
    omega
  have hg : g < count := by
    have := h.room
    omega
  -- an ungrouped capture is not in the newest group, so it is always placed
  have hnew : (!preserveTransforms || decide (s.groups.getD k (-1) ≠ s.group)) = true := by
    rw [h.groups k hk, hnone, hgroup]
    simp [groupNumber]
  rw [Fpc.joinGroup]
  simp only [hnew, if_true]
  cases floats.weightedGroupTransform k s.groups s.transforms with
  | none => exact Or.inl ⟨_, rfl⟩
  | some matrix =>
      refine Or.inr ⟨_, rfl, h.assign hk hnone ?_ rfl ?_ h.roots_length ?_ (Nat.le_succ _)
        (h.grown.join Linked.symm hnone hj hlink)⟩
      · exact h.group
      · rw [hgroup, signedU16_u16 (by omega) (by omega)]
      · intro l hl
        have hroot := h.roots l hl
        rw [Function.update_of_ne, hroot]
        rintro heq
        rw [heq, hnone] at hroot
        cases hroot

/-! ### The loops end -/

variable (hlength : Triangle.pairs count ≤ captureMatches.length)
  (htotal : (captureMatches.map CaptureMatch.inliers).sum < 2 ^ 31) (hcount : count ≤ 32767)

variable (floats preserveTransforms)

include hlength htotal hcount

/-- **The inner loop ends** within as many rounds as there are captures left, with a group that is
complete. -/
theorem growGroup_grouped (fuel : ℕ) (h : Grouped captureMatches count s label (g + 1))
    (hfuel : s.visited.count false < fuel) :
    (∃ s', growGroup floats captureMatches count preserveTransforms fuel s = some (.error s')) ∨
      ∃ s' label', growGroup floats captureMatches count preserveTransforms fuel s =
          some (.ok s') ∧
        Grouped captureMatches count s' label' (g + 1) ∧
        Components.Closed (Linked captureMatches count) label' ∧
        s'.visited.count false ≤ s.visited.count false := by
  induction fuel generalizing s label with
  | zero => exact absurd hfuel (Nat.not_lt_zero _)
  | succ fuel ih =>
      rw [growGroup]
      rcases nextCapture_cases (joinsGroup s) hlength htotal with
        ⟨hsel, hnone⟩ | ⟨k, hsel, hk, j, hlink, hjoins⟩
      · -- no capture joins: a partner outside would have been selected
        refine Or.inr ⟨s, label, by simp only [hsel, if_true], h, ?_, le_rfl⟩
        intro a b hab ha hb
        have := hnone b a hab.symm
        rw [Bool.eq_false_iff, Ne, h.joinsGroup_iff hab.2.2.1 hab.2.1] at this
        exact this ⟨hb, ha⟩
      · obtain ⟨hlabel, hpartner⟩ := (h.joinsGroup_iff hk hlink.2.2.1).1 hjoins
        simp only [hsel, hk.ne, if_false]
        rcases h.joinGroup floats preserveTransforms hcount hk hlabel hlink hpartner with
          ⟨s', hs'⟩ | ⟨s', hs', hgrouped, hvisit⟩
        · rw [hs']
          exact Or.inl ⟨s', rfl⟩
        · rw [hs']
          rcases ih hgrouped (by omega) with herror | ⟨t, label', ht, hgrouped, hclosed, hle⟩
          · exact Or.inl herror
          · exact Or.inr ⟨t, label', ht, hgrouped, hclosed, by omega⟩

/-- **The outer loop ends** as well, when no capture without a group has a partner. -/
theorem growGroups_grouped (fuel : ℕ) (h : Grouped captureMatches count s label g)
    (hclosed : Components.Closed (Linked captureMatches count) label)
    (hfuel : s.visited.count false < fuel) :
    (∃ s', growGroups floats captureMatches count preserveTransforms fuel s = some (.error s')) ∨
      ∃ s' label' g', growGroups floats captureMatches count preserveTransforms fuel s =
          some (.ok s') ∧
        Grouped captureMatches count s' label' g' ∧
        Components.Closed (Linked captureMatches count) label' ∧
        ∀ {a b}, label' a = none → ¬Linked captureMatches count a b := by
  induction fuel generalizing s label g with
  | zero => exact absurd hfuel (Nat.not_lt_zero _)
  | succ fuel ih =>
      rw [growGroups]
      rcases nextCapture_cases (startsGroup s) hlength htotal with
        ⟨hsel, hnone⟩ | ⟨k, hsel, hk, j, hlink, hstarts⟩
      · refine Or.inr ⟨s, label, g, by simp only [hsel, if_true], h, hclosed, ?_⟩
        intro a b ha hab
        have := hnone a b hab
        rw [Bool.eq_false_iff, Ne, h.startsGroup_iff hab.2.1] at this
        exact this ha
      · have hlabel := (h.startsGroup_iff hk j).1 hstarts
        obtain ⟨hstarted, hvisit⟩ := h.startGroup floats hcount hclosed hk hlabel hlink
        simp only [hsel, hk.ne, if_false]
        rcases growGroup_grouped floats preserveTransforms hlength htotal hcount (fuel + 1) hstarted
          (by omega) with
          ⟨s', hs'⟩ | ⟨s', label', hs', hgrouped, hclosed', hle⟩
        · rw [hs']
          exact Or.inl ⟨s', rfl⟩
        · rw [hs']
          exact ih hgrouped hclosed' (by omega)

end Runs

/-! ### Components -/

/-- Groups are the connected components of captures with a partner, numbered from zero, each with a
root of its own. -/
structure ComponentGroups (captureMatches : List CaptureMatch) (count : ℕ) (groups : List ℤ)
    (roots : List UInt16) (groupCount : ℤ) : Prop where
  same : ∀ i < count, ∀ j < count,
    (0 ≤ groups.getD i (-1) ∧ groups.getD i (-1) = groups.getD j (-1)) ↔
      TransGen (Linked captureMatches count) i j
  alone : ∀ i < count, groups.getD i (-1) = -1 ↔ ∀ j, ¬Linked captureMatches count i j
  used : ∀ z, (∃ i < count, groups.getD i (-1) = z ∧ z ≠ -1) ↔ 0 ≤ z ∧ z < groupCount
  root : ∀ g : ℕ, (g : ℤ) < groupCount → (roots.getD g 0).toNat < count ∧
    groups.getD (roots.getD g 0).toNat (-1) = g

theorem groupNumber_nonneg {a : Option ℕ} (h : 0 ≤ groupNumber a) : ∃ g, a = some g := by
  cases a with
  | none => simp [groupNumber] at h
  | some g => exact ⟨g, rfl⟩

section Result

variable {F : Type} {captureMatches : List CaptureMatch} {count : ℕ}
  {s : GroupingState F} {label : ℕ → Option ℕ} {g : ℕ}

/-- What the loops leave behind. -/
theorem Grouped.components (h : Grouped captureMatches count s label g)
    (hclosed : Components.Closed (Linked captureMatches count) label)
    (halone : ∀ {a b}, label a = none → ¬Linked captureMatches count a b) :
    ComponentGroups captureMatches count s.groups s.roots g where
  same := by
    intro i hi j hj
    rw [h.groups i hi, h.groups j hj, ← h.grown.same_label_iff hclosed halone i j]
    constructor
    · rintro ⟨hpos, heq⟩
      obtain ⟨k, hk⟩ := groupNumber_nonneg hpos
      exact ⟨k, hk, groupNumber_inj heq ▸ hk⟩
    · rintro ⟨k, hik, hjk⟩
      rw [hik, hjk]
      exact ⟨Int.natCast_nonneg k, rfl⟩
  alone := by
    intro i hi
    rw [h.groups i hi, groupNumber_eq_neg_one]
    constructor
    · exact fun hnone j => halone hnone
    · intro hno
      cases hlabel : label i with
      | none => rfl
      | some k =>
          obtain ⟨j, hij, -⟩ := TransGen.head'_iff.1 (h.grown.joined hlabel hlabel)
          exact absurd hij (hno j)
  used := by
    intro z
    constructor
    · rintro ⟨i, hi, rfl, hz⟩
      rw [h.groups i hi] at hz ⊢
      obtain ⟨k, hk⟩ := Option.ne_none_iff_exists'.1 (mt groupNumber_eq_neg_one.2 hz)
      have := h.grown.lt hk
      rw [hk, groupNumber]
      omega
    · rintro ⟨hpos, hlt⟩
      obtain ⟨k, rfl⟩ := Int.eq_ofNat_of_zero_le hpos
      have hroot := h.roots k (by omega)
      refine ⟨(s.roots.getD k 0).toNat, h.lt hroot, ?_, by omega⟩
      rw [h.groups _ (h.lt hroot), hroot, groupNumber]
  root := by
    intro k hk
    have hroot := h.roots k (by omega)
    exact ⟨h.lt hroot, by rw [h.groups _ (h.lt hroot), hroot, groupNumber]⟩

/-- The lookup of the reference capture. -/
theorem followReference_cases (count : ℕ) (reference : ℤ) (groups : List ℤ) (roots : List UInt16) :
    ((List.range count).foldl (followReference reference groups) (-1, roots) = (-1, roots) ∧
        ∀ i < count, (i : ℤ) = reference → ¬0 ≤ groups.getD i (-1)) ∨
      ∃ i < count, (i : ℤ) = reference ∧ 0 ≤ groups.getD i (-1) ∧
        (List.range count).foldl (followReference reference groups) (-1, roots) =
          (groups.getD i (-1), roots.set (groups.getD i (-1)).toNat (UInt16.ofNat i)) := by
  refine Loops.foldl_range (fun n found =>
    (found = (-1, roots) ∧ ∀ i < n, (i : ℤ) = reference → ¬0 ≤ groups.getD i (-1)) ∨
      ∃ i < n, (i : ℤ) = reference ∧ 0 ≤ groups.getD i (-1) ∧
        found = (groups.getD i (-1), roots.set (groups.getD i (-1)).toNat (UInt16.ofNat i)))
    (Or.inl ⟨rfl, by simp⟩) ?_
  rintro n - found (⟨hfound, hnone⟩ | ⟨i, hi, hreference, hpos, hfound⟩)
  · rw [followReference, hfound]
    split_ifs with h
    · exact Or.inr ⟨n, Nat.lt_succ_self n, h.2.1, h.2.2, rfl⟩
    · refine Or.inl ⟨rfl, ?_⟩
      intro i hi
      rcases Nat.lt_succ_iff_lt_or_eq.1 hi with hi | rfl
      · exact hnone i hi
      · intro hreference hpos
        exact h ⟨rfl, hreference, hpos⟩
  · -- the loop has found the capture before
    have hdone : ¬(found.1 = -1 ∧ (n : ℤ) = reference ∧ 0 ≤ groups.getD n (-1)) := by
      rw [hfound]
      omega
    rw [followReference, if_neg hdone]
    exact Or.inr ⟨i, Nat.lt_succ_of_lt hi, hreference, hpos, hfound⟩

/-- Groups keep a root when one of their captures becomes it. -/
theorem ComponentGroups.set_root {groups : List ℤ} {roots : List UInt16} {groupCount : ℤ}
    (h : ComponentGroups captureMatches count groups roots groupCount) (hcount : count ≤ 32767)
    (hroots : groupCount ≤ roots.length) {i : ℕ} (hi : i < count) (hpos : 0 ≤ groups.getD i (-1)) :
    ComponentGroups captureMatches count groups
      (roots.set (groups.getD i (-1)).toNat (UInt16.ofNat i)) groupCount where
  same := h.same
  alone := h.alone
  used := h.used
  root := by
    intro g hg
    have hi16 : (UInt16.ofNat i).toNat = i := by
      rw [UInt16.toNat_ofNat']
      exact Nat.mod_eq_of_lt (by omega)
    have hlt : (groups.getD i (-1)).toNat < roots.length := by
      have := ((h.used _).1 ⟨i, hi, rfl, by omega⟩).2
      omega
    rw [Scans.getD_set hlt]
    by_cases hgi : g = (groups.getD i (-1)).toNat
    · rw [if_pos hgi, hi16]
      exact ⟨hi, by omega⟩
    · rw [if_neg hgi]
      exact h.root g hg

/-- **The selection is kept** by its reference capture, and the groups keep roots. -/
theorem keepSelection_kept (h : ComponentGroups captureMatches count s.groups s.roots g)
    (hcount : count ≤ 32767) (hroots : g ≤ s.roots.length) (grouping : CaptureGroupsState F) :
    ComponentGroups captureMatches count s.groups (keepSelection count s grouping).1 g ∧
      (keepSelection count s grouping).2.groupCount = grouping.groupCount ∧
      ∀ i < count, (i : ℤ) = grouping.referenceCapture → 0 ≤ s.groups.getD i (-1) →
        (keepSelection count s grouping).2.selectedGroup = s.groups.getD i (-1) ∧
        (keepSelection count s grouping).2.referenceCapture = i := by
  rw [keepSelection]
  rcases followReference_cases count grouping.referenceCapture s.groups s.roots with
    ⟨hfound, hnone⟩ | ⟨i, hi, hreference, hpos, hfound⟩
  · simp only [hfound, if_true]
    exact ⟨h, trivial, fun i hi hreference hpos => absurd hpos (hnone i hi hreference)⟩
  · have hne : s.groups.getD i (-1) ≠ -1 := by omega
    simp only [hfound, hne, if_false]
    refine ⟨h.set_root hcount (by omega) hi hpos, trivial, ?_⟩
    intro k hk hreference' hpos'
    obtain rfl : k = i := by omega
    exact ⟨rfl, hreference'.symm⟩

/-- Choosing groups does not change their number. -/
theorem chooseGroup_groupCount {floats : GroupFloats F} {minimumGroupSize : ℤ} {gs : List ℕ}
    {t t' : Selecting F}
    (h : gs.foldlM (chooseGroup floats count minimumGroupSize s) t = .ok t') :
    t'.grouping.groupCount = t.grouping.groupCount := by
  induction gs generalizing t with
  | nil =>
      cases h
      rfl
  | cons g gs ih =>
      rw [List.foldlM_cons] at h
      cases hstep : chooseGroup floats count minimumGroupSize s t g with
      | error e =>
          rw [hstep] at h
          cases h
      | ok u =>
          rw [hstep] at h
          have hu : u.grouping.groupCount = t.grouping.groupCount := by
            rw [chooseGroup] at hstep
            split_ifs at hstep
            · cases hbounds : floats.captureGroupBounds s.groups s.transforms g with
              | none =>
                  rw [hbounds] at hstep
                  cases hstep
              | some bounds =>
                  rw [hbounds] at hstep
                  cases hstep
                  rfl
            · cases hstep
              rfl
          exact (ih h).trans hu

end Result

/-- **Grouping ends**, and where it succeeds the groups are components and a selected group follows
its reference capture. -/
theorem rebuildCaptureGroups_ends {F : Type} (floats : GroupFloats F)
    (captureMatches : List CaptureMatch) (count : ℕ) (preserveTransforms allocated : Bool)
    (fuel : ℕ) (minimumGroupSize : ℤ) (groups : List ℤ) (roots : List UInt16)
    (transforms : List F) (grouping : CaptureGroupsState F) (flags : UInt32)
    (htotal : (captureMatches.map CaptureMatch.inliers).sum < 2 ^ 31)
    (hroots : count ≤ roots.length) (hfuel : count < fuel) :
    ∃ r, rebuildCaptureGroups floats captureMatches count preserveTransforms allocated fuel
        minimumGroupSize groups roots transforms grouping flags = some r ∧
      (r.status = 0 →
        ComponentGroups captureMatches count r.groups r.roots r.grouping.groupCount ∧
        (grouping.selectedGroup ≠ -1 → ∀ i < count, (i : ℤ) = grouping.referenceCapture →
          0 ≤ r.groups.getD i (-1) →
            r.grouping.selectedGroup = r.groups.getD i (-1) ∧
            r.grouping.referenceCapture = i)) := by
  rw [rebuildCaptureGroups]
  split_ifs with hguard
  · exact ⟨_, rfl, fun h => by simp at h⟩
  push Not at hguard
  obtain ⟨-, hcount, hlength, -⟩ := hguard
  rcases growGroups_grouped floats preserveTransforms hlength htotal hcount fuel
    (Grouped.empty captureMatches groups hroots transforms)
    (by intro a b _ ha; exact absurd rfl ha) (by simpa using hfuel) with
    ⟨s, hs⟩ | ⟨s, label, g, hs, hgrouped, hclosed, halone⟩
  · rw [hs]
    exact ⟨_, rfl, fun h => by simp at h⟩
  have hcomponents := hgrouped.components hclosed halone
  have hg : s.group + 1 = (g : ℤ) := by
    rw [hgrouped.group]
    omega
  rw [hs]
  simp only [hg]
  split_ifs with hselected
  · -- a group is chosen for the first time
    cases hchosen : (List.range (Int.toNat g)).foldlM (chooseGroup floats count minimumGroupSize s)
        ⟨{ grouping with groupCount := g }, flags⟩ with
    | error t => exact ⟨_, rfl, fun h => by simp at h⟩
    | ok t =>
        refine ⟨_, rfl, fun _ => ⟨?_, fun h => absurd hselected h⟩⟩
        rw [chooseGroup_groupCount hchosen]
        exact hcomponents
  · -- the group of the reference capture stays selected
    have hroom := hgrouped.room
    have hrootsLength := hgrouped.roots_length
    obtain ⟨hkept, hgroups, hfollows⟩ := keepSelection_kept hcomponents hcount (by omega)
      { grouping with groupCount := g }
    refine ⟨_, rfl, fun _ => ⟨?_, fun _ => hfollows⟩⟩
    rw [hgroups]
    exact hkept

/-- **Grouping computes connected components.**  It ends, and when it succeeds, two captures are in
one group exactly when a path of successful matches with inliers connects them, and in none when
they have no such match.  Groups are numbered without gaps, each has a root of its own, and a
selected group follows its reference capture. -/
theorem rebuildCaptureGroups_components {F : Type} (floats : GroupFloats F)
    (captureMatches : List CaptureMatch) (count : ℕ) (preserveTransforms allocated : Bool)
    (fuel : ℕ) (minimumGroupSize : ℤ) (groups : List ℤ) (roots : List UInt16)
    (transforms : List F) (grouping : CaptureGroupsState F) (flags : UInt32)
    (htotal : (captureMatches.map CaptureMatch.inliers).sum < 2 ^ 31)
    (hroots : count ≤ roots.length) (hfuel : count < fuel) :
    ∃ r, rebuildCaptureGroups floats captureMatches count preserveTransforms allocated fuel
        minimumGroupSize groups roots transforms grouping flags = some r ∧
      (r.status = 0 →
        ComponentGroups captureMatches count r.groups r.roots r.grouping.groupCount ∧
        (grouping.selectedGroup ≠ -1 → ∀ i < count, (i : ℤ) = grouping.referenceCapture →
          0 ≤ r.groups.getD i (-1) →
            r.grouping.selectedGroup = r.groups.getD i (-1) ∧
            r.grouping.referenceCapture = i)) :=
  rebuildCaptureGroups_ends floats captureMatches count preserveTransforms allocated fuel
    minimumGroupSize groups roots transforms grouping flags htotal hroots hfuel

/-- Captures that all lie where the first one does. -/
def stillFloats : GroupFloats ℚ where
  identity := #v[1, 0, 0, 0, 1, 0, 0, 0, 1]
  weightedGroupTransform _ _ _ := some #v[1, 0, 0, 0, 1, 0, 0, 0, 1]
  captureGroupBounds _ _ _ := some (0, 0, 112, 88)
  centre extent origin := extent / 2 + origin

/-- Three captures, of which the first and the last match. -/
def stillMatches : List CaptureMatch :=
  [⟨⟨16384, 0, 0, 0⟩, 0, 0⟩, ⟨⟨16384, 0, 0, 0⟩, 7, 1⟩, ⟨⟨16384, 0, 0, 0⟩, 5, 0⟩]

theorem rebuildCaptureGroups_components_three :
    ∃ r, rebuildCaptureGroups stillFloats stillMatches 3 false true 4 4 [2, 2, 2] [5, 5, 5]
        (List.replicate 27 0) ⟨1, 0, 2, 0, 0⟩ 0 = some r ∧ r.status = 0 ∧
      r.groups = [0, -1, 0] ∧ r.roots = [2, 5, 5] ∧ r.grouping.selectedGroup = 0 ∧
      ComponentGroups stillMatches 3 r.groups r.roots r.grouping.groupCount ∧
      ((0 : ℤ) ≠ -1 → ∀ i : ℕ, i < 3 → (i : ℤ) = 2 → 0 ≤ r.groups.getD i (-1) →
        r.grouping.selectedGroup = r.groups.getD i (-1) ∧ r.grouping.referenceCapture = i) := by
  have hcomputed : (rebuildCaptureGroups stillFloats stillMatches 3 false true 4 4 [2, 2, 2]
      [5, 5, 5] (List.replicate 27 0) ⟨1, 0, 2, 0, 0⟩ 0).map (fun r =>
        (r.status, r.groups, r.roots, r.grouping.selectedGroup)) =
      some (0, [0, -1, 0], [2, 5, 5], 0) := by decide
  obtain ⟨r, hr, hdone⟩ := rebuildCaptureGroups_components stillFloats stillMatches 3 false true 4
    4 [2, 2, 2] [5, 5, 5] (List.replicate 27 0) ⟨1, 0, 2, 0, 0⟩ 0 (by decide) (by decide)
    (by decide)
  rw [hr, Option.map_some, Option.some.injEq, Prod.mk.injEq, Prod.mk.injEq,
    Prod.mk.injEq] at hcomputed
  obtain ⟨hstatus, hgroups, hroots, hselected⟩ := hcomputed
  exact ⟨r, hr, hstatus, hgroups, hroots, hselected, hdone hstatus⟩

end Fpc
