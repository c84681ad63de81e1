/-
**The fairness of the spatial selection.**

The cells are visited in a fixed order, round after round, and each visit takes the head of the list
of a cell, or nothing when the list is used up.  After a number of visits every cell has been
visited once in each full round, and once more when its place in the order has been passed in the
last one: this says which prefix of the list of each cell has been taken.

Main definitions:

* `Fpc.visits` — how often a place in the order has been visited;
* `Fpc.cellOf`, `Fpc.cellMembers` — the cell of a position, and the positions of a cell by rank;
* `Fpc.VisitedUpTo` — what has been taken after some visits.

Main results:

* `Fpc.VisitedUpTo.selectNext` — one visit;
* `Fpc.selectLoop_visited` — the loop ends after some number of visits;
* `Fpc.VisitedUpTo.taken_le`, `Fpc.VisitedUpTo.nodup` — **the shares of the cells are even, and no
  position is taken twice**.
-/

import FpcReader.Native.FeatureBudget

set_option relaxedAutoImplicit false
set_option autoImplicit false

namespace Fpc

/-! ### Visits -/

/-- How often the place `p` in the order of cells has been visited after `t` visits. -/
def visits (t p : ℕ) : ℕ := t / 9 + if p < t % 9 then 1 else 0

theorem visits_succ (t : ℕ) {p : ℕ} (hp : p < 9) :
    visits (t + 1) p = visits t p + if p = t % 9 then 1 else 0 := by
  unfold visits
  split_ifs <;> omega

/-- Places are visited equally often, up to one visit. -/
theorem visits_le (t p q : ℕ) : visits t p ≤ visits t q + 1 := by
  unfold visits
  split_ifs <;> omega

section Visiting

variable {ranked : List RankedLocation} {cell : ℕ → ℕ} {cells : List ℕ} {next : List ℤ}
  {s : SpatialSelection} {taken : List ℕ} {t : ℕ}

/-- The positions of a cell, best rank first. -/
def cellMembers (cell : ℕ → ℕ) (count c : ℕ) : List ℕ :=
  (List.range count).filter fun i => cell i = c

/-- What has been taken after `t` visits: from every cell as many of its first positions as there
were visits to it, the rest being still in its list. -/
structure VisitedUpTo (ranked : List RankedLocation) (cell : ℕ → ℕ) (cells : List ℕ)
    (next : List ℤ) (t : ℕ) (s : SpatialSelection) (taken : List ℕ) : Prop where
  heads_length : s.heads.length = 9
  next_length : next.length = ranked.length
  cursor : s.cursor = t % 9
  chains : ∀ p < 9, IsChain next (s.heads.getD (cells.getD p 0) (-1))
    ((cellMembers cell ranked.length (cells.getD p 0)).drop (visits t p))
  shares : ∀ p < 9, (taken.filter fun i => cell i = cells.getD p 0) =
    (cellMembers cell ranked.length (cells.getD p 0)).take (visits t p)
  indices : s.indices.map some = taken.map fun i => ranked[i]?.map RankedLocation.index

/-- The cells stand at different places of the order. -/
theorem cells_inj (hcells : cells.Perm (List.range 9)) {p q : ℕ} (hp : p < 9) (hq : q < 9)
    (h : cells.getD p 0 = cells.getD q 0) : p = q := by
  have hlength : cells.length = 9 := hcells.length_eq
  have hnodup : cells.Nodup := hcells.nodup_iff.2 List.nodup_range
  rw [List.getD_eq_getElem _ _ (by omega), List.getD_eq_getElem _ _ (by omega)] at h
  exact (hnodup.getElem_inj_iff).1 h

theorem exists_place (hcells : cells.Perm (List.range 9)) {c : ℕ} (hc : c < 9) :
    ∃ p < 9, cells.getD p 0 = c := by
  obtain ⟨p, hp, rfl⟩ := List.mem_iff_getElem.1 (hcells.mem_iff.2 (List.mem_range.2 hc))
  have hlength : cells.length = 9 := hcells.length_eq
  exact ⟨p, by omega, List.getD_eq_getElem _ _ hp⟩

theorem visits_here (t : ℕ) : visits (t + 1) (t % 9) = visits t (t % 9) + 1 := by
  rw [visits_succ t (Nat.mod_lt _ (by decide)), if_pos rfl]

/-- A visit leaves the other cells alone. -/
theorem visits_other (hcells : cells.Perm (List.range 9)) {p : ℕ} (hp : p < 9) (hne : p ≠ t % 9) :
    visits (t + 1) p = visits t p ∧ cells.getD p 0 ≠ cells.getD (t % 9) 0 := by
  refine ⟨by rw [visits_succ t hp, if_neg hne, Nat.add_zero], ?_⟩
  intro heq
  exact hne (cells_inj hcells hp (Nat.mod_lt _ (by decide)) heq)

/-- A visit to a cell that is used up. -/
theorem VisitedUpTo.skip (h : VisitedUpTo ranked cell cells next t s taken)
    (hcells : cells.Perm (List.range 9))
    (hrest : (cellMembers cell ranked.length (cells.getD (t % 9) 0)).drop (visits t (t % 9)) = []) :
    VisitedUpTo ranked cell cells next (t + 1) { s with cursor := (s.cursor + 1) % 9 } taken := by
  have hp : t % 9 < 9 := Nat.mod_lt _ (by decide)
  have hcursor : (s.cursor + 1) % 9 = (t + 1) % 9 := by
    rw [h.cursor]
    omega
  have hall := List.drop_eq_nil_iff.1 hrest
  refine ⟨h.heads_length, h.next_length, hcursor, ?_, ?_, h.indices⟩
  · intro p hp9
    by_cases hpt : p = t % 9
    · have hchain := h.chains (t % 9) hp
      rw [hrest] at hchain
      rw [hpt, visits_here, List.drop_eq_nil_of_le (by omega)]
      exact hchain
    · rw [(visits_other hcells hp9 hpt).1]
      exact h.chains p hp9
  · intro p hp9
    by_cases hpt : p = t % 9
    · rw [hpt, visits_here, List.take_of_length_le (by omega), h.shares (t % 9) hp,
        List.take_of_length_le hall]
    · rw [(visits_other hcells hp9 hpt).1]
      exact h.shares p hp9

/-- A visit to a cell that has a position left. -/
theorem VisitedUpTo.take (h : VisitedUpTo ranked cell cells next t s taken)
    (hcells : cells.Perm (List.range 9)) {i : ℕ} {l : List ℕ} {location : RankedLocation}
    {after : ℤ}
    (hrest : (cellMembers cell ranked.length (cells.getD (t % 9) 0)).drop (visits t (t % 9)) =
      i :: l) (hlocation : ranked[i]? = some location) (hafter : IsChain next after l) :
    VisitedUpTo ranked cell cells next (t + 1)
      ⟨s.heads.set (cells.getD (t % 9) 0) after, (s.cursor + 1) % 9, s.indices ++ [location.index]⟩
      (taken ++ [i]) := by
  have hp : t % 9 < 9 := Nat.mod_lt _ (by decide)
  have hcursor : (s.cursor + 1) % 9 = (t + 1) % 9 := by
    rw [h.cursor]
    omega
  set c := cells.getD (t % 9) 0 with hc
  have hmem : i ∈ cellMembers cell ranked.length c := by
    refine List.mem_of_mem_drop (i := visits t (t % 9)) ?_
    rw [hrest]
    exact List.mem_cons_self
  have hcell : cell i = c := by
    rw [cellMembers, List.mem_filter, decide_eq_true_eq] at hmem
    exact hmem.2
  have hdrop : (cellMembers cell ranked.length c).drop (visits t (t % 9) + 1) = l := by
    rw [← List.drop_drop, hrest, List.drop_one, List.tail_cons]
  have htake : (cellMembers cell ranked.length c).take (visits t (t % 9) + 1) =
      (cellMembers cell ranked.length c).take (visits t (t % 9)) ++ [i] := by
    rw [List.take_add, hrest, List.take_one, List.head?_cons]
    rfl
  refine ⟨by simp [h.heads_length], h.next_length, hcursor, ?_, ?_, ?_⟩
  · intro p hp9
    simp only
    rw [Scans.getD_set (by rw [h.heads_length]; exact cells_lt hcells hp)]
    by_cases hpt : p = t % 9
    · rw [hpt, ← hc, if_pos rfl, visits_here, hdrop]
      exact hafter
    · rw [if_neg (visits_other hcells hp9 hpt).2, (visits_other hcells hp9 hpt).1]
      exact h.chains p hp9
  · intro p hp9
    rw [List.filter_append]
    by_cases hpt : p = t % 9
    · rw [hpt, ← hc, visits_here, htake, ← h.shares (t % 9) hp, ← hc]
      simp [hcell]
    · rw [(visits_other hcells hp9 hpt).1, ← h.shares p hp9]
      have hne : cell i ≠ cells.getD p 0 := by
        rw [hcell]
        exact (visits_other hcells hp9 hpt).2.symm
      rw [List.filter_cons_of_neg (by simpa using hne), List.filter_nil, List.append_nil]
  · rw [List.map_append, List.map_append, h.indices]
    simp [hlocation]

/-- **One visit.** -/
theorem VisitedUpTo.selectNext (h : VisitedUpTo ranked cell cells next t s taken)
    (hcells : cells.Perm (List.range 9)) {s' : SpatialSelection}
    (hnext : Fpc.selectNext ranked cells next s = some s') :
    ∃ taken', VisitedUpTo ranked cell cells next (t + 1) s' taken' := by
  have hchain := h.chains (t % 9) (Nat.mod_lt _ (by decide))
  cases hrest : (cellMembers cell ranked.length (cells.getD (t % 9) 0)).drop
      (visits t (t % 9)) with
  | nil =>
      rw [hrest, ← h.cursor] at hchain
      obtain rfl := Option.some.inj ((selectNext_nil hchain).symm.trans hnext)
      exact ⟨taken, h.skip hcells hrest⟩
  | cons i l =>
      rw [hrest, ← h.cursor] at hchain
      obtain ⟨location, hlocation, hs, hafter⟩ := selectNext_cons h.next_length hchain
      obtain rfl := Option.some.inj (hs.symm.trans hnext)
      have hvisit := h.take hcells hrest hlocation hafter
      rw [← h.cursor] at hvisit
      exact ⟨taken ++ [i], hvisit⟩

/-- **The loop ends after some number of visits.** -/
theorem selectLoop_visited {fuel wanted : ℕ} {indices : List ℕ}
    (h : VisitedUpTo ranked cell cells next t s taken) (hcells : cells.Perm (List.range 9))
    (hrun : selectLoop ranked cells next wanted fuel s = .ok indices) :
    ∃ t' s' taken', VisitedUpTo ranked cell cells next t' s' taken' ∧ s'.indices = indices := by
  induction fuel generalizing t s taken with
  | zero => cases hrun
  | succ fuel ih =>
      rw [selectLoop] at hrun
      split_ifs at hrun with hmore
      · cases hnext : Fpc.selectNext ranked cells next s with
        | none =>
            rw [hnext] at hrun
            cases hrun
        | some s' =>
            rw [hnext] at hrun
            obtain ⟨taken', h'⟩ := h.selectNext hcells hnext
            exact ih h' hrun
      · exact ⟨t, s, taken, h, Except.ok.inj hrun⟩

/-- The loop is not a call that is refused. -/
theorem selectLoop_ne_refused (ranked : List RankedLocation) (cells : List ℕ) (next : List ℤ)
    (wanted fuel : ℕ) (s : SpatialSelection) :
    selectLoop ranked cells next wanted fuel s ≠ .error .refused := by
  induction fuel generalizing s with
  | zero => simp [selectLoop]
  | succ fuel ih =>
      rw [selectLoop]
      split_ifs
      · cases Fpc.selectNext ranked cells next s with
        | none => simp
        | some s' => exact ih s'
      · simp

theorem VisitedUpTo.share_length (h : VisitedUpTo ranked cell cells next t s taken) {p : ℕ}
    (hp : p < 9) : (taken.filter fun i => cell i = cells.getD p 0).length =
      min (visits t p) (cellMembers cell ranked.length (cells.getD p 0)).length := by
  rw [h.shares p hp, List.length_take]

/-- **The shares of the cells are even**: one that is smaller by more than one is a whole cell. -/
theorem VisitedUpTo.taken_le (h : VisitedUpTo ranked cell cells next t s taken)
    (hcells : cells.Perm (List.range 9)) {c d : ℕ} (hc : c < 9) (hd : d < 9)
    (hless : (taken.filter fun i => cell i = c).length + 1 <
      (taken.filter fun i => cell i = d).length) :
    (taken.filter fun i => cell i = c).length = (cellMembers cell ranked.length c).length := by
  obtain ⟨p, hp, rfl⟩ := exists_place hcells hc
  obtain ⟨q, hq, rfl⟩ := exists_place hcells hd
  have hsmall := h.share_length hp
  have hlarge := h.share_length hq
  have hvisits := visits_le t q p
  omega

/-- From every cell its first positions have been taken. -/
theorem VisitedUpTo.share (h : VisitedUpTo ranked cell cells next t s taken)
    (hcells : cells.Perm (List.range 9)) {c : ℕ} (hc : c < 9) :
    (taken.filter fun i => cell i = c) = (cellMembers cell ranked.length c).take
      (taken.filter fun i => cell i = c).length := by
  obtain ⟨p, hp, rfl⟩ := exists_place hcells hc
  rw [h.share_length hp, h.shares p hp, ← List.take_eq_take_min]

/-- No position is taken twice. -/
theorem VisitedUpTo.nodup (h : VisitedUpTo ranked cell cells next t s taken)
    (hcells : cells.Perm (List.range 9)) (hcell : ∀ i, cell i < 9) : taken.Nodup := by
  rw [List.nodup_iff_count_le_one]
  intro i
  have hfilter : (taken.filter fun j => cell j = cell i).count i = taken.count i :=
    List.count_filter (by simp)
  rw [← hfilter]
  refine List.nodup_iff_count_le_one.1 ?_ i
  rw [h.share hcells (hcell i)]
  exact (List.nodup_range.filter _).take

end Visiting

/-! ### The selection -/

section Fairness

variable {S : Type} (floats : FeatureFloats S) (ranked : List RankedLocation)
  (xmin ymin xmax ymax : ℤ)

/-- The cell of a position in the ranking. -/
def cellOf (i : ℕ) : ℕ := (ranked[i]?.map (locationCell floats xmin ymin xmax ymax)).getD 0

theorem cellOf_lt (i : ℕ) : cellOf floats ranked xmin ymin xmax ymax i < 9 :=
  rankCell_lt floats ranked xmin ymin xmax ymax i

/-- Before the first visit nothing has been taken. -/
theorem visitedUpTo_zero : VisitedUpTo ranked (cellOf floats ranked xmin ymin xmax ymax)
    shuffleCells
    (linkLocations (cellOf floats ranked xmin ymin xmax ymax) ranked.length).next 0
    ⟨(linkLocations (cellOf floats ranked xmin ymin xmax ymax) ranked.length).heads, 0, []⟩ [] := by
  obtain ⟨hheads, hnext, hchains⟩ := linkLocations_chains
    (cellOf_lt floats ranked xmin ymin xmax ymax) ranked.length
  refine ⟨hheads, hnext, rfl, ?_, fun p _ => rfl, rfl⟩
  intro p hp
  exact hchains _ (cells_lt shuffleCells_perm hp)

/-- **The spatial selection is fair.**  It ends with the indices of as many different positions of
the ranking as were wanted; from each of the nine cells it takes exactly the first ones by rank; and
the number taken from a cell falls short of that of another by more than one only when the cell is
used up. -/
theorem selectSpatialFeatures_fair (wanted : ℕ) (hranked : 1 ≤ ranked.length)
    (hcount : ranked.length ≤ 2048) (hwanted : wanted ≤ ranked.length) (hx : xmin ≤ xmax)
    (hy : ymin ≤ ymax) :
    ∃ indices taken : List ℕ,
      selectSpatialFeatures floats ranked xmin ymin xmax ymax true wanted = .ok indices ∧
      taken.length = wanted ∧ taken.Nodup ∧
      indices.map some = taken.map (fun i => ranked[i]?.map RankedLocation.index) ∧
      (∀ c < 9, (taken.filter fun i => cellOf floats ranked xmin ymin xmax ymax i = c) =
        (cellMembers (cellOf floats ranked xmin ymin xmax ymax) ranked.length c).take
          (taken.filter fun i => cellOf floats ranked xmin ymin xmax ymax i = c).length) ∧
      ∀ c < 9, ∀ d < 9,
        (taken.filter fun i => cellOf floats ranked xmin ymin xmax ymax i = c).length + 1 <
          (taken.filter fun i => cellOf floats ranked xmin ymin xmax ymax i = d).length →
        (taken.filter fun i => cellOf floats ranked xmin ymin xmax ymax i = c).length =
          (cellMembers (cellOf floats ranked xmin ymin xmax ymax) ranked.length c).length := by
  have hguard : ¬(ranked.length = 0 ∨ 2048 < ranked.length ∨ ranked.length < wanted ∨
      xmax < xmin ∨ ymax < ymin ∨ (!true) = true) := by
    simp only [Bool.not_true, Bool.false_eq_true, or_false]
    omega
  rcases selectSpatialFeatures_selected floats ranked xmin ymin xmax ymax true wanted with
    hrefused | ⟨indices, chosen, hok, hlength, -, -⟩
  · -- the loop does not refuse
    rw [selectSpatialFeatures, if_neg hguard] at hrefused
    exact absurd hrefused (selectLoop_ne_refused _ _ _ _ _ _)
  have hrun := hok
  rw [selectSpatialFeatures, if_neg hguard] at hrun
  obtain ⟨t, s, taken, hvisited, hindices⟩ := selectLoop_visited
    (visitedUpTo_zero floats ranked xmin ymin xmax ymax) shuffleCells_perm hrun
  have htaken := congrArg List.length hvisited.indices
  rw [List.length_map, List.length_map, hindices, hlength] at htaken
  refine ⟨indices, taken, hok, htaken.symm,
    hvisited.nodup shuffleCells_perm (cellOf_lt floats ranked xmin ymin xmax ymax),
    hindices ▸ hvisited.indices, ?_, ?_⟩
  · intro c hc
    exact hvisited.share shuffleCells_perm hc
  · intro c hc d hd hless
    exact hvisited.taken_le shuffleCells_perm hc hd hless

end Fairness

/-- Two features of the first cell and one of the last, two of which are wanted. -/
theorem selectSpatialFeatures_fair_three :
    ∃ indices taken : List ℕ,
      selectSpatialFeatures (⟨fun _ _ => true, fun distance extent => distance * 3 / extent,
        fun _ _ _ => 0⟩ : FeatureFloats Unit) [⟨7, 0, 0⟩, ⟨8, 1, 1⟩, ⟨9, 8, 8⟩] 0 0 8 8 true 2 =
        .ok indices ∧ taken.length = 2 ∧ taken.Nodup ∧
      indices.map some = taken.map
        (fun i => ([⟨7, 0, 0⟩, ⟨8, 1, 1⟩, ⟨9, 8, 8⟩] : List RankedLocation)[i]?.map
          RankedLocation.index) := by
  obtain ⟨indices, taken, hok, hlength, hnodup, hindices, -⟩ := selectSpatialFeatures_fair
    (⟨fun _ _ => true, fun distance extent => distance * 3 / extent, fun _ _ _ => 0⟩ :
      FeatureFloats Unit) [⟨7, 0, 0⟩, ⟨8, 1, 1⟩, ⟨9, 8, 8⟩] 0 0 8 8 2 (by decide) (by decide)
    (by decide) (by decide) (by decide)
  exact ⟨indices, taken, hok, hlength, hnodup, hindices⟩

end Fpc
