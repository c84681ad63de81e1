/-
**The feature budget.**

Of the features that are detected on one or two levels no more than a budget are kept.  Every level
has a quota; a level above its quota is ranked by score, its features are spread over nine cells of
the image, and the cells give up their best features in turn until the quota is filled.

Floating-point work is left opaque: comparing scores, placing a feature in the image and finding its
cell.  A value that is not a number is one that does not compare with itself.

Main definitions:

* `Fpc.sortFeatureScores` — ranking;
* `Fpc.linkLocations`, `Fpc.shuffleCells`, `Fpc.selectSpatialFeatures` — the lists of the cells, the
  order of the cells and the selection;
* `Fpc.limitFeatureBudget` — quotas and levels;
* `Fpc.extractProfile300Prepared` — the stages of extraction.

Main results:

* `Fpc.fpcSortFeatureScores_perm`, `Fpc.fpcSortFeatureScores_sorted` — a ranking is a permutation,
  best first;
* `Fpc.selectSpatialFeatures_selected` — the selection ends, with different features;
* `Fpc.limitFeatureBudget_kept`, `Fpc.limitFeatureBudget_budget` — **what is kept of each level**;
* `Fpc.extractProfile300Prepared_le` — an extraction has at most three hundred features.
-/

import FpcReader.Lib.Loops
import FpcReader.Lib.Quicksort
import Mathlib.Algebra.BigOperators.Group.Finset.Basic
import Mathlib.Data.List.Nodup

set_option relaxedAutoImplicit false
set_option autoImplicit false

namespace Fpc

/-! ### Ranking -/

/-- A call is refused; or its loops have not come to an end, or an index has left its array. -/
inductive BudgetFault
  | refused
  | unfinished
  | outOfBounds
  deriving DecidableEq, Repr

structure Keypoint (S : Type) where
  x : UInt8
  y : UInt8
  reserved : UInt16
  score : S
  deriving DecidableEq, Repr

structure RankedScore (S : Type) where
  index : ℕ
  score : S

structure RankedLocation where
  index : ℕ
  x : ℤ
  y : ℤ

structure FeatureLevel where
  count : ℕ
  scaleX : ℤ
  scaleY : ℤ
  offsetX : ℤ
  offsetY : ℤ

/-- The floating-point work. -/
structure FeatureFloats (S : Type) where
  /-- `a <= b` -/
  le : S → S → Bool
  /-- `(int32_t)(((float)distance*3.0f)/(float)extent)` -/
  third : ℤ → ℤ → ℤ
  /-- A coordinate of a feature in the image, from the scale and the offset of its level. -/
  project : UInt8 → ℤ → ℤ → ℤ

section Ranking

variable {S : Type} (le : S → S → Bool)

/-- Scores are sorted from best to worst, by quicksort. -/
def sortFeatureScores (fuel : ℕ) (records : List (RankedScore S)) :
    Option (List (RankedScore S)) :=
  Quicksort.sort (fun a b => le a.score b.score) fuel records

/-- The guard of the sort: the loop would have no end for a value that is not a number. -/
def fpcSortFeatureScores (records : List (RankedScore S)) :
    Except BudgetFault (List (RankedScore S)) :=
  if 2048 < records.length ∨ records.any (fun r => !le r.score r.score) then .error .refused
  else
    match sortFeatureScores le (records.length + 1) records with
    | none => .error .unfinished
    | some sorted => .ok sorted

theorem fpcSortFeatureScores_perm (records : List (RankedScore S)) :
    fpcSortFeatureScores le records = .error .refused ∨
      ∃ sorted, fpcSortFeatureScores le records = .ok sorted ∧ sorted.Perm records := by
  rw [fpcSortFeatureScores]
  by_cases h : 2048 < records.length ∨ records.any (fun r => !le r.score r.score)
  · exact Or.inl (if_pos h)
  · have hrefl : ∀ r ∈ records, le r.score r.score = true := by
      intro r hr
      by_contra hne
      refine h (Or.inr (List.any_eq_true.2 ⟨r, hr, ?_⟩))
      simpa using hne
    obtain ⟨sorted, hsorted, hperm⟩ := Quicksort.sort_perm
      (fun a b => le a.score b.score) hrefl (Nat.lt_succ_self records.length)
    rw [if_neg h, sortFeatureScores, hsorted]
    exact Or.inr ⟨sorted, rfl, hperm⟩

/-- **Ranking** puts the best score first, when the scores are in a linear order. -/
theorem fpcSortFeatureScores_sorted {le : S → S → Bool} {P : S → Prop}
    (htotal : ∀ a b, P a → P b → le a b = false → le b a = true)
    (htrans : ∀ a b c, P a → P b → P c → le a b = true → le b c = true → le a c = true)
    {records sorted : List (RankedScore S)} (hrecords : ∀ r ∈ records, P r.score)
    (h : fpcSortFeatureScores le records = .ok sorted) :
    sorted.Pairwise fun a b => le b.score a.score = true := by
  rw [fpcSortFeatureScores] at h
  split_ifs at h
  cases hsort : sortFeatureScores le (records.length + 1) records with
  | none =>
      rw [hsort] at h
      cases h
  | some result =>
      rw [hsort] at h
      obtain rfl := Except.ok.inj h
      exact Quicksort.sort_sorted (P := fun r : RankedScore S => P r.score)
        (fun a b => htotal a.score b.score) (fun a b c => htrans a.score b.score c.score) hrecords
        (Nat.lt_succ_self records.length) hsort

end Ranking

/-! ### Spatial selection -/

/-- The heads of the nine lists and the links of all features; `-1` ends a list. -/
structure CellLists where
  heads : List ℤ
  next : List ℤ

/-- A third of the image, from a quotient that may have left it. -/
def clampThird (third : ℤ) : ℕ := (if 2 < third then 2 else if third < 0 then 0 else third).toNat

section Selection

variable {S : Type} (floats : FeatureFloats S) (ranked : List RankedLocation)
  (xmin ymin xmax ymax : ℤ)

/-- The cell of a feature. -/
def locationCell (location : RankedLocation) : ℕ :=
  clampThird (floats.third (location.x - xmin) (xmax - xmin + 1)) +
    3 * clampThird (floats.third (location.y - ymin) (ymax - ymin + 1))

/-- Feature `i` becomes the head of the list of its cell. -/
def linkLocation (cell : ℕ → ℕ) (lists : CellLists) (i : ℕ) : CellLists where
  next := lists.next.set i (lists.heads.getD (cell i) (-1))
  heads := lists.heads.set (cell i) i

/-- All features are linked, the last one first. -/
def linkLocations (cell : ℕ → ℕ) (count : ℕ) : CellLists :=
  -- the links need no first value: each is written before it is followed
  (List.range count).reverse.foldl (linkLocation cell)
    ⟨List.replicate 9 (-1), List.replicate count 0⟩

/-- The generator: multiply with carry. -/
def nextRandom (state : UInt64) : UInt64 :=
  (4164903690 : UInt64) * state.toUInt32.toUInt64 + (state >>> 32)

/-- Two cells chosen by the generator change places. -/
def shuffleStep (s : UInt64 × List ℕ) (_ : ℕ) : UInt64 × List ℕ :=
  let a := nextRandom s.1
  let b := nextRandom a
  (b, Quicksort.swap s.2 (a.toUInt32.toNat % 9) (b.toUInt32.toNat % 9))

/-- The order in which the cells are visited. -/
def shuffleCells : List ℕ :=
  ((List.range 90).foldl shuffleStep (0xffffffff, List.range 9)).2

/-- The heads of the lists, the place in the order of cells and what has been chosen. -/
structure SpatialSelection where
  heads : List ℤ
  cursor : ℕ
  indices : List ℕ

/-- One cell gives up the head of its list. -/
def selectNext (cells : List ℕ) (next : List ℤ) (s : SpatialSelection) : Option SpatialSelection :=
  let cell := cells.getD s.cursor 0
  let cursor := (s.cursor + 1) % 9
  let head := s.heads.getD cell (-1)
  if 0 ≤ head then
    ranked[head.toNat]?.bind fun location =>
      next[head.toNat]?.map fun after =>
        ⟨s.heads.set cell after, cursor, s.indices ++ [location.index]⟩
  -- the list of this cell is used up
  else some { s with cursor }

/-- Cells are visited until enough is chosen. -/
def selectLoop (cells : List ℕ) (next : List ℤ) (wanted : ℕ) :
    ℕ → SpatialSelection → Except BudgetFault (List ℕ)
  | 0, _ => .error .unfinished
  | fuel + 1, s =>
      if s.indices.length < wanted then
        match selectNext ranked cells next s with
        | none => .error .outOfBounds
        | some s => selectLoop cells next wanted fuel s
      else .ok s.indices

/-- The spatial selection; `allocated` says whether its buffer could be had. -/
def selectSpatialFeatures (allocated : Bool) (wanted : ℕ) : Except BudgetFault (List ℕ) :=
  if ranked.length = 0 ∨ 2048 < ranked.length ∨ ranked.length < wanted ∨ xmax < xmin ∨
      ymax < ymin ∨ !allocated then .error .refused
  else
    let cell := fun i => (ranked[i]?.map (locationCell floats xmin ymin xmax ymax)).getD 0
    let lists := linkLocations cell ranked.length
    selectLoop ranked shuffleCells lists.next wanted (9 * wanted + 9) ⟨lists.heads, 0, []⟩

end Selection

/-! ### The lists of the cells -/

/-- The list that starts at `head` is this one. -/
def IsChain (next : List ℤ) : ℤ → List ℕ → Prop
  | head, [] => head = -1
  | head, i :: rest => head = i ∧ i < next.length ∧ IsChain next (next.getD i (-1)) rest

/-- A list does not change when the link of another feature does. -/
theorem IsChain.set {next : List ℤ} {head : ℤ} {chain : List ℕ} {i : ℕ}
    (h : IsChain next head chain) (hi : i ∉ chain) (v : ℤ) :
    IsChain (next.set i v) head chain := by
  induction chain generalizing head with
  | nil => exact h
  | cons k chain ih =>
      obtain ⟨hhead, hk, hrest⟩ := h
      rw [List.mem_cons, not_or] at hi
      refine ⟨hhead, by rwa [List.length_set], ?_⟩
      have hsame : (next.set i v).getD k (-1) = next.getD k (-1) := by
        rw [List.getD_eq_getElem?_getD, List.getElem?_set_ne hi.1, ← List.getD_eq_getElem?_getD]
      rw [hsame]
      exact ih hrest hi.2

/-- **Linking** puts every feature in the list of its cell, in the order of their ranks. -/
theorem linkLocation_chains {cell : ℕ → ℕ} (hcell : ∀ i, cell i < 9) {count : ℕ} {l : List ℕ}
    (hnodup : l.Nodup) (hlt : ∀ i ∈ l, i < count) :
    (l.foldr (fun i lists => linkLocation cell lists i)
      ⟨List.replicate 9 (-1), List.replicate count 0⟩).heads.length = 9 ∧
    (l.foldr (fun i lists => linkLocation cell lists i)
      ⟨List.replicate 9 (-1), List.replicate count 0⟩).next.length = count ∧
    ∀ c < 9, IsChain
      (l.foldr (fun i lists => linkLocation cell lists i)
        ⟨List.replicate 9 (-1), List.replicate count 0⟩).next
      ((l.foldr (fun i lists => linkLocation cell lists i)
        ⟨List.replicate 9 (-1), List.replicate count 0⟩).heads.getD c (-1))
      (l.filter fun i => cell i = c) := by
  induction l with
  | nil =>
      refine ⟨by simp, by simp, ?_⟩
      intro c hc
      rw [List.foldr_nil, List.getD_replicate _ hc]
      rfl
  | cons i l ih =>
      rw [List.nodup_cons] at hnodup
      obtain ⟨hheads, hnext, hchains⟩ := ih hnodup.2 fun k hk => hlt k (List.mem_cons_of_mem i hk)
      rw [List.foldr_cons]
      set lists := l.foldr (fun i lists => linkLocation cell lists i)
        ⟨List.replicate 9 (-1), List.replicate count 0⟩ with hlists
      have hi : i < count := hlt i List.mem_cons_self
      refine ⟨by simp [linkLocation, hheads], by simp [linkLocation, hnext], ?_⟩
      intro c hc
      have hout : ∀ c, i ∉ l.filter fun i => cell i = c := by
        intro c hmem
        exact hnodup.1 (List.mem_of_mem_filter hmem)
      rw [linkLocation]
      simp only
      rw [Scans.getD_set (by rw [hheads]; exact hcell i)]
      by_cases hic : cell i = c
      · -- the feature becomes the head of this list
        rw [if_pos hic.symm, List.filter_cons_of_pos (by simpa using hic)]
        refine ⟨rfl, by rwa [List.length_set, hnext], ?_⟩
        rw [Scans.getD_set (by rwa [hnext]), if_pos rfl, hic]
        exact (hchains c hc).set (hout c) _
      · rw [if_neg (Ne.symm hic), List.filter_cons_of_neg (by simpa using hic)]
        exact (hchains c hc).set (hout c) _

theorem linkLocations_chains {cell : ℕ → ℕ} (hcell : ∀ i, cell i < 9) (count : ℕ) :
    (linkLocations cell count).heads.length = 9 ∧ (linkLocations cell count).next.length = count ∧
      ∀ c < 9, IsChain (linkLocations cell count).next
        ((linkLocations cell count).heads.getD c (-1))
        ((List.range count).filter fun i => cell i = c) := by
  rw [linkLocations, List.foldl_reverse]
  exact linkLocation_chains hcell List.nodup_range fun i hi => List.mem_range.1 hi

/-! ### Taking from the cells -/

/-- The order of the cells has every cell. -/
theorem shuffleCells_perm : shuffleCells.Perm (List.range 9) := by
  refine Loops.foldl_range (fun _ (s : UInt64 × List ℕ) => s.2.Perm (List.range 9))
    (List.Perm.refl _) ?_
  intro k _ s hs
  exact (Quicksort.swap_perm _ _ _).trans hs

/-- All lists together, after one of them has lost its head. -/
theorem flatMap_update_perm {cells : List ℕ} (hcells : cells.Nodup) {c : ℕ} (hc : c ∈ cells)
    {rest : ℕ → List ℕ} {i : ℕ} {l : List ℕ} (h : rest c = i :: l) :
    (cells.flatMap rest).Perm (i :: cells.flatMap (Function.update rest c l)) := by
  induction cells with
  | nil => cases hc
  | cons d cells ih =>
      rw [List.nodup_cons] at hcells
      rw [List.flatMap_cons, List.flatMap_cons]
      by_cases hdc : d = c
      · subst hdc
        have hsame : cells.flatMap (Function.update rest d l) = cells.flatMap rest := by
          refine List.flatMap_congr ?_
          intro e he
          have hne : e ≠ d := by
            rintro rfl
            exact hcells.1 he
          exact Function.update_of_ne hne _ _
        rw [h, Function.update_self, hsame, List.cons_append]
      · rcases List.mem_cons.1 hc with hcd | hc
        · exact absurd hcd.symm hdc
        rw [Function.update_of_ne hdc]
        exact ((List.Perm.refl _).append (ih hcells.2 hc)).trans List.perm_middle

/-- While features are selected: `taken` are those that have been, `rest` the lists left. -/
structure SelectionUpTo (ranked : List RankedLocation) (next : List ℤ) (s : SpatialSelection)
    (taken : List ℕ) (rest : ℕ → List ℕ) : Prop where
  heads_length : s.heads.length = 9
  next_length : next.length = ranked.length
  cursor : s.cursor < 9
  chains : ∀ c < 9, IsChain next (s.heads.getD c (-1)) (rest c)
  all : (taken ++ (List.range 9).flatMap rest).Perm (List.range ranked.length)
  indices : s.indices.map some = taken.map fun i => ranked[i]?.map RankedLocation.index

section Taking

variable {ranked : List RankedLocation} {next : List ℤ} {s : SpatialSelection} {taken : List ℕ}
  {rest : ℕ → List ℕ} {cells : List ℕ}

/-- A visit to a cell whose list is used up. -/
theorem selectNext_nil (hchain : IsChain next (s.heads.getD (cells.getD s.cursor 0) (-1)) []) :
    Fpc.selectNext ranked cells next s = some { s with cursor := (s.cursor + 1) % 9 } := by
  have hneg : ¬0 ≤ s.heads.getD (cells.getD s.cursor 0) (-1) := by
    rw [hchain]
    decide
  rw [Fpc.selectNext]
  exact if_neg hneg

/-- A visit to a cell takes the head of its list. -/
theorem selectNext_cons {i : ℕ} {l : List ℕ} (hlength : next.length = ranked.length)
    (hchain : IsChain next (s.heads.getD (cells.getD s.cursor 0) (-1)) (i :: l)) :
    ∃ location, ranked[i]? = some location ∧
      Fpc.selectNext ranked cells next s =
        some ⟨s.heads.set (cells.getD s.cursor 0) (next.getD i (-1)), (s.cursor + 1) % 9,
          s.indices ++ [location.index]⟩ ∧
      IsChain next (next.getD i (-1)) l := by
  obtain ⟨hhead, hi, hafter⟩ := hchain
  have hranked : i < ranked.length := hlength ▸ hi
  have hpos : (0 : ℤ) ≤ i := Int.natCast_nonneg i
  refine ⟨ranked[i], List.getElem?_eq_getElem hranked, ?_, hafter⟩
  rw [Fpc.selectNext]
  simp only [hhead]
  rw [if_pos hpos, Int.toNat_natCast, List.getElem?_eq_getElem hranked, Option.bind_some,
    List.getElem?_eq_getElem hi, Option.map_some, List.getD_eq_getElem _ _ hi]

theorem cells_lt (hcells : cells.Perm (List.range 9)) {p : ℕ} (hp : p < 9) :
    cells.getD p 0 < 9 := by
  have hlength : cells.length = 9 := hcells.length_eq
  rw [List.getD_eq_getElem _ _ (by omega)]
  exact List.mem_range.1 (hcells.mem_iff.1 (List.getElem_mem _))

/-- **One cell gives up a feature**, unless its list is empty. -/
theorem SelectionUpTo.selectNext (h : SelectionUpTo ranked next s taken rest)
    (hcell : cells.getD s.cursor 0 < 9) :
    ∃ s', selectNext ranked cells next s = some s' ∧ s'.cursor = (s.cursor + 1) % 9 ∧
      ((rest (cells.getD s.cursor 0) = [] ∧ s'.indices = s.indices ∧
          SelectionUpTo ranked next s' taken rest) ∨
        (s'.indices.length = s.indices.length + 1 ∧
          ∃ taken' rest', SelectionUpTo ranked next s' taken' rest')) := by
  set c := cells.getD s.cursor 0 with hc
  have hchain := h.chains c hcell
  have hcursor : (s.cursor + 1) % 9 < 9 := Nat.mod_lt _ (by decide)
  cases hrest : rest c with
  | nil =>
      rw [hrest] at hchain
      exact ⟨_, selectNext_nil hchain, rfl, Or.inl ⟨rfl, rfl, h.heads_length, h.next_length,
        hcursor, h.chains, h.all, h.indices⟩⟩
  | cons i l =>
      rw [hrest] at hchain
      obtain ⟨location, hlocation, hs', hafter⟩ := selectNext_cons h.next_length hchain
      refine ⟨_, hs', rfl, Or.inr ⟨by simp, taken ++ [i], Function.update rest c l, ?_⟩⟩
      refine ⟨by simp [h.heads_length], h.next_length, hcursor, ?_, ?_, ?_⟩
      · intro d hd
        simp only
        rw [Scans.getD_set (by rw [h.heads_length]; exact hcell)]
        by_cases hdc : d = c
        · rw [if_pos hdc, hdc, Function.update_self]
          exact hafter
        · rw [if_neg hdc, Function.update_of_ne hdc]
          exact h.chains d hd
      · -- the head has moved from its list to what has been taken
        have hless := flatMap_update_perm List.nodup_range (List.mem_range.2 hcell) hrest
        rw [List.append_assoc]
        exact (((List.Perm.refl taken).append hless).symm).trans h.all
      · rw [List.map_append, List.map_append, h.indices]
        simp [hlocation]

/-- While something is left, some cell within nine places of the cursor has it. -/
theorem SelectionUpTo.exists_near (h : SelectionUpTo ranked next s taken rest)
    (hcells : cells.Perm (List.range 9)) (hmore : taken.length < ranked.length) :
    ∃ d ≤ 8, rest (cells.getD ((s.cursor + d) % 9) 0) ≠ [] := by
  have hlength := h.all.length_eq
  rw [List.length_append, List.length_range] at hlength
  obtain ⟨i, hi⟩ : ∃ i, i ∈ (List.range 9).flatMap rest := by
    refine List.exists_mem_of_length_pos ?_
    omega
  obtain ⟨c, hc, hic⟩ := List.mem_flatMap.1 hi
  obtain ⟨k, hk, hkc⟩ := List.mem_iff_getElem.1 (hcells.mem_iff.2 hc)
  have hk9 : k < 9 := by
    have := hcells.length_eq
    rw [List.length_range] at this
    omega
  have hcursor := h.cursor
  refine ⟨(k + 9 - s.cursor) % 9, by omega, ?_⟩
  have hplace : (s.cursor + (k + 9 - s.cursor) % 9) % 9 = k := by omega
  rw [hplace, List.getD_eq_getElem _ _ hk, hkc]
  exact List.ne_nil_of_mem hic

/-- **The selection ends.**  Within nine places of the cursor there is a cell with a feature, so
every feature takes at most nine rounds. -/
theorem selectLoop_selected {fuel wanted d : ℕ} (h : SelectionUpTo ranked next s taken rest)
    (hcells : cells.Perm (List.range 9)) (hwanted : wanted ≤ ranked.length)
    (hle : s.indices.length ≤ wanted)
    (hnear : s.indices.length < wanted → rest (cells.getD ((s.cursor + d) % 9) 0) ≠ [])
    (hd : d ≤ 8) (hfuel : 9 * (wanted - s.indices.length) + d < fuel) :
    ∃ indices taken' : List ℕ, selectLoop ranked cells next wanted fuel s = .ok indices ∧
      indices.length = wanted ∧
      indices.map some = taken'.map (fun i => ranked[i]?.map RankedLocation.index) ∧
      taken'.Nodup := by
  induction fuel generalizing s taken rest d with
  | zero => exact absurd hfuel (Nat.not_lt_zero _)
  | succ fuel ih =>
      rw [selectLoop]
      by_cases hmore : s.indices.length < wanted
      · have hcursor := h.cursor
        obtain ⟨s', hs', hcursor', hstep⟩ := h.selectNext (cells_lt hcells hcursor)
        rw [if_pos hmore, hs']
        rcases hstep with ⟨hempty, hindices, hup⟩ | ⟨hindices, taken', rest', hup⟩
        · -- an empty list: the cell with a feature is one place nearer
          have hdpos : d ≠ 0 := by
            rintro rfl
            have := hnear hmore
            rw [Nat.add_zero, Nat.mod_eq_of_lt hcursor] at this
            exact this hempty
          have hplace : (s'.cursor + (d - 1)) % 9 = (s.cursor + d) % 9 := by
            rw [hcursor']
            omega
          refine ih (d := d - 1) hup (by rw [hindices]; exact hle) ?_ (by omega)
            (by rw [hindices]; omega)
          intro _
          rw [hplace]
          exact hnear hmore
        · -- one more is chosen, and the distance to the next feature starts anew
          have hcount : taken'.length = s'.indices.length := by
            have := congrArg List.length hup.indices
            rw [List.length_map, List.length_map] at this
            exact this.symm
          by_cases hlast : s'.indices.length < wanted
          · obtain ⟨d', hd', hrest⟩ := hup.exists_near hcells (by omega)
            exact ih hup (by omega) (fun _ => hrest) hd' (by omega)
          · exact ih (d := 0) hup (by omega) (fun h => absurd h hlast) (by omega) (by omega)
      · rw [if_neg hmore]
        refine ⟨s.indices, taken, rfl, by omega, h.indices, ?_⟩
        exact (List.nodup_append.1 (h.all.nodup_iff.2 List.nodup_range)).1

end Taking

theorem clampThird_le (third : ℤ) : clampThird third ≤ 2 := by
  rw [clampThird]
  split_ifs <;> omega

/-- The cell of a rank is one of the nine. -/
theorem rankCell_lt {S : Type} (floats : FeatureFloats S) (ranked : List RankedLocation)
    (xmin ymin xmax ymax : ℤ) (i : ℕ) :
    (ranked[i]?.map (locationCell floats xmin ymin xmax ymax)).getD 0 < 9 := by
  cases ranked[i]? with
  | none => exact Nat.zero_lt_succ 8
  | some location =>
      have hx := clampThird_le (floats.third (location.x - xmin) (xmax - xmin + 1))
      have hy := clampThird_le (floats.third (location.y - ymin) (ymax - ymin + 1))
      rw [Option.map_some, Option.getD_some, locationCell]
      omega

/-- Before the first visit, the lists hold every rank once. -/
theorem selectionUpTo_start (ranked : List RankedLocation) {cell : ℕ → ℕ}
    (hcell : ∀ i, cell i < 9) :
    SelectionUpTo ranked (linkLocations cell ranked.length).next
      ⟨(linkLocations cell ranked.length).heads, 0, []⟩ []
      fun c => (List.range ranked.length).filter fun i => cell i = c := by
  obtain ⟨hheads, hnext, hchains⟩ := linkLocations_chains hcell ranked.length
  refine ⟨hheads, hnext, Nat.zero_lt_succ 8, hchains, ?_, rfl⟩
  rw [List.nil_append]
  refine (List.perm_ext_iff_of_nodup ?_ List.nodup_range).2 ?_
  · rw [List.nodup_flatMap]
    refine ⟨fun c _ => List.nodup_range.filter _, ?_⟩
    refine List.nodup_range.imp ?_
    intro c d hcd i hi hi'
    rw [List.mem_filter, decide_eq_true_eq] at hi hi'
    exact hcd (hi.2.symm.trans hi'.2)
  · intro i
    simp only [List.mem_flatMap, List.mem_filter, decide_eq_true_eq, List.mem_range]
    exact ⟨fun ⟨_, _, hi, _⟩ => hi, fun hi => ⟨cell i, hcell i, hi, rfl⟩⟩

/-- **The spatial selection** ends with as many features as were wanted, from different ranks. -/
theorem selectSpatialFeatures_selected {S : Type} (floats : FeatureFloats S)
    (ranked : List RankedLocation) (xmin ymin xmax ymax : ℤ) (allocated : Bool) (wanted : ℕ) :
    selectSpatialFeatures floats ranked xmin ymin xmax ymax allocated wanted = .error .refused ∨
      ∃ indices taken : List ℕ,
        selectSpatialFeatures floats ranked xmin ymin xmax ymax allocated wanted = .ok indices ∧
        indices.length = wanted ∧
        indices.map some = taken.map (fun i => ranked[i]?.map RankedLocation.index) ∧
        taken.Nodup := by
  rw [selectSpatialFeatures]
  split_ifs with hguard
  · exact Or.inl rfl
  push Not at hguard
  obtain ⟨-, -, hwanted, -⟩ := hguard
  refine Or.inr ?_
  have hstart := selectionUpTo_start ranked (rankCell_lt floats ranked xmin ymin xmax ymax)
  by_cases hzero : wanted = 0
  · exact selectLoop_selected (d := 0) hstart shuffleCells_perm hwanted (Nat.zero_le _)
      (fun h => absurd h (by simp [hzero])) (Nat.zero_le 8) (by simp)
  · obtain ⟨d, hd, hnear⟩ := hstart.exists_near shuffleCells_perm
      (by rw [List.length_nil]; omega)
    exact selectLoop_selected hstart shuffleCells_perm hwanted (Nat.zero_le _) (fun _ => hnear) hd
      (by rw [List.length_nil]; omega)

/-! ### Levels and quotas -/

section Budget

variable {S : Type} (floats : FeatureFloats S)

/-- The features of a level, one of which is read. -/
def readPoint (points : List (Keypoint S)) (i : ℕ) : Except BudgetFault (Keypoint S) :=
  match points[i]? with
  | none => .error .outOfBounds
  | some point => .ok point

/-- The place of a ranked feature in the image. -/
def rankedLocation (level : FeatureLevel) (points : List (Keypoint S)) (rank : RankedScore S) :
    Except BudgetFault RankedLocation :=
  readPoint points rank.index >>= fun point =>
    .ok {
      index := rank.index
      x := floats.project point.x level.scaleX level.offsetX
      y := floats.project point.y level.scaleY level.offsetY }

/-- The features of one level that are kept. -/
def limitLevel (allocated : Bool) (imageWidth imageHeight : ℕ) (level : FeatureLevel)
    (points : List (Keypoint S)) (quota : ℕ) : Except BudgetFault (List (Keypoint S)) :=
  if quota = points.length then .ok points
  else if quota = 0 then .ok []
  else
    fpcSortFeatureScores floats.le (points.mapIdx fun i point => ⟨i, point.score⟩) >>= fun ranks =>
      ranks.mapM (rankedLocation floats level points) >>= fun locations =>
        selectSpatialFeatures floats locations 0 0 (imageWidth - 1) (imageHeight - 1) allocated
            quota >>= fun chosen =>
          chosen.mapM (readPoint points)

/-- The number of features on a level; zero when there is no such level. -/
def levelCount (levels : List FeatureLevel) (k : ℕ) : ℕ :=
  (levels[k]?.map FeatureLevel.count).getD 0

/-- The quotas of the two levels. -/
def featureQuota (count : ℕ) (levels : List FeatureLevel) (budget : ℤ) (k : ℕ) : ℕ :=
  if 0 ≤ budget ∧ budget.toNat < count then
    let second := if levels.length = 2 then budget.toNat * 50 / 100 else 0
    if k = 0 then budget.toNat - second else second
  else levelCount levels k

/-- What has been kept, how many of each level, and where the next level starts. -/
structure Limited (S : Type) where
  offset : ℕ
  output : List (Keypoint S)
  selectedPerLevel : List ℕ

/-- Level `k` is limited to its quota. -/
def limitNext (allocated : Bool) (imageWidth imageHeight : ℕ) (budget : ℤ)
    (points : List (Keypoint S)) (levels : List FeatureLevel) (s : Limited S) (k : ℕ) :
    Except BudgetFault (Limited S) :=
  match levels[k]? with
  | none => .error .outOfBounds
  | some level =>
      let quota := min (featureQuota points.length levels budget k) level.count
      limitLevel floats allocated imageWidth imageHeight level
          ((points.drop s.offset).take level.count) quota >>= fun kept =>
        .ok {
          offset := s.offset + level.count
          output := s.output ++ kept
          selectedPerLevel := s.selectedPerLevel.set k quota }

/-- All levels, which have the features between them, are limited to their quotas. -/
def limitFeatureBudget (allocated : Bool) (points : List (Keypoint S)) (levels : List FeatureLevel)
    (imageWidth imageHeight : ℕ) (budget : ℤ) (capacity : ℕ) : Except BudgetFault (Limited S) :=
  if levels.length = 0 ∨ 2 < levels.length ∨ 2048 < points.length ∨ imageWidth = 0 ∨
      imageHeight = 0 ∨ 256 < imageWidth ∨ 256 < imageHeight ∨ capacity < points.length ∨
      points.length < levelCount levels 0 ∨
      (if levels.length = 1 then levelCount levels 0 ≠ points.length
        else levelCount levels 1 ≠ points.length - levelCount levels 0) then .error .refused
  else
    (List.range levels.length).foldlM
      (limitNext floats allocated imageWidth imageHeight budget points levels) ⟨0, [], [0, 0]⟩

end Budget

/-! ### What is kept of a level -/

/-- `kept` holds `n` features of a level, from different places of it. -/
def Drawn {S : Type} (points : List (Keypoint S)) (n : ℕ) (kept : List (Keypoint S)) : Prop :=
  ∃ positions : List ℕ, positions.Nodup ∧ positions.length = n ∧
    kept.map some = positions.map fun p => points[p]?

section Kept

variable {S : Type} {points kept : List (Keypoint S)}

theorem Drawn.length {n : ℕ} (h : Drawn points n kept) : kept.length = n := by
  obtain ⟨positions, -, hlength, hkept⟩ := h
  have := congrArg List.length hkept
  rwa [List.length_map, List.length_map, hlength] at this

/-- All features are drawn, each from its place. -/
theorem Drawn.all (points : List (Keypoint S)) : Drawn points points.length points := by
  refine ⟨List.range points.length, List.nodup_range, List.length_range, ?_⟩
  refine List.ext_getElem? ?_
  intro i
  rw [List.getElem?_map, List.getElem?_map]
  by_cases hi : i < points.length
  · rw [List.getElem?_range hi, List.getElem?_eq_getElem hi]
    simp [hi]
  · rw [List.getElem?_eq_none (Nat.le_of_not_lt hi), List.getElem?_eq_none (by simpa using hi)]
    rfl

theorem Drawn.none (points : List (Keypoint S)) : Drawn points 0 [] :=
  ⟨[], List.nodup_nil, rfl, rfl⟩

theorem mapM_ok {α β ε : Type} {f : α → Except ε β} {P : α → β → Prop} {l : List α}
    (h : ∀ a ∈ l, ∃ b, f a = .ok b ∧ P a b) : ∃ bs, l.mapM f = .ok bs ∧ List.Forall₂ P l bs := by
  induction l with
  | nil => exact ⟨[], rfl, List.Forall₂.nil⟩
  | cons a l ih =>
      obtain ⟨b, hb, hab⟩ := h a List.mem_cons_self
      obtain ⟨bs, hbs, hall⟩ := ih fun c hc => h c (List.mem_cons_of_mem a hc)
      refine ⟨b :: bs, ?_, List.Forall₂.cons hab hall⟩
      rw [List.mapM_cons, hb, hbs]
      rfl

/-- Reading at places of the level gives what is there. -/
theorem readPoints_ok {indices : List ℕ} (h : ∀ i ∈ indices, i < points.length) :
    ∃ kept, indices.mapM (readPoint points) = .ok kept ∧
      kept.map some = indices.map fun p => points[p]? := by
  obtain ⟨kept, hkept, hall⟩ := mapM_ok (f := readPoint points)
    (P := fun i point => points[i]? = some point) (l := indices) (by
      intro i hi
      rw [readPoint, List.getElem?_eq_getElem (h i hi)]
      exact ⟨_, rfl, rfl⟩)
  refine ⟨kept, hkept, ?_⟩
  clear hkept h
  induction hall with
  | nil => rfl
  | cons hpoint _ ih => rw [List.map_cons, List.map_cons, hpoint, ih]

/-- The ranks of a level are locations with the same indices. -/
theorem rankedLocations_ok (floats : FeatureFloats S) (level : FeatureLevel)
    {ranks : List (RankedScore S)} (h : ∀ rank ∈ ranks, rank.index < points.length) :
    ∃ locations, ranks.mapM (rankedLocation floats level points) = .ok locations ∧
      locations.map RankedLocation.index = ranks.map RankedScore.index := by
  obtain ⟨locations, hlocations, hall⟩ := mapM_ok (f := rankedLocation floats level points)
    (P := fun rank location => location.index = rank.index) (l := ranks) (by
      intro rank hrank
      rw [rankedLocation, readPoint, List.getElem?_eq_getElem (h rank hrank)]
      exact ⟨_, rfl, rfl⟩)
  refine ⟨locations, hlocations, ?_⟩
  clear hlocations h
  induction hall with
  | nil => rfl
  | cons hindex _ ih => rw [List.map_cons, List.map_cons, hindex, ih]

/-- Choosing different places of an array without repetitions gives different values. -/
theorem chosen_nodup {indices : List ℕ} (hindices : indices.Nodup) {chosen taken : List ℕ}
    (htaken : taken.Nodup) (h : chosen.map some = taken.map fun i => indices[i]?) :
    chosen.Nodup ∧ ∀ i ∈ chosen, i ∈ indices := by
  have hsome : ∀ i ∈ taken, ∃ c ∈ chosen, indices[i]? = some c := by
    intro i hi
    have hmem : indices[i]? ∈ chosen.map some := by
      rw [h]
      exact List.mem_map_of_mem hi
    obtain ⟨c, hc, hci⟩ := List.mem_map.1 hmem
    exact ⟨c, hc, hci.symm⟩
  refine ⟨?_, ?_⟩
  · refine List.Nodup.of_map some ?_
    rw [h]
    refine htaken.map_on ?_
    intro i hi j hj hij
    obtain ⟨c, -, hc⟩ := hsome i hi
    exact (List.getElem?_inj (List.getElem?_eq_some_iff.1 hc).1 hindices).1 hij
  · intro c hc
    have hmem : some c ∈ taken.map fun i => indices[i]? := h ▸ List.mem_map_of_mem hc
    obtain ⟨i, -, hi⟩ := List.mem_map.1 hmem
    exact List.mem_of_getElem? hi

variable (points) in
/-- **One level**: as many features as its quota says, from different places, and all of them in
their order when the quota allows it. -/
theorem limitLevel_kept (floats : FeatureFloats S) (allocated : Bool)
    (imageWidth imageHeight : ℕ) (level : FeatureLevel) (quota : ℕ) :
    limitLevel floats allocated imageWidth imageHeight level points quota = .error .refused ∨
      ∃ kept, limitLevel floats allocated imageWidth imageHeight level points quota = .ok kept ∧
        Drawn points quota kept ∧ (quota = points.length → kept = points) := by
  rw [limitLevel]
  split_ifs with hall hnone
  · exact Or.inr ⟨points, rfl, hall ▸ Drawn.all points, fun _ => rfl⟩
  · exact Or.inr ⟨[], rfl, hnone ▸ Drawn.none points, fun h => absurd h hall⟩
  rcases fpcSortFeatureScores_perm floats.le
    (points.mapIdx fun i point => (⟨i, point.score⟩ : RankedScore S)) with
    hrefused | ⟨ranks, hranks, hperm⟩
  · rw [hrefused]
    exact Or.inl rfl
  have hindices : (ranks.map RankedScore.index).Perm (List.range points.length) := by
    have hranked : (points.mapIdx fun i point => (⟨i, point.score⟩ : RankedScore S)).map
        RankedScore.index = List.range points.length := by
      refine List.ext_getElem (by simp) ?_
      intro i _ _
      simp
    exact hranked ▸ hperm.map RankedScore.index
  have hrank : ∀ rank ∈ ranks, rank.index < points.length := by
    intro rank hrank
    exact List.mem_range.1 (hindices.mem_iff.1 (List.mem_map_of_mem hrank))
  obtain ⟨locations, hlocations, hindex⟩ := rankedLocations_ok floats level hrank
  rw [hranks, Fallible.ok_bind, hlocations, Fallible.ok_bind]
  rcases selectSpatialFeatures_selected floats locations 0 0 (imageWidth - 1) (imageHeight - 1)
    allocated quota with hrefused | ⟨chosen, taken, hchosen, hlength, htaken, hnodup⟩
  · rw [hrefused]
    exact Or.inl rfl
  -- choosing ranks without repetitions is choosing places of the level without repetitions
  have hplaces : chosen.map some = taken.map fun i => (locations.map RankedLocation.index)[i]? := by
    rw [htaken]
    refine List.map_congr_left ?_
    intro i _
    exact (List.getElem?_map).symm
  rw [hindex] at hplaces
  obtain ⟨hchosenNodup, hmem⟩ :=
    chosen_nodup (hindices.nodup_iff.2 List.nodup_range) hnodup hplaces
  have hplace : ∀ i ∈ chosen, i < points.length := by
    intro i hi
    exact List.mem_range.1 (hindices.mem_iff.1 (hmem i hi))
  obtain ⟨kept, hkept, hread⟩ := readPoints_ok hplace
  rw [hchosen, Fallible.ok_bind]
  exact Or.inr ⟨kept, hkept, ⟨chosen, hchosenNodup, hlength, hread⟩, fun h => absurd h hall⟩

end Kept

/-! ### What is kept of all levels -/

/-- The features of level `k`. -/
def levelPoints {S : Type} (points : List (Keypoint S)) (levels : List FeatureLevel) (k : ℕ) :
    List (Keypoint S) :=
  (points.drop ((levels.take k).map FeatureLevel.count).sum).take (levelCount levels k)

/-- Level by level, the output holds features drawn from the level, as many as the quota and the
level have. -/
def KeptByLevel {S : Type} (points : List (Keypoint S)) (levels : List FeatureLevel) (budget : ℤ)
    (output : List (Keypoint S)) : Prop :=
  ∃ kept : List (List (Keypoint S)), kept.length = levels.length ∧ output = kept.flatten ∧
    ∀ k < levels.length, Drawn (levelPoints points levels k)
      (min (featureQuota points.length levels budget k) (levelCount levels k)) (kept.getD k [])

section Levels

variable {S : Type} {points : List (Keypoint S)} {levels : List FeatureLevel} {budget : ℤ}

/-- After `k` levels. -/
structure LimitedUpTo (points : List (Keypoint S)) (levels : List FeatureLevel) (budget : ℤ)
    (k : ℕ) (s : Limited S) : Prop where
  offset : s.offset = ((levels.take k).map FeatureLevel.count).sum
  kept : ∃ kept : List (List (Keypoint S)), kept.length = k ∧ s.output = kept.flatten ∧
    ∀ l < k, Drawn (levelPoints points levels l)
      (min (featureQuota points.length levels budget l) (levelCount levels l)) (kept.getD l [])
  length_le : s.output.length ≤ ∑ l ∈ Finset.range k, featureQuota points.length levels budget l
  /-- Nothing is lost while the quotas allow all there is. -/
  whole : (∀ l < k, levelCount levels l ≤ featureQuota points.length levels budget l) →
    s.output = points.take s.offset

theorem sum_take_succ {k : ℕ} (hk : k < levels.length) :
    ((levels.take (k + 1)).map FeatureLevel.count).sum =
      ((levels.take k).map FeatureLevel.count).sum + levels[k].count := by
  rw [List.take_succ_eq_append_getElem hk, List.map_append, List.sum_append]
  simp

theorem sum_take_le (levels : List FeatureLevel) (k : ℕ) :
    ((levels.take k).map FeatureLevel.count).sum ≤ (levels.map FeatureLevel.count).sum := by
  conv_rhs => rw [← List.take_append_drop k levels]
  rw [List.map_append, List.sum_append]
  exact Nat.le_add_right _ _

variable (budget) in
/-- **The next level** is limited to its quota. -/
theorem LimitedUpTo.next (floats : FeatureFloats S) (allocated : Bool)
    (imageWidth imageHeight : ℕ) {k : ℕ} (hk : k < levels.length)
    (hsum : (levels.map FeatureLevel.count).sum = points.length) {s : Limited S}
    (h : LimitedUpTo points levels budget k s) :
    (∃ e, limitNext floats allocated imageWidth imageHeight budget points levels s k = .error e ∧
        e = .refused) ∨
      ∃ s', limitNext floats allocated imageWidth imageHeight budget points levels s k = .ok s' ∧
        LimitedUpTo points levels budget (k + 1) s' := by
  have hcount : levelCount levels k = levels[k].count := by
    rw [levelCount, List.getElem?_eq_getElem hk]
    rfl
  have hnext := sum_take_succ hk
  have hroom := sum_take_le levels (k + 1)
  have hpoints : (points.drop s.offset).take levels[k].count = levelPoints points levels k := by
    rw [levelPoints, hcount, h.offset]
  have hlength : (levelPoints points levels k).length = levels[k].count := by
    rw [levelPoints, hcount, List.length_take, List.length_drop]
    omega
  rw [limitNext, List.getElem?_eq_getElem hk]
  simp only [hpoints]
  rcases limitLevel_kept (levelPoints points levels k) floats allocated imageWidth imageHeight
    levels[k] (min (featureQuota points.length levels budget k) levels[k].count) with
    hrefused | ⟨kept, hkept, hdrawn, hwhole⟩
  · rw [hrefused]
    exact Or.inl ⟨_, rfl, rfl⟩
  rw [hkept]
  refine Or.inr ⟨_, rfl, ?_, ?_, ?_, ?_⟩
  · rw [hnext, ← h.offset]
  · obtain ⟨before, hbefore, houtput, hall⟩ := h.kept
    refine ⟨before ++ [kept], by simp [hbefore], by simp [houtput], ?_⟩
    intro l hl
    rcases Nat.lt_succ_iff_lt_or_eq.1 hl with hl | rfl
    · rw [List.getD_append _ _ _ _ (by omega)]
      exact hall l hl
    · rw [List.getD_append_right _ _ _ _ (by omega), hbefore, Nat.sub_self, hcount]
      exact hdrawn
  · rw [List.length_append, hdrawn.length, Finset.sum_range_succ]
    exact Nat.add_le_add h.length_le (min_le_left _ _)
  · intro hquotas
    have hlast := hquotas k (Nat.lt_succ_self k)
    rw [hcount] at hlast
    rw [h.whole fun l hl => hquotas l (Nat.lt_succ_of_lt hl),
      hwhole (by rw [hlength]; exact min_eq_right hlast), levelPoints, hcount, ← h.offset]
    exact (List.take_add).symm

/-- The quotas share the budget. -/
theorem sum_featureQuota_le (hlevels : levels.length ≤ 2) {count : ℕ} (hpos : 0 ≤ budget)
    (hless : budget < count) :
    ((∑ l ∈ Finset.range levels.length, featureQuota count levels budget l : ℕ) : ℤ) ≤ budget := by
  have hquota : ∀ l, featureQuota count levels budget l =
      if l = 0 then budget.toNat - (if levels.length = 2 then budget.toNat * 50 / 100 else 0)
      else if levels.length = 2 then budget.toNat * 50 / 100 else 0 := by
    intro l
    rw [featureQuota, if_pos ⟨hpos, by omega⟩]
  obtain h | h | h : levels.length = 0 ∨ levels.length = 1 ∨ levels.length = 2 := by omega
  · simp [h, hpos]
  · simp only [h, hquota, Finset.sum_range_one, if_true]
    simp
    omega
  · simp only [h, hquota, Finset.sum_range_succ, Finset.sum_range_zero, if_true]
    simp
    omega

/-- A budget that is negative or large enough leaves every level its features. -/
theorem levelCount_le_quota {count : ℕ} (h : budget < 0 ∨ (count : ℤ) ≤ budget) (l : ℕ) :
    levelCount levels l ≤ featureQuota count levels budget l := by
  have hno : ¬(0 ≤ budget ∧ budget.toNat < count) := by omega
  rw [featureQuota, if_neg hno]

variable (points levels budget) in
/-- **The feature budget.**  What a call keeps that is not refused. -/
theorem limitFeatureBudget_kept (floats : FeatureFloats S) (allocated : Bool)
    (imageWidth imageHeight capacity : ℕ) :
    limitFeatureBudget floats allocated points levels imageWidth imageHeight budget capacity =
        .error .refused ∨
      ∃ r, limitFeatureBudget floats allocated points levels imageWidth imageHeight budget
          capacity = .ok r ∧
        (budget < 0 ∨ (points.length : ℤ) ≤ budget → r.output = points) ∧
        KeptByLevel points levels budget r.output ∧
        (0 ≤ budget → budget < points.length → (r.output.length : ℤ) ≤ budget) := by
  rw [limitFeatureBudget]
  by_cases hguard : levels.length = 0 ∨ 2 < levels.length ∨ 2048 < points.length ∨ imageWidth = 0 ∨
      imageHeight = 0 ∨ 256 < imageWidth ∨ 256 < imageHeight ∨ capacity < points.length ∨
      points.length < levelCount levels 0 ∨
      (if levels.length = 1 then levelCount levels 0 ≠ points.length
        else levelCount levels 1 ≠ points.length - levelCount levels 0)
  · exact Or.inl (if_pos hguard)
  rw [if_neg hguard]
  simp only [not_or, not_lt] at hguard
  obtain ⟨hsome, htwo, -, -, -, -, -, -, hfirst, hrest⟩ := hguard
  -- the levels have all features between them
  have hsum : (levels.map FeatureLevel.count).sum = points.length := by
    match levels, hsome, htwo with
    | [a], _, _ =>
        rw [List.length_singleton, if_pos rfl, not_not] at hrest
        simpa [levelCount] using hrest
    | [a, b], _, _ =>
        have hb : b.count = points.length - a.count := by simpa [levelCount] using hrest
        have ha : a.count ≤ points.length := hfirst
        simp
        omega
  have hstart : LimitedUpTo points levels budget 0 (⟨0, [], [0, 0]⟩ : Limited S) :=
    ⟨rfl, ⟨[], rfl, rfl, fun l hl => absurd hl (Nat.not_lt_zero l)⟩, Nat.le_refl 0, fun _ => rfl⟩
  rcases Loops.foldlM_range_or (LimitedUpTo points levels budget)
    (fun e => e = BudgetFault.refused) hstart
    (fun k hk s hs => hs.next budget floats allocated imageWidth imageHeight hk hsum) with
    ⟨e, he, rfl⟩ | ⟨r, hr, hend⟩
  · exact Or.inl he
  · refine Or.inr ⟨r, hr, ?_, hend.kept, ?_⟩
    · intro hlarge
      rw [hend.whole fun l _ => levelCount_le_quota hlarge l, hend.offset, List.take_length, hsum,
        List.take_length]
    · intro hpos hless
      have hle := sum_featureQuota_le htwo hpos hless
      have := hend.length_le
      omega

end Levels

/-! ### Extraction -/

structure ExtractedFeature (S : Type) where
  point : Keypoint S
  degrees : S
  descriptor : Vector UInt8 16

/-- What the stages around the budget give: their statuses, the features that are detected, and for
each feature that is kept its angle and its descriptor. -/
structure ExtractStages (S : Type) where
  hessianPlanes : ℤ
  harrisScores : ℤ
  selectFloatMaxima : ℤ × List (Keypoint S)
  buildOrientationField : ℤ
  padImageEdges : ℤ
  describe : Keypoint S → Except ℤ (S × Vector UInt8 16)

/-- The status, the count if it is written, and the features that are written. -/
structure Extracted (S : Type) where
  status : ℤ
  count : Option ℕ
  features : List (ExtractedFeature S)

section Extraction

variable {S : Type} (floats : FeatureFloats S)

/-- Features are described one after the other, until one cannot be. -/
def describeFeatures (describe : Keypoint S → Except ℤ (S × Vector UInt8 16)) :
    List (Keypoint S) → ℤ × List (ExtractedFeature S)
  | [] => (0, [])
  | point :: points =>
      match describe point with
      | .error status => (status, [])
      | .ok (degrees, descriptor) =>
          let rest := describeFeatures describe points
          (rest.1, ⟨point, degrees, descriptor⟩ :: rest.2)

/-- The status of the stages before the budget. -/
def detectStatus (stages : ExtractStages S) : ℤ :=
  if stages.hessianPlanes ≠ 0 then stages.hessianPlanes
  else if stages.harrisScores ≠ 0 then stages.harrisScores
  else stages.selectFloatMaxima.1

/-- The status of the stages between the budget and the descriptions. -/
def prepareStatus (stages : ExtractStages S) (kept : List (Keypoint S)) : ℤ :=
  if kept.isEmpty then 0
  else if stages.buildOrientationField ≠ 0 then stages.buildOrientationField
  else stages.padImageEdges

/-- The extraction; the flags say whether buffers could be had. -/
def extractProfile300Prepared (allocated selectAllocated : Bool)
    (stages : ExtractStages S) (stride maskStride weightCount capacity : ℕ) :
    Except BudgetFault (Extracted S) :=
  if stride < 112 ∨ maskStride < 112 ∨ (2 ^ 64 - 1) / 88 < stride ∨
      (2 ^ 64 - 1) / 88 < maskStride ∨ weightCount ≠ 16384 ∨ capacity < 300 then
    .ok ⟨-1, none, []⟩
  else if !allocated then .ok ⟨-1, some 0, []⟩
  else if detectStatus stages ≠ 0 then .ok ⟨detectStatus stages, some 0, []⟩
  else
    let detected := stages.selectFloatMaxima.2
    match limitFeatureBudget floats selectAllocated detected
        [⟨detected.length, 16384, 16384, 8, 8⟩] 112 88 300 2048 with
    | .error .refused => .ok ⟨-1, some 0, []⟩
    | .error fault => .error fault
    | .ok limited =>
        let kept := limited.output
        if prepareStatus stages kept ≠ 0 then .ok ⟨prepareStatus stages kept, some 0, []⟩
        else
          let described := describeFeatures stages.describe kept
          .ok ⟨described.1, some (if described.1 = 0 then kept.length else 0), described.2⟩

theorem describeFeatures_length_le (describe : Keypoint S → Except ℤ (S × Vector UInt8 16))
    (points : List (Keypoint S)) : (describeFeatures describe points).2.length ≤ points.length := by
  induction points with
  | nil => exact Nat.le_refl 0
  | cons point points ih =>
      rw [describeFeatures]
      cases describe point with
      | error status => exact Nat.zero_le _
      | ok described => exact Nat.succ_le_succ ih

/-- **An extraction** writes at most three hundred features, and counts as many. -/
theorem extractProfile300Prepared_le (allocated selectAllocated : Bool)
    (stages : ExtractStages S) (stride maskStride weightCount capacity : ℕ) :
    ∃ r, extractProfile300Prepared floats allocated selectAllocated stages stride maskStride
        weightCount capacity = .ok r ∧
      r.features.length ≤ 300 ∧ ∀ n, r.count = some n → n ≤ 300 := by
  have hzero : ∀ n, some 0 = some n → n ≤ 300 := by
    rintro n h
    rw [← Option.some.inj h]
    exact Nat.zero_le _
  rw [extractProfile300Prepared]
  split_ifs with hguard hallocated hdetect
  · exact ⟨_, rfl, Nat.zero_le _, fun n h => by cases h⟩
  · exact ⟨_, rfl, Nat.zero_le _, hzero⟩
  · exact ⟨_, rfl, Nat.zero_le _, hzero⟩
  simp only
  rcases limitFeatureBudget_kept stages.selectFloatMaxima.2
    [⟨stages.selectFloatMaxima.2.length, 16384, 16384, 8, 8⟩] 300 floats selectAllocated 112 88
    2048 with hrefused | ⟨limited, hlimited, hall, -, hbudget⟩
  · rw [hrefused]
    exact ⟨_, rfl, Nat.zero_le _, hzero⟩
  rw [hlimited]
  have hlength : limited.output.length ≤ 300 := by
    by_cases hless : (300 : ℤ) < stages.selectFloatMaxima.2.length
    · have := hbudget (by decide) hless
      omega
    · rw [hall (Or.inr (not_lt.1 hless))]
      omega
  simp only
  by_cases hprepare : prepareStatus stages limited.output ≠ 0
  · rw [if_pos hprepare]
    exact ⟨_, rfl, Nat.zero_le _, hzero⟩
  · rw [if_neg hprepare]
    refine ⟨_, rfl, (describeFeatures_length_le _ _).trans hlength, ?_⟩
    intro n hn
    rw [← Option.some.inj hn]
    split_ifs
    · exact hlength
    · exact Nat.zero_le _

end Extraction

/-- **The budget is kept.**  A call that is not refused returns the features unchanged when the
budget is negative or large enough, and otherwise from every level as many as its quota and the
level have, each from a place of its own, and no more than the budget in all.  So an extraction
never writes more than three hundred features. -/
theorem limitFeatureBudget_keeps {S : Type} (floats : FeatureFloats S) :
    (∀ (allocated : Bool) (points : List (Keypoint S)) (levels : List FeatureLevel)
      (imageWidth imageHeight : ℕ) (budget : ℤ) (capacity : ℕ),
      limitFeatureBudget floats allocated points levels imageWidth imageHeight budget capacity =
          .error .refused ∨
        ∃ r, limitFeatureBudget floats allocated points levels imageWidth imageHeight budget
            capacity = .ok r ∧
          (budget < 0 ∨ (points.length : ℤ) ≤ budget → r.output = points) ∧
          KeptByLevel points levels budget r.output ∧
          (0 ≤ budget → budget < points.length → (r.output.length : ℤ) ≤ budget)) ∧
    ∀ (allocated selectAllocated : Bool) (stages : ExtractStages S)
      (stride maskStride weightCount capacity : ℕ),
      ∃ r, extractProfile300Prepared floats allocated selectAllocated stages stride maskStride
          weightCount capacity = .ok r ∧
        r.features.length ≤ 300 ∧ ∀ n, r.count = some n → n ≤ 300 :=
  ⟨fun allocated points levels imageWidth imageHeight budget capacity =>
      limitFeatureBudget_kept points levels budget floats allocated imageWidth imageHeight capacity,
    fun allocated selectAllocated stages stride maskStride weightCount capacity =>
      extractProfile300Prepared_le floats allocated selectAllocated stages stride maskStride
        weightCount capacity⟩

/-- Scores that are whole numbers, and coordinates that are those of the image. -/
def wholeFloats : FeatureFloats ℕ where
  le a b := decide (a ≤ b)
  third distance extent := (distance * 3).tdiv extent
  project x scale offset := (x.toNat * scale * 16 + offset * 16384).tdiv 262144

/-- Three features, two of them in one cell. -/
def threePoints : List (Keypoint ℕ) := [⟨10, 10, 0, 5⟩, ⟨11, 10, 0, 9⟩, ⟨80, 60, 0, 7⟩]

theorem limitFeatureBudget_keeps_two :
    ∃ r, limitFeatureBudget wholeFloats true threePoints [⟨3, 16384, 16384, 8, 8⟩] 112 88 2 3 =
        .ok r ∧
      ((2 : ℤ) < 0 ∨ (3 : ℤ) ≤ 2 → r.output = threePoints) ∧
      KeptByLevel threePoints [⟨3, 16384, 16384, 8, 8⟩] 2 r.output ∧
      ((0 : ℤ) ≤ 2 → (2 : ℤ) < 3 → (r.output.length : ℤ) ≤ 2) := by
  have haccepted : (limitFeatureBudget wholeFloats true threePoints [⟨3, 16384, 16384, 8, 8⟩] 112 88
      2 3).toBool = true := by
    decide +kernel
  refine ((limitFeatureBudget_keeps wholeFloats).1 true threePoints [⟨3, 16384, 16384, 8, 8⟩] 112
    88 2 3).resolve_left ?_
  intro hrefused
  rw [hrefused] at haccepted
  cases haccepted

end Fpc
