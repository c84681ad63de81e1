/-
**The initial graph and order of a finished enrollment.**

The scores of the pairs come in the order in which captures were appended and go to the packed rows
of a graph that may have slack slots.  The slots in use are then sorted by how much they have in
common with the others, and the first of them stay protected for the life of the template.

Main definitions:

* `Fpc.edgeValue` — the score of an edge in the packed rows;
* `Fpc.initialCost` — the squared scores of a slot to the other slots in use, modulo `2 ^ 32`;
* `Fpc.sortRound` — one pass of the sort with the place where the next one ends.

Main results:

* `Fpc.packScores_rest` — edges that no pair was recorded for are zero;
* `Fpc.orderCosts_eq` — the costs the sort starts from;
* `Fpc.sortRound_simulates` — a pass over the two arrays is a round of bubble sort;
* `Fpc.initialGraph_order` — **the initial graph and order**.
-/

import FpcReader.Lib.Bubble
import FpcReader.Storage.Enrolled
import Mathlib.Algebra.BigOperators.Group.Finset.Basic
import Mathlib.Algebra.BigOperators.Intervals

set_option relaxedAutoImplicit false
set_option autoImplicit false

namespace Fpc

/-! ### The packed rows -/

section Rest

variable {pairScores : List UInt16} {capacity : ℕ}

/-- Writing a pair leaves the edges of later slots alone. -/
theorem writePairScore_rest {laters earlier : ℕ} {scores : List UInt16} (h : earlier < laters)
    (hlaters : laters < capacity) (hmax : capacity ≤ 65535) {low high : ℕ} (hlow : low < high)
    (hhigh : high < capacity) (hlate : laters < high) :
    (writePairScore pairScores capacity laters scores earlier)[Triangle.row capacity low high]? =
      scores[Triangle.row capacity low high]? := by
  rw [writePairScore_eq h hlaters hmax]
  refine List.getElem?_set_ne ?_
  intro heq
  have := Triangle.row_inj h hlaters hlow hhigh heq
  omega

/-- Edges that no pair was recorded for are zero. -/
theorem packScores_rest {used : ℕ} (hused : used ≤ capacity) (hmax : capacity ≤ 65535)
    {low high : ℕ} (hlow : low < high) (hhigh : high < capacity) (hlate : used ≤ high) :
    (packScores pairScores used capacity)[Triangle.row capacity low high]? = some 0 := by
  unfold packScores
  induction used with
  | zero =>
      rw [List.range_zero, List.foldl_nil, List.getElem?_replicate, if_pos]
      exact Triangle.row_lt hlow hhigh
  | succ used ih =>
      rw [Scans.foldl_range_succ]
      have hrow : ∀ n ≤ used, ∀ scores : List UInt16,
          ((List.range n).foldl (writePairScore pairScores capacity used)
            scores)[Triangle.row capacity low high]? =
              scores[Triangle.row capacity low high]? := by
        intro n hn scores
        induction n with
        | zero => rfl
        | succ n ihn =>
            rw [Scans.foldl_range_succ, writePairScore_rest (by omega) (by omega) hmax hlow hhigh
              (by omega)]
            exact ihn (by omega)
      rw [hrow used le_rfl]
      exact ih (by omega) (by omega)

end Rest

/-! ### The costs -/

/-- The cost of a slot: the squared scores of its edges to the other slots in use, modulo
`2 ^ 32`. -/
def initialCost (scores : List UInt16) (used capacity k : ℕ) : ℕ :=
  (∑ j ∈ (Finset.range used).erase k, edgeScore scores capacity k j ^ 2) % 2 ^ 32

section Costs

variable (scores : List UInt16) {used capacity : ℕ}

/-- One pair. -/
theorem addOrderCost_adds {i j : ℕ} (hi : i < capacity) (hj : j < capacity) (hne : i ≠ j)
    (hmax : capacity ≤ 65535) (cost : List UInt32) :
    CostAdds cost (addOrderCost scores capacity i cost j)
      fun k => edgeShare scores capacity k i [j] := by
  obtain ⟨cost', hcost', hadds⟩ := addEdgeCost_adds scores hi hj hne hmax cost
  have hsame : addOrderCost scores capacity i cost j = cost' := by
    rw [addEdgeCost] at hcost'
    cases hindex : enrollmentPairIndex capacity i j with
    | none => simp [hindex] at hcost'
    | some index =>
        rw [hindex] at hcost'
        rw [addOrderCost, hindex]
        exact Option.some.inj hcost'
  rw [hsame]
  exact hadds

/-- The pairs of one slot with slots behind it. -/
theorem addOrderCosts_adds {i : ℕ} (hi : i < capacity) (hmax : capacity ≤ 65535) {slots : List ℕ}
    (hslots : ∀ j ∈ slots, j < capacity ∧ i ≠ j) (cost : List UInt32) :
    CostAdds cost (slots.foldl (addOrderCost scores capacity i) cost)
      fun k => edgeShare scores capacity k i slots := by
  induction slots generalizing cost with
  | nil => exact .zero cost
  | cons j slots ih =>
      obtain ⟨hj, hne⟩ := hslots j List.mem_cons_self
      have hadds := (addOrderCost_adds scores hi hj hne hmax cost).trans
        (ih (fun j' hj' => hslots j' (List.mem_cons_of_mem _ hj')) _)
      simpa [edgeShare] using hadds

/-- All pairs of the slots in use. -/
theorem orderCosts_adds (hused : used ≤ capacity) (hmax : capacity ≤ 65535) {rows : List ℕ}
    (hrows : ∀ i ∈ rows, i < used) (cost : List UInt32) :
    CostAdds cost
      (rows.foldl (fun cost i =>
        (List.range' (i + 1) (used - (i + 1))).foldl (addOrderCost scores capacity i) cost) cost)
      fun k => (rows.map fun i => edgeShare scores capacity k i (laterSlots used i)).sum := by
  induction rows generalizing cost with
  | nil => exact .zero cost
  | cons i rows ih =>
      have hi := hrows i List.mem_cons_self
      have hlater : ∀ j ∈ laterSlots used i, j < capacity ∧ i ≠ j := by
        intro j hj
        have := List.mem_range'_1.1 hj
        omega
      have hadds := (addOrderCosts_adds scores (by omega : i < capacity) hmax hlater cost).trans
        (ih (fun i' hi' => hrows i' (List.mem_cons_of_mem _ hi')) _)
      simp only [List.map_cons, List.sum_cons]
      exact hadds

/-- **The costs the sort starts from.** -/
theorem orderCosts_eq (hused : used ≤ capacity) (hmax : capacity ≤ 65535) :
    (orderCosts scores used capacity).length = capacity ∧
      ∀ k < used, ((orderCosts scores used capacity).getD k 0).toNat =
        initialCost scores used capacity k := by
  obtain ⟨hlen, hvalue⟩ := orderCosts_adds scores hused hmax
    (fun i hi => List.mem_range.1 hi : ∀ i ∈ List.range used, i < used)
    (List.replicate capacity 0)
  refine ⟨hlen.trans List.length_replicate, fun k hk => ?_⟩
  have hzero : ((List.replicate capacity (0 : UInt32)).getD k 0).toNat = 0 := by
    rw [List.getD_eq_getElem?_getD, List.getElem?_replicate]
    split_ifs <;> rfl
  have hk' := hvalue k (by rw [List.length_replicate]; omega)
  dsimp only at hk'
  rw [orderCosts, hk', edgeShares_sum _ _ hk, hzero, Nat.zero_add, initialCost]

end Costs

/-! ### The sort -/

/-- One pass, and where the next one ends. -/
def sortRound (p : ℕ × SortState) : ℕ × SortState := ((sortPass p.2 p.1).last, sortPass p.2 p.1)

/-- The passes of the source are rounds: they stop at the first that would end at one or below. -/
theorem sortPasses_eq {fuel finish k : ℕ} {st : SortState} (hk : k ≤ fuel)
    (hend : (sortRound^[k] (finish, st)).1 ≤ 1)
    (hbefore : ∀ i < k, 1 < (sortRound^[i] (finish, st)).1) :
    sortPasses fuel finish st = (sortRound^[k] (finish, st)).2 := by
  induction fuel generalizing finish k st with
  | zero =>
      have hzero : k = 0 := by omega
      subst hzero
      rfl
  | succ fuel ih =>
      rw [sortPasses]
      cases k with
      | zero => exact if_pos hend
      | succ k =>
          have hmore : 1 < finish := hbefore 0 (Nat.succ_pos k)
          rw [if_neg (by omega), Function.iterate_succ_apply]
          rw [Function.iterate_succ_apply] at hend
          refine ih (by omega) hend fun i hi => ?_
          have hnext := hbefore (i + 1) (by omega)
          rwa [Function.iterate_succ_apply] at hnext

/-- The two arrays of the sort, read as one array of slots whose costs are those they started
with. -/
structure SortSimulates (start : List UInt32) (capacity : ℕ) (st : SortState)
    (s : Bubble.State UInt16) : Prop where
  costs : st.cost.length = capacity
  slots : st.order.length = capacity
  slot : ∀ j < capacity, st.order.getD j 0 = s.slot j
  cost : ∀ j < capacity, st.cost.getD j 0 = start.getD (s.slot j).toNat 0
  last : st.last = s.last

theorem getD_swapBefore {α : Type} (default : α) {l : List α} {i j : ℕ} (hpos : 0 < i)
    (hi : i < l.length) (hj : j < l.length) :
    (swapBefore default l i).getD j default =
      if j + 1 = i then l.getD i default
      else if j = i then l.getD (i - 1) default else l.getD j default := by
  rw [swapBefore, List.getD_eq_getElem _ _ (by simpa using hj)]
  by_cases h1 : j + 1 = i
  · have hbefore : i - 1 = j := by omega
    simp [h1, hbefore]
  · rw [if_neg h1, List.getElem_set_ne (by omega)]
    by_cases h2 : j = i
    · subst h2
      rw [if_pos rfl, List.getElem_set_self]
    · rw [if_neg h2, List.getElem_set_ne (Ne.symm h2), List.getD_eq_getElem _ _ hj]

section Simulation

variable {start : List UInt32} {capacity : ℕ}

/-- The key of a slot is its cost at the start. -/
def slotKey (start : List UInt32) (slot : UInt16) : ℕ := (start.getD slot.toNat 0).toNat

/-- One comparison. -/
theorem sortStep_simulates {st : SortState} {s : Bubble.State UInt16}
    (h : SortSimulates start capacity st s) {i : ℕ} (hpos : 0 < i) (hi : i < capacity) :
    SortSimulates start capacity (sortStep st i) (Bubble.step (slotKey start) s i) := by
  have hiff : st.cost.getD i 0 < st.cost.getD (i - 1) 0 ↔
      slotKey start (s.slot i) < slotKey start (s.slot (i - 1)) := by
    rw [h.cost i hi, h.cost (i - 1) (by omega), UInt32.lt_iff_toNat_lt]
    rfl
  rw [sortStep, Bubble.step]
  by_cases hlt : st.cost.getD i 0 < st.cost.getD (i - 1) 0
  · rw [if_pos hlt, if_pos (hiff.1 hlt)]
    have hcost := h.costs
    have hslot := h.slots
    refine ⟨by simp [swapBefore, hcost], by simp [swapBefore, hslot], ?_, ?_, rfl⟩
    · intro j hj
      change _ = if j + 1 = i then s.slot i else if j = i then s.slot (i - 1) else s.slot j
      rw [getD_swapBefore 0 hpos (by omega) (by omega), h.slot i hi, h.slot (i - 1) (by omega),
        h.slot j hj]
    · intro j hj
      change _ = start.getD
        (if j + 1 = i then s.slot i else if j = i then s.slot (i - 1) else s.slot j).toNat 0
      rw [getD_swapBefore 0 hpos (by omega) (by omega), h.cost i hi, h.cost (i - 1) (by omega),
        h.cost j hj]
      split_ifs <;> rfl
  · rw [if_neg hlt, if_neg fun hk => hlt (hiff.2 hk)]
    exact h

/-- **A pass over the two arrays is a round of bubble sort.** -/
theorem sortRound_simulates {st : SortState} {s : Bubble.State UInt16}
    (h : SortSimulates start capacity st s) {finish : ℕ} (hfinish : finish ≤ capacity) :
    (sortRound (finish, st)).1 = (Bubble.round (slotKey start) (finish, s)).1 ∧
      SortSimulates start capacity (sortRound (finish, st)).2
        (Bubble.round (slotKey start) (finish, s)).2 := by
  have hsteps : ∀ m, m + 1 ≤ finish ∨ m = 0 → SortSimulates start capacity
      ((List.range' 1 m).foldl sortStep { st with last := 0 })
      ((List.range' 1 m).foldl (Bubble.step (slotKey start)) ⟨s.slot, 0⟩) := by
    intro m hm
    induction m with
    | zero => exact ⟨h.costs, h.slots, h.slot, h.cost, rfl⟩
    | succ m ih =>
        rw [List.range'_1_concat, List.foldl_append, List.foldl_append]
        exact sortStep_simulates (ih (by omega)) (by omega) (by omega)
  have hpass := hsteps (finish - 1) (by omega)
  exact ⟨hpass.last, hpass⟩

/-- The rounds of both stay together. -/
theorem sortRounds_simulate (k : ℕ) {finish : ℕ} {st : SortState} {s : Bubble.State UInt16}
    (h : SortSimulates start capacity st s) (hfinish : finish ≤ capacity)
    (hshrink : ∀ i < k, ((Bubble.round (slotKey start))^[i + 1] (finish, s)).1 ≤ capacity) :
    (sortRound^[k] (finish, st)).1 = ((Bubble.round (slotKey start))^[k] (finish, s)).1 ∧
      SortSimulates start capacity (sortRound^[k] (finish, st)).2
        ((Bubble.round (slotKey start))^[k] (finish, s)).2 := by
  induction k generalizing finish st s with
  | zero => exact ⟨rfl, h⟩
  | succ k ih =>
      obtain ⟨hfst, hsnd⟩ := sortRound_simulates h hfinish
      have hle := hshrink 0 (Nat.succ_pos k)
      rw [Function.iterate_succ_apply, Function.iterate_succ_apply]
      have hpair : sortRound (finish, st) =
          ((Bubble.round (slotKey start) (finish, s)).1, (sortRound (finish, st)).2) := by
        rw [← hfst]
      rw [hpair]
      refine ih hsnd hle fun i hi => ?_
      have hnext := hshrink (i + 1) (by omega)
      rwa [Function.iterate_succ_apply] at hnext

end Simulation

/-! ### The initial order -/

section Order

variable {used capacity : ℕ}

/-- A permutation that fixes the places from `used` on permutes the places before. -/
theorem take_perm_of_tail {order : List UInt16}
    (hperm : order.Perm ((List.range capacity).map UInt16.ofNat)) (hused : used ≤ capacity)
    (htail : ∀ j, used ≤ j → j < capacity → order.getD j 0 = UInt16.ofNat j) :
    (order.take used).Perm ((List.range used).map UInt16.ofNat) := by
  have hlen : order.length = capacity := by simpa using hperm.length_eq
  have hdrop : order.drop used = ((List.range capacity).map UInt16.ofNat).drop used := by
    refine List.ext_getElem (by simp [hlen]) ?_
    intro j h1 h2
    have hj : used + j < capacity := by
      rw [List.length_drop, hlen] at h1
      omega
    have hvalue := htail (used + j) (by omega) hj
    rw [List.getD_eq_getElem _ _ (by omega)] at hvalue
    simpa using hvalue
  have hsplit : ((List.range capacity).map UInt16.ofNat).take used =
      (List.range used).map UInt16.ofNat := by
    rw [← List.map_take, List.take_range, Nat.min_eq_left hused]
  rw [← List.take_append_drop used order,
    ← List.take_append_drop used ((List.range capacity).map UInt16.ofNat), hdrop] at hperm
  rw [← hsplit]
  exact (List.perm_append_right_iff _).1 hperm

/-- The state the sort starts in. -/
def sortStart (scores : List UInt16) (used capacity : ℕ) : SortState :=
  ⟨orderCosts scores used capacity, (List.range capacity).map UInt16.ofNat, 0⟩

theorem sortStart_simulates (scores : List UInt16) (hused : used ≤ capacity)
    (hmax : capacity ≤ 65535) :
    SortSimulates (orderCosts scores used capacity) capacity (sortStart scores used capacity)
      ⟨UInt16.ofNat, 0⟩ := by
  refine ⟨(orderCosts_eq scores hused hmax).1, by simp [sortStart], ?_, ?_, rfl⟩
  · intro j hj
    rw [sortStart, List.getD_eq_getElem _ _ (by simpa using hj)]
    simp
  · intro j hj
    have hback : (UInt16.ofNat j).toNat = j := by
      rw [UInt16.toNat_ofNat', Nat.mod_eq_of_lt (by omega)]
    dsimp only [sortStart]
    rw [hback]

theorem toNat_slot (hmax : capacity ≤ 65535) {j : ℕ} (hj : j < capacity) :
    (UInt16.ofNat j).toNat = j := by
  rw [UInt16.toNat_ofNat', Nat.mod_eq_of_lt (by omega)]

/-- Slots with equal costs stand in their original order. -/
def slotBefore (a b : UInt16) : Prop := a.toNat < b.toNat

/-- The start of the sort: nothing is sorted yet, and every slot is in its place. -/
theorem sortStart_sortedFrom (costs : List UInt32) (hused : used ≤ capacity)
    (hmax : capacity ≤ 65535) :
    Bubble.SortedFrom (slotKey costs) slotBefore UInt16.ofNat used used ⟨UInt16.ofNat, 0⟩ := by
  refine ⟨fun i j _ hj hf => by omega, fun i j hij hj _ => ?_, fun _ _ => rfl⟩
  rw [slotBefore, toNat_slot hmax (by omega : i < capacity),
    toNat_slot hmax (by omega : j < capacity)]
  exact hij

/-- What is known of an initial order: it names every slot once, the slots not in use keep their
places, and those in use stand by ascending cost, equal costs in their original order. -/
structure IsInitialOrder (scores : List UInt16) (used capacity : ℕ) (order : List UInt16) :
    Prop where
  perm : order.Perm ((List.range capacity).map UInt16.ofNat)
  tail : ∀ j, used ≤ j → j < capacity → order.getD j 0 = UInt16.ofNat j
  front : (order.take used).Perm ((List.range used).map UInt16.ofNat)
  sorted : ∀ i j, i < j → j < used →
    initialCost scores used capacity (order.getD i 0).toNat <
        initialCost scores used capacity (order.getD j 0).toNat ∨
      initialCost scores used capacity (order.getD i 0).toNat =
          initialCost scores used capacity (order.getD j 0).toNat ∧
        (order.getD i 0).toNat < (order.getD j 0).toNat

/-- The order of a sort that has come to its end. -/
theorem isInitialOrder_of_sorted {scores : List UInt16} {st : SortState}
    {s : Bubble.State UInt16} (hused : used ≤ capacity) (hmax : capacity ≤ 65535)
    (hperm : st.order.Perm ((List.range capacity).map UInt16.ofNat))
    (hsim : SortSimulates (orderCosts scores used capacity) capacity st s)
    (hsorted : Bubble.SortedFrom (slotKey (orderCosts scores used capacity)) slotBefore
      UInt16.ofNat used 1 s) :
    IsInitialOrder scores used capacity st.order := by
  have htail : ∀ j, used ≤ j → j < capacity → st.order.getD j 0 = UInt16.ofNat j := by
    intro j hj hj'
    rw [hsim.slot j hj']
    exact hsorted.outside j hj
  -- the tail holds the slots that are not in use, so the head holds the others
  have htake := take_perm_of_tail hperm hused htail
  have hkey : ∀ l < used, slotKey (orderCosts scores used capacity) (s.slot l) =
      initialCost scores used capacity (st.order.getD l 0).toNat := by
    intro l hl
    have hlen := hsim.slots
    have hmem : st.order.getD l 0 ∈ st.order.take used := by
      rw [List.getD_eq_getElem _ _ (by omega)]
      exact List.mem_take_iff_getElem.2 ⟨l, by omega, rfl⟩
    obtain ⟨k, hk, hslot⟩ := List.mem_map.1 (htake.mem_iff.1 hmem)
    have hk := List.mem_range.1 hk
    rw [← hsim.slot l (by omega), ← hslot, slotKey, toNat_slot hmax (by omega : k < capacity)]
    exact (orderCosts_eq scores hused hmax).2 k hk
  refine ⟨hperm, htail, htake, fun i j hij hj => ?_⟩
  have hle := hsorted.tail i j hij hj (by omega)
  rw [hkey i (by omega), hkey j hj] at hle
  rcases lt_or_eq_of_le hle with hlt | heq
  · exact Or.inl hlt
  · have hstable := hsorted.stable i j hij hj (by rw [hkey i (by omega), hkey j hj]; exact heq)
    rw [← hsim.slot i (by omega), ← hsim.slot j (by omega)] at hstable
    exact Or.inr ⟨heq, hstable⟩

/-- **The initial order**: the sort ends after at most `used` passes, with the slots in use by
ascending cost. -/
theorem enrollmentInitialOrder_sorted (scores : List UInt16) {scoreCount orderCount : ℕ}
    (hcapacity : 2 ≤ capacity) (hmax : capacity ≤ 65535) (hused : used ≤ capacity)
    (hscores : edgeCount capacity ≤ scoreCount) (horder : capacity ≤ orderCount) :
    ∃ passes ≤ used,
      (sortRound^[passes] (used, sortStart scores used capacity)).1 ≤ 1 ∧
      (∀ i < passes, 1 < (sortRound^[i] (used, sortStart scores used capacity)).1) ∧
      enrollmentInitialOrder scores scoreCount used capacity orderCount =
        some (sortRound^[passes] (used, sortStart scores used capacity)).2.order ∧
      IsInitialOrder scores used capacity
        (sortRound^[passes] (used, sortStart scores used capacity)).2.order := by
  obtain ⟨passes, hpasses, hend, hbefore, hshrink, hsorted⟩ :=
    Bubble.rounds_end used (sortStart_sortedFrom (orderCosts scores used capacity) hused hmax)
      le_rfl
  have hsim := fun k (hk : k ≤ passes) => sortRounds_simulate k
    (sortStart_simulates scores hused hmax) hused
    (fun i hi => (hshrink (i + 1) (by omega)).trans hused)
  have hend' : (sortRound^[passes] (used, sortStart scores used capacity)).1 ≤ 1 := by
    rw [(hsim passes le_rfl).1]
    exact hend
  have hbefore' : ∀ i < passes,
      1 < (sortRound^[i] (used, sortStart scores used capacity)).1 := by
    intro i hi
    rw [(hsim i hi.le).1]
    exact hbefore i hi
  have hresult := sortPasses_eq hpasses hend' hbefore'
  have hlen : ((List.range capacity).map UInt16.ofNat).length = capacity := by simp
  have hperm : (sortPasses used used (sortStart scores used capacity)).order.Perm
      ((List.range capacity).map UInt16.ofNat) :=
    (sortPasses_sorting used ⟨List.Perm.refl _, Or.inl rfl⟩ (hlen.symm ▸ hused)).perm
  rw [hresult] at hperm
  refine ⟨passes, hpasses, hend', hbefore', ?_,
    isInitialOrder_of_sorted hused hmax hperm (hsim passes le_rfl).2 hsorted⟩
  rw [enrollmentInitialOrder, if_neg (by omega)]
  exact congrArg (fun st : SortState => some st.order) hresult

end Order

/-! ### The graph and its order -/

/-- **The initial graph and order.**  In a graph that is created every edge of two used slots holds
the score recorded for the pair, and every other edge is zero; and its initial order exists, found
after finitely many passes. -/
theorem initialGraph_order (pairScores : List UInt16) (pairCount used : ℕ)
    (retentionCapacity : UInt8) (protection : UInt16) (graph : RetainedGraph)
    (h : retainedGraphCreate pairScores pairCount used retentionCapacity protection =
      some graph) :
    let capacity := max used retentionCapacity.toNat
    ∃ scores, graph.scores = some scores ∧ graph.used.toNat = used ∧
      graph.capacity.toNat = capacity ∧ scores.length = edgeCount capacity ∧
      (∀ earlier later, earlier < later → later < capacity →
        ∃ index, enrollmentPairIndex capacity earlier later = some index ∧
          scores[index]? = some (if later < used then
            pairScores.getD (later * (later - 1) / 2 + earlier) 0 else 0)) ∧
      ∃ passes ≤ used,
        (sortRound^[passes] (used, sortStart scores used capacity)).1 ≤ 1 ∧
        (∀ i < passes, 1 < (sortRound^[i] (used, sortStart scores used capacity)).1) ∧
        ∃ order, order = (sortRound^[passes] (used, sortStart scores used capacity)).2.order ∧
          enrollmentInitialOrder scores graph.scoreCount graph.used.toNat graph.capacity.toNat
            capacity = some order ∧
          IsInitialOrder scores used capacity order := by
  rw [retainedGraphCreate] at h
  split_ifs at h with hguard
  push Not at hguard
  dsimp only at h
  split_ifs at h with hsmall
  obtain rfl := Option.some.inj h
  have hbyte := UInt8.toNat_lt retentionCapacity
  have hused : used ≤ max used retentionCapacity.toNat := le_max_left _ _
  have hmax : max used retentionCapacity.toNat ≤ 255 := by omega
  generalize max used retentionCapacity.toNat = capacity at *
  have hcapacity : (UInt16.ofNat capacity).toNat = capacity := by
    rw [UInt16.toNat_ofNat', Nat.mod_eq_of_lt (by omega)]
  have hcount : (UInt16.ofNat used).toNat = used := by
    rw [UInt16.toNat_ofNat', Nat.mod_eq_of_lt (by omega)]
  have hpacked : Packed pairScores capacity used 0 (packScores pairScores used capacity) :=
    packScores_packed hused (by omega)
  obtain ⟨passes, hpasses, hend, hbefore, hrun, horder⟩ :=
    enrollmentInitialOrder_sorted (packScores pairScores used capacity) (by omega) (by omega)
      hused le_rfl le_rfl
  refine ⟨_, rfl, hcount, hcapacity, hpacked.length, ?_, passes, hpasses, hend, hbefore, _, rfl,
    ?_, horder⟩
  · intro earlier later hlt hlater
    refine ⟨_, enrollmentPairIndex_eq hlt hlater (by omega), ?_⟩
    split_ifs with hin
    · exact hpacked.edges earlier later hlt (Or.inl hin)
    · exact packScores_rest hused (by omega) hlt hlater (by omega)
  · dsimp only
    rw [hcapacity, hcount]
    exact hrun

/-- Three captures in a graph of four slots; the first two have equal costs. -/
theorem initialGraph_order_three :
    ∃ graph, retainedGraphCreate [5, 3, 3] 3 3 4 1 = some graph ∧
      graph.scores = some [5, 3, 0, 3, 0, 0] ∧
      ∃ scores, graph.scores = some scores ∧
        ∃ order, enrollmentInitialOrder scores graph.scoreCount graph.used.toNat
          graph.capacity.toNat 4 = some order ∧ IsInitialOrder scores 3 4 order := by
  obtain ⟨graph, hgraph⟩ : ∃ graph, retainedGraphCreate [5, 3, 3] 3 3 4 1 = some graph :=
    ⟨_, rfl⟩
  obtain ⟨scores, hscores, -, -, -, -, passes, -, -, -, order, -, hrun, horder⟩ :=
    initialGraph_order [5, 3, 3] 3 3 4 1 graph hgraph
  refine ⟨graph, hgraph, ?_, scores, hscores, order, hrun, horder⟩
  obtain rfl := Option.some.inj hgraph
  decide

end Fpc
