/-
**Which capture gives way.**

When every slot is taken, a new capture replaces the one that overlaps most with the others.  The
cost of a slot is the sum of the squared scores of its edges and of the new capture with it; slots
that have not matched for long go first, and of the others one must cost more than the new capture
would.  The code finds it in two scans that share an index and a running best; this is the greatest
cost over a list.

Main definitions:

* `Fpc.edgeScore`, `Fpc.slotCost`, `Fpc.newCost` — costs, over the natural numbers;
* `Fpc.replacement` — the slot that gives way, as a choice of the greatest cost.

Main results:

* `Fpc.captureCosts_exact` — the words the code computes are these costs;
* `Fpc.scans_replacement` — the two scans find the greatest cost;
* `Fpc.enrollmentSelectCapture_replacement` — **a full graph gives way to that slot**.
-/

import FpcReader.Lib.Triangle
import FpcReader.Native.Update
import Mathlib.Algebra.BigOperators.Group.Finset.Basic
import Mathlib.Algebra.BigOperators.Intervals
import Mathlib.Algebra.Order.BigOperators.Group.Finset
import Mathlib.Data.List.GetD
import Mathlib.Data.List.MinMax

set_option relaxedAutoImplicit false
set_option autoImplicit false

namespace Fpc

/-! ### Costs -/

/-- The score of the edge between two slots; there is none from a slot to itself. -/
def edgeScore (graph : List UInt16) (capacity i j : ℕ) : ℕ :=
  match enrollmentPairIndex capacity i j with
  | none => 0
  | some index => (graph.getD index 0).toNat

def slotCost (graph : List UInt16) (capacity : ℕ) (newScores : List UInt16) (i : ℕ) : ℕ :=
  (newScores.getD i 0).toNat ^ 2 +
    ∑ j ∈ (Finset.range capacity).erase i, edgeScore graph capacity i j ^ 2

def newCost (capacity : ℕ) (newScores : List UInt16) : ℕ :=
  ∑ i ∈ Finset.range capacity, (newScores.getD i 0).toNat ^ 2

theorem edgeScore_comm (graph : List UInt16) (capacity i j : ℕ) :
    edgeScore graph capacity i j = edgeScore graph capacity j i := by
  unfold edgeScore
  rw [enrollmentPairIndex_comm]

theorem squareScore_toNat (score : UInt16) :
    (squareScore score).toNat = score.toNat ^ 2 % 2 ^ 32 := by
  rw [squareScore, UInt32.toNat_mul, UInt16.toNat_toUInt32, sq]

/-- What the edges from slot `i` to the slots of a list add to the cost of slot `k`. -/
def edgeShare (graph : List UInt16) (capacity k i : ℕ) (slots : List ℕ) : ℕ :=
  (slots.map fun j => if k = i ∨ k = j then edgeScore graph capacity i j ^ 2 else 0).sum

/-- The cost of slot `k` after some steps: what it was and what has been added, as a word. -/
def CostAdds (cost cost' : List UInt32) (share : ℕ → ℕ) : Prop :=
  cost'.length = cost.length ∧ ∀ k < cost.length,
    (cost'.getD k 0).toNat = ((cost.getD k 0).toNat + share k) % 2 ^ 32

theorem CostAdds.trans {cost cost' cost'' : List UInt32} {share share' : ℕ → ℕ}
    (h : CostAdds cost cost' share) (h' : CostAdds cost' cost'' share') :
    CostAdds cost cost'' fun k => share k + share' k := by
  refine ⟨h'.1.trans h.1, fun k hk => ?_⟩
  rw [h'.2 k (h.1 ▸ hk), h.2 k hk, Nat.mod_add_mod, Nat.add_assoc]

theorem CostAdds.zero (cost : List UInt32) : CostAdds cost cost fun _ => 0 :=
  ⟨rfl, fun k _ => (Nat.mod_eq_of_lt (cost.getD k 0).toNat_lt).symm⟩

theorem getD_modify_add (cost : List UInt32) (i k : ℕ) (square : UInt32) (hk : k < cost.length) :
    (cost.modify i (· + square)).getD k 0 =
      if i = k then cost.getD k 0 + square else cost.getD k 0 := by
  rw [List.getD_eq_getElem _ _ (by rwa [List.length_modify]), List.getElem_modify,
    List.getD_eq_getElem _ _ hk]

theorem addEdgeCost_adds (graph : List UInt16) {capacity i j : ℕ} (hi : i < capacity)
    (hj : j < capacity) (hne : i ≠ j) (hmax : capacity ≤ 65535) (cost : List UInt32) :
    ∃ cost', addEdgeCost graph capacity i j cost = some cost' ∧
      CostAdds cost cost' fun k => edgeShare graph capacity k i [j] := by
  have hindex : ∃ index, enrollmentPairIndex capacity i j = some index := by
    unfold enrollmentPairIndex
    rw [if_neg (by omega)]
    exact ⟨_, rfl⟩
  obtain ⟨index, hindex⟩ := hindex
  have hscore : edgeScore graph capacity i j = (graph.getD index 0).toNat := by
    rw [edgeScore, hindex]
  refine ⟨_, by rw [addEdgeCost, hindex], by simp, fun k hk => ?_⟩
  rw [getD_modify_add _ _ _ _ (by rwa [List.length_modify]), getD_modify_add _ _ _ _ hk]
  simp only [edgeShare, List.map_cons, List.map_nil, List.sum_cons, List.sum_nil, Nat.add_zero]
  rw [hscore]
  by_cases hki : i = k
  · have hkj : j ≠ k := fun h => hne (hki.trans h.symm)
    rw [if_neg hkj, if_pos hki, if_pos (Or.inl hki.symm), UInt32.toNat_add, squareScore_toNat,
      Nat.add_mod_mod]
  · by_cases hkj : j = k
    · rw [if_pos hkj, if_neg hki, if_pos (Or.inr hkj.symm), UInt32.toNat_add, squareScore_toNat,
        Nat.add_mod_mod]
    · rw [if_neg hkj, if_neg hki, if_neg (by omega), Nat.add_zero,
        Nat.mod_eq_of_lt (cost.getD k 0).toNat_lt]

theorem edges_adds (graph : List UInt16) {capacity i : ℕ} (hi : i < capacity)
    (hmax : capacity ≤ 65535) {slots : List ℕ} (hslots : ∀ j ∈ slots, j < capacity ∧ i ≠ j)
    (cost : List UInt32) :
    ∃ cost', slots.foldlM (fun cost j => addEdgeCost graph capacity i j cost) cost = some cost' ∧
      CostAdds cost cost' fun k => edgeShare graph capacity k i slots := by
  induction slots generalizing cost with
  | nil => exact ⟨cost, rfl, .zero cost⟩
  | cons j slots ih =>
      obtain ⟨hj, hne⟩ := hslots j List.mem_cons_self
      obtain ⟨next, hnext, hadds⟩ := addEdgeCost_adds graph hi hj hne hmax cost
      obtain ⟨cost', hcost', hrest⟩ :=
        ih (fun j' hj' => hslots j' (List.mem_cons_of_mem _ hj')) next
      refine ⟨cost', by rw [List.foldlM_cons, hnext]; exact hcost', ?_⟩
      have := hadds.trans hrest
      simpa [edgeShare] using this

/-- The slots behind slot `i`. -/
def laterSlots (count i : ℕ) : List ℕ := List.range' (i + 1) (count - (i + 1))

theorem rows_adds (graph : List UInt16) {capacity : ℕ} (hmax : capacity ≤ 65535) {rows : List ℕ}
    (hrows : ∀ i ∈ rows, i < capacity) (cost : List UInt32) :
    ∃ cost', rows.foldlM (fun cost i => addRowCosts graph capacity capacity i cost) cost =
        some cost' ∧
      CostAdds cost cost' fun k =>
        (rows.map fun i => edgeShare graph capacity k i (laterSlots capacity i)).sum := by
  induction rows generalizing cost with
  | nil => exact ⟨cost, rfl, .zero cost⟩
  | cons i rows ih =>
      have hlater : ∀ j ∈ laterSlots capacity i, j < capacity ∧ i ≠ j := by
        intro j hj
        have := List.mem_range'_1.1 hj
        omega
      obtain ⟨next, hnext, hadds⟩ :=
        edges_adds graph (hrows i List.mem_cons_self) hmax hlater cost
      obtain ⟨cost', hcost', hrest⟩ :=
        ih (fun i' hi' => hrows i' (List.mem_cons_of_mem _ hi')) next
      refine ⟨cost', ?_, ?_⟩
      · rw [List.foldlM_cons]
        have hrow : addRowCosts graph capacity capacity i cost = some next := hnext
        rw [hrow]
        exact hcost'
      · have := hadds.trans hrest
        simpa using this

/-! ### The sums -/

theorem sum_map_range (f : ℕ → ℕ) (n : ℕ) :
    ((List.range n).map f).sum = ∑ i ∈ Finset.range n, f i := rfl

theorem sum_laterSlots (f : ℕ → ℕ) (n i : ℕ) :
    ((laterSlots n i).map f).sum = ∑ j ∈ Finset.Ico (i + 1) n, f j := by
  rw [laterSlots, List.range'_eq_map_range, List.map_map, sum_map_range,
    Finset.sum_Ico_eq_sum_range]
  rfl

@[simp]
theorem edgeScore_self (graph : List UInt16) (capacity k : ℕ) :
    edgeScore graph capacity k k = 0 := by
  unfold edgeScore enrollmentPairIndex
  rw [if_pos (by simp)]

/-- All edges, each counted at its lower end: slot `k` has those from it and those to it. -/
theorem edgeShares_sum (graph : List UInt16) (capacity : ℕ) {count k : ℕ} (hk : k < count) :
    ((List.range count).map fun i =>
        edgeShare graph capacity k i (laterSlots count i)).sum =
      ∑ j ∈ (Finset.range count).erase k, edgeScore graph capacity k j ^ 2 := by
  set f : ℕ → ℕ := fun j => edgeScore graph capacity k j ^ 2 with hf
  have hrow : ∀ i ∈ Finset.range count,
      edgeShare graph capacity k i (laterSlots count i) =
        (if k = i then ∑ j ∈ Finset.Ico (k + 1) count, f j else 0) +
          if i < k then f i else 0 := by
    intro i hi
    rw [edgeShare, sum_laterSlots]
    by_cases hki : k = i
    · subst hki
      rw [if_pos rfl, if_neg (lt_irrefl k), Nat.add_zero]
      exact Finset.sum_congr rfl fun j _ => by rw [if_pos (Or.inl rfl)]
    · rw [if_neg hki, Nat.zero_add]
      have hterm : ∀ j ∈ Finset.Ico (i + 1) count,
          (if k = i ∨ k = j then edgeScore graph capacity i j ^ 2 else 0) =
            if k = j then f i else 0 := by
        intro j _
        by_cases hkj : k = j
        · subst hkj
          rw [if_pos (Or.inr rfl), if_pos rfl, hf, edgeScore_comm]
        · rw [if_neg (by omega), if_neg hkj]
      rw [Finset.sum_congr rfl hterm, Finset.sum_ite_eq]
      by_cases hik : i < k
      · rw [if_pos (Finset.mem_Ico.2 ⟨hik, hk⟩), if_pos hik]
      · rw [if_neg (fun hmem => hik (Finset.mem_Ico.1 hmem).1), if_neg hik]
  have hbelow : ∑ i ∈ Finset.range count, (if i < k then f i else 0) =
      ∑ i ∈ Finset.range k, f i := by
    rw [← Finset.sum_filter]
    congr 1
    ext i
    rw [Finset.mem_filter, Finset.mem_range, Finset.mem_range]
    omega
  have hself : f k = 0 := by simp [hf]
  rw [sum_map_range, Finset.sum_congr rfl hrow, Finset.sum_add_distrib, Finset.sum_ite_eq,
    if_pos (Finset.mem_range.2 hk), hbelow, Finset.sum_erase _ hself,
    ← Finset.sum_range_add_sum_Ico f hk.le, Finset.sum_eq_sum_Ico_succ_bot hk, hself]
  omega

/-- No edge ends in the place of the new capture. -/
theorem edgeShares_new (graph : List UInt16) (capacity : ℕ) :
    ((List.range capacity).map fun i =>
        edgeShare graph capacity capacity i (laterSlots capacity i)).sum = 0 := by
  rw [sum_map_range]
  refine Finset.sum_eq_zero fun i hi => ?_
  rw [edgeShare, sum_laterSlots]
  refine Finset.sum_eq_zero fun j hj => if_neg ?_
  have hi := Finset.mem_range.1 hi
  have hj := Finset.mem_Ico.1 hj
  omega

theorem sum_toNat (words : List UInt32) :
    words.sum.toNat = (words.map UInt32.toNat).sum % 2 ^ 32 := by
  induction words with
  | nil => rfl
  | cons word words ih =>
      rw [List.sum_cons, UInt32.toNat_add, ih, List.map_cons, List.sum_cons, Nat.add_mod_mod]

/-! ### Small scores -/

/-- The scores of a graph and of a new capture are at most those of 300 features. -/
structure SmallScores (graph newScores : List UInt16) (capacity : ℕ) : Prop where
  edges : ∀ score ∈ graph.take (edgeCount capacity), score.toNat ≤ 300
  news : ∀ score ∈ newScores.take capacity, score.toNat ≤ 300

theorem getD_le_of_take {words : List UInt16} {n bound : ℕ}
    (h : ∀ word ∈ words.take n, word.toNat ≤ bound) {i : ℕ} (hi : i < n) :
    (words.getD i 0).toNat ≤ bound := by
  rcases Nat.lt_or_ge i words.length with hlt | hge
  · rw [List.getD_eq_getElem _ _ hlt]
    refine h _ (List.mem_iff_getElem.2 ⟨i, by rw [List.length_take]; omega, ?_⟩)
    rw [List.getElem_take]
  · rw [List.getD_eq_default _ _ hge]
    exact Nat.zero_le _

section Bounds

variable {graph newScores : List UInt16} {capacity : ℕ}

/-- A place of an edge is one of the graph. -/
theorem enrollmentPairIndex_lt {i j index : ℕ}
    (h : enrollmentPairIndex capacity i j = some index) : index < edgeCount capacity := by
  unfold enrollmentPairIndex at h
  split_ifs at h with hbad
  obtain rfl := Option.some.inj h
  exact Triangle.row_lt (by omega) (by omega)

theorem SmallScores.edgeScore_le (h : SmallScores graph newScores capacity) (i j : ℕ) :
    edgeScore graph capacity i j ≤ 300 := by
  unfold edgeScore
  cases hindex : enrollmentPairIndex capacity i j with
  | none => exact Nat.zero_le _
  | some index => exact getD_le_of_take h.edges (enrollmentPairIndex_lt hindex)

theorem sum_sq_le {s : Finset ℕ} {f : ℕ → ℕ} (hf : ∀ i ∈ s, f i ≤ 300) (hs : s.card ≤ 80) :
    ∑ i ∈ s, f i ^ 2 ≤ 80 * 300 ^ 2 := by
  refine (Finset.sum_le_card_nsmul s _ (300 ^ 2) fun i hi =>
    Nat.pow_le_pow_left (hf i hi) 2).trans ?_
  rw [nsmul_eq_mul, Nat.cast_id]
  exact Nat.mul_le_mul_right _ hs

/-- **The words the code computes are the costs**: small scores do not overflow. -/
theorem captureCosts_exact (h : SmallScores graph newScores capacity) (hcapacity : capacity ≤ 80) :
    ∃ cost, captureCosts graph capacity capacity newScores = some cost ∧
      (∀ i < capacity, (cost.getD i 0).toNat = slotCost graph capacity newScores i) ∧
      (cost.getD capacity 0).toNat = newCost capacity newScores := by
  set squares := (List.range capacity).map fun i => squareScore (newScores.getD i 0) with hsquares
  have hlength : (squares ++ [squares.sum]).length = capacity + 1 := by simp [hsquares]
  have hnew : ∀ i < capacity, (newScores.getD i 0).toNat ≤ 300 := fun i hi =>
    getD_le_of_take h.news hi
  have hsquare : ∀ i < capacity,
      (squareScore (newScores.getD i 0)).toNat = (newScores.getD i 0).toNat ^ 2 := by
    intro i hi
    have := Nat.pow_le_pow_left (hnew i hi) 2
    rw [squareScore_toNat, Nat.mod_eq_of_lt (by omega)]
  have hrows : ∀ i ∈ List.range capacity, i < capacity := fun i hi => List.mem_range.1 hi
  obtain ⟨cost, hcost, -, hadds⟩ := rows_adds graph (by omega) hrows (squares ++ [squares.sum])
  rw [hlength] at hadds
  dsimp only at hadds
  refine ⟨cost, hcost, fun i hi => ?_, ?_⟩
  · have hown : ((squares ++ [squares.sum]).getD i 0).toNat = (newScores.getD i 0).toNat ^ 2 := by
      have hlt : i < squares.length := by simpa [hsquares] using hi
      have hget : squares.getD i 0 = squareScore (newScores.getD i 0) := by
        rw [List.getD_eq_getElem _ _ hlt]
        simp only [hsquares, List.getElem_map, List.getElem_range]
      rw [List.getD_append _ _ _ _ hlt, hget, hsquare i hi]
    have hbound := sum_sq_le (s := (Finset.range capacity).erase i)
      (f := fun j => edgeScore graph capacity i j) (fun j _ => h.edgeScore_le i j)
      (by rw [Finset.card_erase_of_mem (Finset.mem_range.2 hi), Finset.card_range]; omega)
    have := Nat.pow_le_pow_left (hnew i hi) 2
    rw [hadds i (by omega), hown, edgeShares_sum graph _ hi, slotCost]
    exact Nat.mod_eq_of_lt (by omega)
  · have hlast : ((squares ++ [squares.sum]).getD capacity 0).toNat =
        newCost capacity newScores % 2 ^ 32 := by
      rw [List.getD_append_right _ _ _ _ (by simp [hsquares])]
      have hzero : capacity - squares.length = 0 := by simp [hsquares]
      rw [hzero]
      show squares.sum.toNat = _
      rw [sum_toNat, hsquares, List.map_map, sum_map_range, newCost]
      congr 1
      exact Finset.sum_congr rfl fun i hi => hsquare i (Finset.mem_range.1 hi)
    have hbound := sum_sq_le (s := Finset.range capacity)
      (f := fun i => (newScores.getD i 0).toNat) (fun i hi => hnew i (Finset.mem_range.1 hi))
      (by rw [Finset.card_range]; exact hcapacity)
    rw [hadds capacity (by omega), hlast, edgeShares_new, Nat.add_zero, Nat.mod_mod]
    exact Nat.mod_eq_of_lt (by unfold newCost; omega)

end Bounds

/-! ### The choice -/

/-- The slot that gives way: of the overdue slots the one of greatest cost; without any, the one of
greatest cost if it costs more than the new capture; the earliest one of those. -/
def replacement (cost : ℕ → ℕ) (newCost : ℕ) (aged : ℕ → Bool) (slots : List ℕ) : ℤ :=
  match (slots.filter aged).argmax cost with
  | some k => k
  | none =>
      match slots.argmax cost with
      | some k => if newCost < cost k then k else -1
      | none => -1

section Scans

variable {cost : List UInt32} {costs : ℕ → ℕ} (ages : List UInt16) (ageThreshold : UInt16)

/-- A slot is overdue. -/
def agedSlot (k : ℕ) : Bool := decide (ageThreshold ≤ ages.getD k 0)

/-- The costs of the slots of a list are words. -/
def CostsAre (cost : List UInt32) (costs : ℕ → ℕ) (slots : List UInt16) : Prop :=
  ∀ slot ∈ slots, (cost.getD slot.toNat 0).toNat = costs slot.toNat

theorem CostsAre.tail {slot : UInt16} {slots : List UInt16}
    (h : CostsAre cost costs (slot :: slots)) : CostsAre cost costs slots :=
  fun other hmem => h other (List.mem_cons_of_mem _ hmem)

/-- The second scan goes on from a slot to the overdue slot of greatest cost. -/
theorem scanAgedSlots_eq {slots : List UInt16} (h : CostsAre cost costs slots) {best : UInt32}
    {k : ℕ} (hbest : best.toNat = costs k) :
    (scanAgedSlots cost ages ageThreshold slots (best, k)).2 =
      match ((slots.map UInt16.toNat).filter (agedSlot ages ageThreshold)).argmax costs with
      | none => (k : ℤ)
      | some c => if costs k < costs c then (c : ℤ) else k := by
  induction slots generalizing best k with
  | nil => rfl
  | cons slot slots ih =>
      have hslot := h slot List.mem_cons_self
      rw [scanAgedSlots, List.map_cons]
      dsimp only
      by_cases haged : ageThreshold ≤ ages.getD slot.toNat 0
      · have hlt : best < cost.getD slot.toNat 0 ↔ costs k < costs slot.toNat := by
          rw [UInt32.lt_iff_toNat_lt, hbest, hslot]
        rw [List.filter_cons_of_pos (by simpa [agedSlot] using haged), List.argmax_cons]
        by_cases hless : costs k < costs slot.toNat
        · rw [if_pos ⟨hlt.2 hless, haged⟩, ih h.tail hslot]
          cases List.argmax costs
            ((slots.map UInt16.toNat).filter (agedSlot ages ageThreshold)) with
          | none => simp [hless]
          | some c =>
              dsimp only
              by_cases hc : costs slot.toNat < costs c
              · simp [hc, hless.trans hc]
              · simp [hc, hless]
        · rw [if_neg (fun hand => hless (hlt.1 hand.1)), ih h.tail hbest]
          cases List.argmax costs
            ((slots.map UInt16.toNat).filter (agedSlot ages ageThreshold)) with
          | none => simp [hless]
          | some c =>
              dsimp only
              by_cases hc : costs slot.toNat < costs c
              · simp [hc]
              · have hkc : ¬costs k < costs c := by omega
                simp [hc, hless, hkc]
      · rw [List.filter_cons_of_neg (by simpa [agedSlot] using haged),
          if_neg (fun hand => haged hand.2)]
        exact ih h.tail hbest

/-- **The two scans find the greatest cost.**  Until it meets an overdue slot the first one follows
the greatest cost of all; from there on only overdue slots count, and what came before is given up
even for less. -/
theorem scans_eq {slots : List UInt16} (h : CostsAre cost costs slots) {best : UInt32}
    {bestCost : ℕ} (hbest : best.toNat = bestCost) (selected : ℤ) :
    (scanAgedSlots cost ages ageThreshold
        (scanSlots cost ages ageThreshold slots (best, selected)).2
        (scanSlots cost ages ageThreshold slots (best, selected)).1).2 =
      match ((slots.map UInt16.toNat).filter (agedSlot ages ageThreshold)).argmax costs with
      | some k => (k : ℤ)
      | none =>
          match (slots.map UInt16.toNat).argmax costs with
          | some k => if bestCost < costs k then (k : ℤ) else selected
          | none => selected := by
  induction slots generalizing best bestCost selected with
  | nil => rfl
  | cons slot slots ih =>
      have hslot := h slot List.mem_cons_self
      rw [scanSlots, List.map_cons]
      dsimp only
      by_cases haged : ageThreshold ≤ ages.getD slot.toNat 0
      · -- the first overdue slot is taken whatever it costs, and the second scan goes on from it
        have hall := scanAgedSlots_eq ages ageThreshold h.tail hslot
        rw [List.filter_cons_of_pos (by simpa [agedSlot] using haged), List.argmax_cons,
          if_pos (Or.inr (by simpa using haged)), if_pos (by simpa using haged), hall]
        cases List.argmax costs ((slots.map UInt16.toNat).filter (agedSlot ages ageThreshold)) with
        | none => rfl
        | some c =>
            dsimp only
            split_ifs <;> rfl
      · have hlt : best < cost.getD slot.toNat 0 ↔ bestCost < costs slot.toNat := by
          rw [UInt32.lt_iff_toNat_lt, hbest, hslot]
        rw [List.filter_cons_of_neg (by simpa [agedSlot] using haged), List.argmax_cons]
        by_cases hless : bestCost < costs slot.toNat
        · rw [if_pos (Or.inl (hlt.2 hless)), if_neg (by simpa using haged), ih h.tail hslot]
          cases List.argmax costs
            ((slots.map UInt16.toNat).filter (agedSlot ages ageThreshold)) with
          | some c => rfl
          | none =>
              cases List.argmax costs (slots.map UInt16.toNat) with
              | none => simp [hless]
              | some c =>
                  dsimp only
                  by_cases hc : costs slot.toNat < costs c
                  · simp [hc, hless.trans hc]
                  · simp [hc, hless]
        · have hskip : ¬(best < cost.getD slot.toNat 0 ∨
              decide (ageThreshold ≤ ages.getD slot.toNat 0) = true) := by
            rintro (hbig | hold)
            · exact hless (hlt.1 hbig)
            · exact haged (of_decide_eq_true hold)
          rw [if_neg hskip, ih h.tail hbest]
          cases List.argmax costs
            ((slots.map UInt16.toNat).filter (agedSlot ages ageThreshold)) with
          | some c => rfl
          | none =>
              cases List.argmax costs (slots.map UInt16.toNat) with
              | none => simp [hless]
              | some c =>
                  dsimp only
                  by_cases hc : costs slot.toNat < costs c
                  · simp [hc]
                  · have hbc : ¬bestCost < costs c := by omega
                    simp [hc, hless, hbc]

end Scans

/-- The arrays of a full graph: as many scores as edges, every slot once in the order, and ages. -/
structure FullGraph (graph order : List UInt16) (capacity : ℕ) : Prop where
  two_le : 2 ≤ capacity
  scores : edgeCount capacity ≤ graph.length
  order : ((order.take capacity).map UInt16.toNat).Perm (List.range capacity)

/-- **A full graph gives way in the slot of greatest cost.** -/
theorem enrollmentSelectCapture_replacement {graph newScores order : List UInt16} {capacity : ℕ}
    (hgraph : FullGraph graph order capacity) (hscores : SmallScores graph newScores capacity)
    (hcapacity : capacity ≤ 80) (ages : List UInt16) (ageThreshold : UInt16)
    (protectedCount : ℕ) :
    enrollmentSelectCapture (some graph) graph.length capacity capacity newScores (some order)
        (some ages) protectedCount ageThreshold =
      some (replacement (slotCost graph capacity newScores) (newCost capacity newScores)
        (agedSlot ages ageThreshold)
        (((order.take capacity).map UInt16.toNat).drop protectedCount)) := by
  have htwo := hgraph.two_le
  have hslot : ∀ slot ∈ order.take capacity, slot.toNat < capacity := fun slot hmem =>
    List.mem_range.1 (hgraph.order.mem_iff.1 (List.mem_map_of_mem hmem))
  have hgood : ¬(graph.length < edgeCount capacity ∨
      ((order.take capacity).any fun slot => decide (capacity ≤ slot.toNat)) = true) := by
    rintro (hshort | hlarge)
    · exact absurd hshort (not_lt.2 hgraph.scores)
    · obtain ⟨slot, hmem, hle⟩ := List.any_eq_true.1 hlarge
      rw [decide_eq_true_eq] at hle
      exact absurd (hslot slot hmem) (not_lt.2 hle)
  obtain ⟨cost, hcost, hslots, hnew⟩ := captureCosts_exact hscores hcapacity
  have hcosts : CostsAre cost (slotCost graph capacity newScores)
      ((order.take capacity).drop protectedCount) := fun slot hmem =>
    hslots _ (hslot slot (List.mem_of_mem_drop hmem))
  unfold enrollmentSelectCapture
  rw [if_neg (by omega), if_neg (lt_irrefl capacity)]
  dsimp only
  rw [if_neg hgood, hcost]
  dsimp only
  rw [scans_eq ages ageThreshold hcosts hnew, List.map_drop]
  rfl

/-- Three slots, all edges of score one; the new capture overlaps with the second one most. -/
theorem enrollmentSelectCapture_replacement_three :
    enrollmentSelectCapture (some [1, 1, 1]) 3 3 3 [0, 2, 1] (some [2, 1, 0]) (some [0, 0, 0]) 0 9 =
      some 1 :=
  enrollmentSelectCapture_replacement ⟨by decide, by decide, by decide⟩
    ⟨by simp [edgeCount], by simp⟩ (by decide) [0, 0, 0] 9 0

end Fpc
