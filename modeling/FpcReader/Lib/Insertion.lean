/-
**Insertion sort.**

The elements of an array are taken one after the other; each is kept aside while the smaller ones
before it move up by one place, and is put where they stop.  An element stops behind one of the same
key, so elements of one key keep their order.

Main definitions:

* `Insertion.shift` — moving smaller elements up and putting one in its place;
* `Insertion.sort` — the whole loop.

Main results:

* `Insertion.shift_spec` — where the element is put;
* `Insertion.sort_spec` — **the result is a permutation, by decreasing keys, and stable**.
-/

import FpcReader.Lib.Loops

set_option relaxedAutoImplicit false
set_option autoImplicit false

namespace Insertion

variable {α β : Type*} [LinearOrder β]

/-- Move the elements before place `j` with a smaller key than `x` up; put `x` where they stop. -/
def shift (key : α → β) (x : α) : ℕ → List α → List α
  | 0, values => values.set 0 x
  | j + 1, values =>
      match values[j]? with
      | some y =>
          if key y < key x then shift key x j (values.set (j + 1) y) else values.set (j + 1) x
      | none => values.set (j + 1) x

/-- Sort an array by decreasing keys. -/
def sort (key : α → β) (values : List α) : List α :=
  (List.range (values.length - 1)).foldl (fun values i =>
    match values[i + 1]? with
    | some x => shift key x (i + 1) values
    | none => values) values

/-- **Where an element is put**: in front of the smaller ones it was moved past. -/
theorem shift_spec (key : α → β) (x : α) {before : List α} {j : ℕ} (rest : List α) (old : α)
    (hj : before.length = j) :
    ∃ front back, before = front ++ back ∧ (∀ b ∈ back, key b < key x) ∧
      (∀ a ∈ front.getLast?, key x ≤ key a) ∧
      shift key x j (before ++ old :: rest) = front ++ x :: (back ++ rest) := by
  induction j generalizing before rest old with
  | zero =>
      obtain rfl := List.eq_nil_of_length_eq_zero hj
      exact ⟨[], [], rfl, by simp, by simp, rfl⟩
  | succ j ih =>
      obtain ⟨init, y, rfl⟩ : ∃ init y, before = init ++ [y] := by
        refine ⟨before.dropLast, before.getLast ?_, (List.dropLast_append_getLast _).symm⟩
        exact List.ne_nil_of_length_pos (by omega)
      have hinit : init.length = j := by simpa using hj
      have hread : (init ++ [y] ++ old :: rest)[j]? = some y := by
        rw [List.append_assoc, List.getElem?_append_right (by omega), hinit, Nat.sub_self]
        rfl
      have hwrite : ∀ z, (init ++ [y] ++ old :: rest).set (j + 1) z = init ++ y :: z :: rest := by
        intro z
        rw [List.set_append_right _ _ (by omega), hj, Nat.sub_self, List.append_assoc]
        rfl
      rw [shift, hread]
      dsimp only
      rw [hwrite, hwrite]
      split_ifs with hlt
      · obtain ⟨front, back, hsplit, hback, hfront, hshift⟩ := ih (y :: rest) y hinit
        refine ⟨front, back ++ [y], by rw [hsplit, List.append_assoc], ?_, hfront, ?_⟩
        · intro b hb
          rcases List.mem_append.1 hb with hb | hb
          · exact hback b hb
          · rw [List.mem_singleton.1 hb]
            exact hlt
        · rw [hshift, List.append_assoc]
          rfl
      · refine ⟨init ++ [y], [], by simp, by simp, ?_, by simp⟩
        intro a ha
        rw [List.getLast?_concat, Option.mem_some_iff] at ha
        rw [← ha]
        exact not_lt.1 hlt

/-- By decreasing keys, those of one key in an order of their own. -/
def Ranked (key : α → β) (Q : α → α → Prop) (a b : α) : Prop :=
  key b < key a ∨ (key a = key b ∧ Q a b)

/-- Putting an element in its place keeps the order. -/
theorem pairwise_insert {key : α → β} {Q : α → α → Prop} {front back : List α} {x : α}
    (hsorted : (front ++ back).Pairwise (Ranked key Q)) (hQ : ∀ a ∈ front ++ back, Q a x)
    (hback : ∀ b ∈ back, key b < key x) (hfront : ∀ a ∈ front.getLast?, key x ≤ key a) :
    (front ++ x :: back).Pairwise (Ranked key Q) := by
  obtain ⟨hpre, hpost, hacross⟩ := List.pairwise_append.1 hsorted
  -- everything in front is at least as large as its last element
  have hlarge : ∀ a ∈ front, key x ≤ key a := by
    rcases List.eq_nil_or_concat front with rfl | ⟨init, last, rfl⟩
    · simp
    · rw [List.concat_eq_append] at hpre hfront ⊢
      have hlast : key x ≤ key last := hfront last (by simp)
      intro a ha
      rcases List.mem_append.1 ha with ha | ha
      · rcases (List.pairwise_append.1 hpre).2.2 a ha last (by simp) with hlt | ⟨heq, -⟩
        · exact hlast.trans hlt.le
        · exact hlast.trans heq.ge
      · rw [List.mem_singleton.1 ha]
        exact hlast
  refine List.pairwise_append.2 ⟨hpre, List.pairwise_cons.2 ⟨?_, hpost⟩, ?_⟩
  · intro b hb
    exact Or.inl (hback b hb)
  · intro a ha b hb
    rcases List.mem_cons.1 hb with rfl | hb
    · rcases (hlarge a ha).lt_or_eq with hlt | heq
      · exact Or.inl hlt
      · exact Or.inr ⟨heq.symm, hQ a (List.mem_append_left _ ha)⟩
    · exact hacross a ha b hb

/-- **The result is a permutation by decreasing keys in which elements of one key keep their
order.** -/
theorem sort_spec (key : α → β) {Q : α → α → Prop} {values : List α} (hQ : values.Pairwise Q) :
    (sort key values).Perm values ∧ (sort key values).Pairwise (Ranked key Q) := by
  have h : ∀ m ≤ values.length - 1, ∃ sorted,
      (List.range m).foldl (fun values i =>
        match values[i + 1]? with
        | some x => shift key x (i + 1) values
        | none => values) values = sorted ++ values.drop (m + 1) ∧
      sorted.Perm (values.take (m + 1)) ∧ sorted.Pairwise (Ranked key Q) := by
    intro m hm
    induction m with
    | zero =>
        refine ⟨values.take 1, (List.take_append_drop 1 values).symm, List.Perm.refl _, ?_⟩
        cases values with
        | nil => simp
        | cons a values => simp
    | succ m ih =>
        obtain ⟨sorted, hfold, hperm, hsorted⟩ := ih (by omega)
        have hlt : m + 1 < values.length := by omega
        have hlength : sorted.length = m + 1 := by
          rw [hperm.length_eq, List.length_take]
          omega
        have hdrop : values.drop (m + 1) = values[m + 1] :: values.drop (m + 1 + 1) :=
          List.drop_eq_getElem_cons hlt
        have hread : (sorted ++ values.drop (m + 1))[m + 1]? = some values[m + 1] := by
          rw [List.getElem?_append_right (by omega), hlength, Nat.sub_self, hdrop]
          rfl
        obtain ⟨front, back, hsplit, hback, hfront, hshift⟩ :=
          shift_spec key values[m + 1] (values.drop (m + 1 + 1)) values[m + 1] hlength
        have htake : values.take (m + 1 + 1) = values.take (m + 1) ++ [values[m + 1]] :=
          (List.take_append_getElem hlt).symm
        have hearlier : ∀ a ∈ front ++ back, Q a values[m + 1] := by
          intro a ha
          rw [← hsplit] at ha
          have htaken := hQ.take (i := m + 1 + 1)
          rw [htake] at htaken
          exact (List.pairwise_append.1 htaken).2.2 a (hperm.mem_iff.1 ha) _ (by simp)
        refine ⟨front ++ values[m + 1] :: back, ?_, ?_, ?_⟩
        · rw [Scans.foldl_range_succ, hfold, hread]
          dsimp only
          rw [hdrop, hshift, List.append_assoc]
          rfl
        · rw [htake]
          refine List.perm_middle.trans ?_
          rw [← hsplit]
          exact (hperm.cons _).trans (List.perm_append_singleton _ _).symm
        · exact pairwise_insert (hsplit ▸ hsorted) hearlier hback hfront
  obtain ⟨sorted, hfold, hperm, hsorted⟩ := h (values.length - 1) le_rfl
  have hall : values.length ≤ values.length - 1 + 1 := by omega
  rw [List.drop_eq_nil_of_le hall, List.append_nil] at hfold
  rw [List.take_of_length_le hall] at hperm
  have hsort : sort key values = sorted := hfold
  rw [hsort]
  exact ⟨hperm, hsorted⟩

end Insertion
