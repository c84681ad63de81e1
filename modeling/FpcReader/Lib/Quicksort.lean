/-
**Quicksort in place.**

An array is split around the value in its middle by two indices that run towards each other, and
both parts are sorted.  Values are compared by any function: what the sort relies on is that the
value in the middle compares with itself, for then both indices move at least once and both parts
are shorter than the whole.

Main definitions:

* `Quicksort.split` — the two running indices;
* `Quicksort.sort` — the recursion, on fuel.

Main results:

* `Quicksort.split_spec` — the indices meet within the array and have both moved;
* `Quicksort.sort_perm` — **the sort ends, with a permutation of the array**;
* `Quicksort.sort_sorted` — with the largest values first, when the comparison is total and
  transitive.
-/

import Mathlib.Data.List.Perm.Basic
import Mathlib.Data.Nat.Notation

set_option relaxedAutoImplicit false
set_option autoImplicit false

namespace Quicksort

variable {α : Type*}

/-- Two values change places; nothing happens outside of the array. -/
def swap (l : List α) (i j : ℕ) : List α :=
  match l[i]?, l[j]? with
  | some a, some b => (l.set i b).set j a
  | _, _ => l

theorem swap_perm (l : List α) (i j : ℕ) : (swap l i j).Perm l := by
  rw [swap]
  by_cases hi : i < l.length
  · by_cases hj : j < l.length
    · rw [List.getElem?_eq_getElem hi, List.getElem?_eq_getElem hj]
      exact List.set_set_perm hi hj
    · rw [List.getElem?_eq_none (Nat.le_of_not_lt hj)]
      cases l[i]? <;> exact List.Perm.refl l
  · rw [List.getElem?_eq_none (Nat.le_of_not_lt hi)]

/-- The indices run until they meet; `stop` is one more than the right one.  There is no result when
the fuel runs out or an index leaves the array. -/
def split (le : α → α → Bool) (pivot : α) : ℕ → ℕ → ℕ → List α → Option (ℕ × ℕ × List α)
  | 0, _, _, _ => none
  | fuel + 1, left, stop, l =>
      if left < stop then
        l[left]?.bind fun a =>
          l[stop - 1]?.bind fun b =>
            if le a pivot then
              -- a value equal to the pivot changes places as well
              if le pivot b then split le pivot fuel (left + 1) (stop - 1) (swap l left (stop - 1))
              else split le pivot fuel left (stop - 1) l
            else split le pivot fuel (left + 1) stop l
      else some (left, stop, l)

/-- The sort. -/
def sort (le : α → α → Bool) : ℕ → List α → Option (List α)
  | 0, _ => none
  | fuel + 1, l =>
      if l.length < 2 then some l
      else
        l[l.length / 2]?.bind fun pivot =>
          (split le pivot (l.length + 1) 0 l.length l).bind fun (left, stop, l) =>
            (sort le fuel (l.take stop)).bind fun front =>
              (sort le fuel (l.drop left)).map fun back =>
                front ++ ((l.drop stop).take (left - stop) ++ back)

variable {le : α → α → Bool} {pivot : α}

variable (le pivot) in
/-- **The indices meet.**  The right one has moved when some value between them is at most the
pivot, and the left one when some value is at least the pivot. -/
theorem split_spec {fuel left stop : ℕ} {l : List α} (hle : left ≤ stop + 1)
    (hstop : stop ≤ l.length) (hfuel : stop - left < fuel) :
    ∃ left' stop' l', split le pivot fuel left stop l = some (left', stop', l') ∧ l'.Perm l ∧
      left ≤ left' ∧ stop' ≤ stop ∧ stop' ≤ left' ∧ left' ≤ stop' + 1 ∧
      ((∃ p a, left ≤ p ∧ p < stop ∧ l[p]? = some a ∧ le a pivot = true) → stop' < stop) ∧
      ((∃ p a, left ≤ p ∧ p < stop ∧ l[p]? = some a ∧ le pivot a = true) → left < left') := by
  induction fuel generalizing left stop l with
  | zero => exact absurd hfuel (Nat.not_lt_zero _)
  | succ fuel ih =>
      rw [split]
      by_cases hlt : left < stop
      · have ha := List.getElem?_eq_getElem (l := l) (i := left) (by omega)
        have hb := List.getElem?_eq_getElem (l := l) (i := stop - 1) (by omega)
        rw [if_pos hlt, ha, Option.bind_some, hb, Option.bind_some]
        split_ifs with hsmall hlarge
        · -- both move
          have hperm := swap_perm l left (stop - 1)
          have hlength : stop - 1 ≤ (swap l left (stop - 1)).length := by
            rw [hperm.length_eq]
            omega
          have hnext : left + 1 ≤ stop - 1 + 1 := by omega
          obtain ⟨left', stop', l', hrun, hl', h1, h2, h3, h4, -, -⟩ :=
            ih hnext hlength (by omega)
          exact ⟨left', stop', l', hrun, hl'.trans hperm, by omega, by omega, h3, h4,
            fun _ => by omega, fun _ => by omega⟩
        · have hnext : left ≤ stop - 1 + 1 := by omega
          have hlength : stop - 1 ≤ l.length := by omega
          obtain ⟨left', stop', l', hrun, hl', h1, h2, h3, h4, -, h6⟩ :=
            ih hnext hlength (by omega)
          refine ⟨left', stop', l', hrun, hl', h1, by omega, h3, h4, fun _ => by omega, ?_⟩
          rintro ⟨p, a, hp, hps, hpa, hlea⟩
          -- the last value is smaller than the pivot, so the witness is another one
          have hne : p ≠ stop - 1 := by
            rintro rfl
            rw [hb, Option.some.injEq] at hpa
            exact hlarge (hpa ▸ hlea)
          exact h6 ⟨p, a, hp, by omega, hpa, hlea⟩
        · have hnext : left + 1 ≤ stop + 1 := by omega
          obtain ⟨left', stop', l', hrun, hl', h1, h2, h3, h4, h5, -⟩ :=
            ih hnext hstop (by omega)
          refine ⟨left', stop', l', hrun, hl', by omega, h2, h3, h4, ?_, fun _ => by omega⟩
          rintro ⟨p, a, hp, hps, hpa, hlea⟩
          have hne : p ≠ left := by
            rintro rfl
            rw [ha, Option.some.injEq] at hpa
            exact hsmall (hpa ▸ hlea)
          exact h5 ⟨p, a, by omega, hps, hpa, hlea⟩
      · rw [if_neg hlt]
        refine ⟨left, stop, l, rfl, List.Perm.refl l, Nat.le_refl _, Nat.le_refl _, by omega, hle,
          ?_, ?_⟩
        · rintro ⟨p, a, hp, hps, -⟩
          omega
        · rintro ⟨p, a, hp, hps, -⟩
          omega

/-- An array in three parts. -/
theorem take_middle_drop {l : List α} {stop left : ℕ} (h : stop ≤ left) :
    l.take stop ++ ((l.drop stop).take (left - stop) ++ l.drop left) = l := by
  have hdrop : l.drop left = (l.drop stop).drop (left - stop) := by
    rw [List.drop_drop]
    congr 1
    omega
  rw [hdrop, List.take_append_drop, List.take_append_drop]

/-- One level of the sort: the array is split into two shorter parts. -/
theorem sort_parts {l : List α} (hrefl : ∀ a ∈ l, le a a = true) (hlong : ¬l.length < 2) :
    ∃ pivot ∈ l, ∃ left stop l',
      split le pivot (l.length + 1) 0 l.length l = some (left, stop, l') ∧
      l'.Perm l ∧ stop ≤ left ∧ (l'.take stop).length < l.length ∧
      (l'.drop left).length < l.length ∧
      ∀ fuel, sort le (fuel + 1) l = (sort le fuel (l'.take stop)).bind fun front =>
        (sort le fuel (l'.drop left)).map fun back =>
          front ++ ((l'.drop stop).take (left - stop) ++ back) := by
  have hmiddle : l.length / 2 < l.length := by omega
  have hpivot := List.getElem?_eq_getElem hmiddle
  have hself := hrefl _ (List.getElem_mem hmiddle)
  obtain ⟨left, stop, l', hsplit, hperm, -, -, hmeet, hnear, hmoved, hmoved'⟩ :=
    split_spec le l[l.length / 2] (Nat.zero_le (l.length + 1)) (Nat.le_refl l.length)
      (Nat.lt_succ_of_le (Nat.sub_le l.length 0))
  -- the value in the middle stops both indices
  have hstop := hmoved ⟨l.length / 2, _, Nat.zero_le _, hmiddle, hpivot, hself⟩
  have hleft := hmoved' ⟨l.length / 2, _, Nat.zero_le _, hmiddle, hpivot, hself⟩
  have hlength := hperm.length_eq
  refine ⟨l[l.length / 2], List.getElem_mem hmiddle, left, stop, l', hsplit, hperm, hmeet, ?_, ?_,
    ?_⟩
  · rw [List.length_take]
    omega
  · rw [List.length_drop]
    omega
  · intro fuel
    rw [sort, if_neg hlong, hpivot, Option.bind_some, hsplit, Option.bind_some]

variable (le) in
/-- **The sort ends, with a permutation**, as long as every value compares with itself. -/
theorem sort_perm {fuel : ℕ} {l : List α} (hrefl : ∀ a ∈ l, le a a = true)
    (hfuel : l.length < fuel) : ∃ sorted, sort le fuel l = some sorted ∧ sorted.Perm l := by
  induction fuel generalizing l with
  | zero => exact absurd hfuel (Nat.not_lt_zero _)
  | succ fuel ih =>
      by_cases hshort : l.length < 2
      · rw [sort, if_pos hshort]
        exact ⟨l, rfl, List.Perm.refl l⟩
      obtain ⟨pivot, -, left, stop, l', -, hperm, hmeet, htake, hdrop, hsort⟩ :=
        sort_parts hrefl hshort
      obtain ⟨front, hfront, hfrontPerm⟩ := ih (l := l'.take stop)
        (fun a ha => hrefl a (hperm.mem_iff.1 (List.mem_of_mem_take ha))) (by omega)
      obtain ⟨back, hback, hbackPerm⟩ := ih (l := l'.drop left)
        (fun a ha => hrefl a (hperm.mem_iff.1 (List.mem_of_mem_drop ha))) (by omega)
      rw [hsort, hfront, Option.bind_some, hback, Option.map_some]
      have hparts := hfrontPerm.append
        ((List.Perm.refl ((l'.drop stop).take (left - stop))).append hbackPerm)
      rw [take_middle_drop hmeet] at hparts
      exact ⟨_, rfl, hparts.trans hperm⟩

/-! ### The order of the result -/

/-- Where the values are after two of them have changed places. -/
theorem getElem?_swap {l : List α} {i j : ℕ} (hi : i < l.length) (hj : j < l.length) (p : ℕ) :
    (swap l i j)[p]? = if p = j then l[i]? else if p = i then l[j]? else l[p]? := by
  rw [swap, List.getElem?_eq_getElem hi, List.getElem?_eq_getElem hj]
  simp only
  by_cases hpj : p = j
  · subst hpj
    rw [if_pos rfl, List.getElem?_set_self (by rwa [List.length_set])]
  · rw [if_neg hpj, List.getElem?_set_ne (Ne.symm hpj)]
    by_cases hpi : p = i
    · subst hpi
      rw [if_pos rfl, List.getElem?_set_self hi]
    · rw [if_neg hpi, List.getElem?_set_ne (Ne.symm hpi)]

/-- Before `left` all values are at least the pivot, from `stop` on they are at most the pivot. -/
structure Sides (le : α → α → Bool) (pivot : α) (left stop : ℕ) (l : List α) : Prop where
  before : ∀ p a, p < left → l[p]? = some a → le pivot a = true
  behind : ∀ p a, stop ≤ p → l[p]? = some a → le a pivot = true

/-- **The running indices leave the sides behind them.** -/
theorem split_sides {P : α → Prop} (htotal : ∀ a b, P a → P b → le a b = false → le b a = true)
    (hpivot : P pivot) {fuel left stop : ℕ} {l : List α} {left' stop' : ℕ} {l' : List α}
    (hl : ∀ a ∈ l, P a) (hrun : split le pivot fuel left stop l = some (left', stop', l'))
    (h : Sides le pivot left stop l) : Sides le pivot left' stop' l' := by
  induction fuel generalizing left stop l with
  | zero => cases hrun
  | succ fuel ih =>
      rw [split] at hrun
      by_cases hlt : left < stop
      · rw [if_pos hlt, Option.bind_eq_some_iff] at hrun
        obtain ⟨a, ha, hrun⟩ := hrun
        rw [Option.bind_eq_some_iff] at hrun
        obtain ⟨b, hb, hrun⟩ := hrun
        split_ifs at hrun with hsmall hlarge
        · -- both change places, and both are where they belong
          have hget := getElem?_swap (List.getElem?_eq_some_iff.1 ha).1
            (List.getElem?_eq_some_iff.1 hb).1
          have hswap : ∀ c ∈ swap l left (stop - 1), P c :=
            fun c hc => hl c ((swap_perm l left (stop - 1)).mem_iff.1 hc)
          refine ih hswap hrun ⟨?_, ?_⟩
          · intro p c hp hc
            rw [hget p] at hc
            split_ifs at hc with hpj hpi
            · obtain rfl : p = left := by omega
              rw [hpj, hb] at ha
              rw [hpj, hb] at hc
              exact Option.some.inj hc ▸ hlarge
            · rw [hb] at hc
              exact Option.some.inj hc ▸ hlarge
            · exact h.before p c (by omega) hc
          · intro p c hp hc
            rw [hget p] at hc
            split_ifs at hc with hpj hpi
            · rw [ha] at hc
              exact Option.some.inj hc ▸ hsmall
            · omega
            · exact h.behind p c (by omega) hc
        · refine ih hl hrun ⟨h.before, ?_⟩
          intro p c hp hc
          by_cases hps : p = stop - 1
          · rw [hps, hb] at hc
            have hPb : P b := hl b (List.mem_of_getElem? hb)
            exact Option.some.inj hc ▸ htotal _ _ hpivot hPb (Bool.eq_false_iff.2 hlarge)
          · exact h.behind p c (by omega) hc
        · refine ih hl hrun ⟨?_, h.behind⟩
          intro p c hp hc
          by_cases hpl : p = left
          · rw [hpl, ha] at hc
            have hPa : P a := hl a (List.mem_of_getElem? ha)
            exact Option.some.inj hc ▸ htotal _ _ hPa hpivot (Bool.eq_false_iff.2 hsmall)
          · exact h.before p c (by omega) hc
      · rw [if_neg hlt, Option.some.injEq, Prod.mk.injEq, Prod.mk.injEq] at hrun
        obtain ⟨rfl, rfl, rfl⟩ := hrun
        exact h

/-- Everything before `left`, and everything from `stop` on. -/
theorem Sides.mem {left stop : ℕ} {l : List α} (h : Sides le pivot left stop l) :
    (∀ a ∈ l.take left, le pivot a = true) ∧ ∀ a ∈ l.drop stop, le a pivot = true := by
  constructor
  · intro a ha
    obtain ⟨p, hp, hpa⟩ := List.mem_iff_getElem.1 ha
    rw [List.length_take] at hp
    exact h.before p a (by omega) (by rw [← hpa, List.getElem_take, List.getElem?_eq_getElem])
  · intro a ha
    obtain ⟨p, hp, hpa⟩ := List.mem_iff_getElem.1 ha
    rw [List.length_drop] at hp
    refine h.behind (stop + p) a (Nat.le_add_right _ _) ?_
    rw [← hpa, List.getElem_drop, List.getElem?_eq_getElem]

/-- **The largest values come first**, when the comparison is total and transitive on the values of
the array. -/
theorem sort_sorted {P : α → Prop} (htotal : ∀ a b, P a → P b → le a b = false → le b a = true)
    (htrans : ∀ a b c, P a → P b → P c → le a b = true → le b c = true → le a c = true) {fuel : ℕ}
    {l sorted : List α} (hl : ∀ a ∈ l, P a) (hfuel : l.length < fuel)
    (h : sort le fuel l = some sorted) : sorted.Pairwise fun a b => le b a = true := by
  have hself : ∀ a, P a → le a a = true := by
    intro a hPa
    cases ha : le a a with
    | true => rfl
    | false => exact ha.symm.trans (htotal a a hPa hPa ha)
  induction fuel generalizing l sorted with
  | zero => cases h
  | succ fuel ih =>
      by_cases hshort : l.length < 2
      · rw [sort, if_pos hshort] at h
        obtain rfl := Option.some.inj h
        match l, hshort with
        | [], _ => exact List.Pairwise.nil
        | [a], _ => exact List.pairwise_singleton _ a
      obtain ⟨pivot, hmember, left, stop, l', hsplit, hperm, hmeet, htake, hdrop, hsort⟩ :=
        sort_parts (fun a ha => hself a (hl a ha)) hshort
      have hl' : ∀ a ∈ l', P a := fun a ha => hl a (hperm.mem_iff.1 ha)
      have hpivot : P pivot := hl pivot hmember
      have htakeP : ∀ a ∈ l'.take stop, P a := fun a ha => hl' a (List.mem_of_mem_take ha)
      have hdropP : ∀ a ∈ l'.drop left, P a := fun a ha => hl' a (List.mem_of_mem_drop ha)
      obtain ⟨front, hfront, hfrontPerm⟩ := sort_perm le (fun a ha => hself a (htakeP a ha))
        (show (l'.take stop).length < fuel by omega)
      obtain ⟨back, hback, hbackPerm⟩ := sort_perm le (fun a ha => hself a (hdropP a ha))
        (show (l'.drop left).length < fuel by omega)
      rw [hsort, hfront, Option.bind_some, hback, Option.map_some] at h
      obtain rfl := Option.some.inj h
      obtain ⟨hbefore, hbehind⟩ := (split_sides htotal hpivot hl hsplit
        ⟨fun p a hp => absurd hp (Nat.not_lt_zero p), fun p a hp hpa => by
          rw [List.getElem?_eq_none hp] at hpa
          cases hpa⟩).mem
      -- values at least the pivot stand before values at most the pivot
      have hhigh : ∀ a ∈ front, le pivot a = true := by
        intro a ha
        have hmem := hfrontPerm.mem_iff.1 ha
        exact hbefore a ((List.take_subset_take_left l' hmeet) hmem)
      have hmiddle : ∀ a ∈ (l'.drop stop).take (left - stop),
          le pivot a = true ∧ le a pivot = true := by
        intro a ha
        refine ⟨hbefore a ?_, hbehind a (List.mem_of_mem_take ha)⟩
        have htake : (l'.drop stop).take (left - stop) = (l'.take left).drop stop :=
          List.drop_take.symm
        exact List.mem_of_mem_drop (htake ▸ ha)
      have hlow : ∀ a ∈ back, le a pivot = true := by
        intro a ha
        have hmem := hbackPerm.mem_iff.1 ha
        exact hbehind a (List.drop_subset_drop_left l' hmeet hmem)
      have hfrontP : ∀ a ∈ front, P a := fun a ha => htakeP a (hfrontPerm.mem_iff.1 ha)
      have hmiddleP : ∀ a ∈ (l'.drop stop).take (left - stop), P a :=
        fun a ha => hl' a (List.mem_of_mem_drop (List.mem_of_mem_take ha))
      have hbackP : ∀ a ∈ back, P a := fun a ha => hdropP a (hbackPerm.mem_iff.1 ha)
      refine List.pairwise_append.2 ⟨ih htakeP (by omega) hfront, List.pairwise_append.2
        ⟨?_, ih hdropP (by omega) hback, ?_⟩, ?_⟩
      · refine List.pairwise_iff_forall_sublist.2 ?_
        intro a b hab
        have hamem := hab.subset (List.mem_cons_self (a := a))
        have hbmem := hab.subset (List.mem_cons_of_mem a (List.mem_singleton.2 rfl : b ∈ [b]))
        exact htrans _ _ _ (hmiddleP b hbmem) hpivot (hmiddleP a hamem) (hmiddle b hbmem).2
          (hmiddle a hamem).1
      · intro a ha b hb
        exact htrans _ _ _ (hbackP b hb) hpivot (hmiddleP a ha) (hlow b hb) (hmiddle a ha).1
      · intro a ha b hb
        rcases List.mem_append.1 hb with hb | hb
        · exact htrans _ _ _ (hmiddleP b hb) hpivot (hfrontP a ha) (hmiddle b hb).2 (hhigh a ha)
        · exact htrans _ _ _ (hbackP b hb) hpivot (hfrontP a ha) (hlow b hb) (hhigh a ha)

end Quicksort
