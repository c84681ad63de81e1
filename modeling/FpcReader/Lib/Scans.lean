/-
**Loops that scan an index range.**

Two scans recur in matching code, besides running maxima: the running minimum, which remembers the
first index that attains it, and the greedy suppression pass, which walks the flagged indices
upwards and clears every later flag that is too close to one still set.  Both are folds over
`List.range`, exactly as the loops run; this module says what they compute.

Main definitions:

* `Scans.firstMin` — the running strict minimum, started at a cap and at index zero;
* `Scans.IsFirstMin` — the first index of the minimum of `f` over `0, …, n - 1`;
* `Scans.suppress` — the double loop of greedy suppression, with its running counter.

Main results:

* `Scans.firstMin_spec` — **the running minimum finds the first index of the minimum**;
* `Scans.suppress_flag_iff` — **an index stays flagged iff it was flagged and no earlier index that
  stays flagged is close to it**;
* `Scans.suppress_counted` — the running counter is the number of flags that are left;
* `Scans.le_foldl_max`, `Scans.foldl_max_lt` — bounds of a running maximum.
-/

import Mathlib.Data.List.Basic
import Mathlib.Data.List.GetD
import Mathlib.Order.Lattice
import Mathlib.Tactic.Linarith
import Mathlib.Tactic.Tauto

set_option relaxedAutoImplicit false
set_option autoImplicit false

namespace Scans

theorem foldl_range_succ {σ : Type*} (step : σ → ℕ → σ) (s : σ) (n : ℕ) :
    (List.range (n + 1)).foldl step s = step ((List.range n).foldl step s) n := by
  rw [List.range_succ, List.foldl_append]
  rfl

/-- Storing changes one place of an array. -/
theorem getD_set {α : Type*} {array : List α} {i : ℕ} (hi : i < array.length) (a d : α) (j : ℕ) :
    (array.set i a).getD j d = if j = i then a else array.getD j d := by
  rw [List.getD_eq_getElem?_getD, List.getElem?_set, List.getD_eq_getElem?_getD]
  by_cases h : i = j
  · rw [if_pos h, if_pos h.symm, if_pos (h ▸ hi)]
    rfl
  · rw [if_neg h, if_neg (Ne.symm h)]

/-! ### The running minimum -/

section FirstMin

variable {β : Type*} [LinearOrder β]

/-- The running strict minimum of `f 0, …, f (n - 1)` and the index it was found at, started at
`cap` and at index zero. -/
def firstMin (cap : β) (f : ℕ → β) (n : ℕ) : β × ℕ :=
  (List.range n).foldl (fun best i => if f i < best.1 then (f i, i) else best) (cap, 0)

/-- `k` is the first index below `n` at which `f` takes its minimum. -/
structure IsFirstMin (f : ℕ → β) (n k : ℕ) : Prop where
  /-- The index is in range. -/
  lt : k < n
  /-- Nothing in range is smaller. -/
  le : ∀ i < n, f k ≤ f i
  /-- Everything before it is strictly larger. -/
  first : ∀ i < k, f k < f i

/-- Only the values in range matter. -/
theorem IsFirstMin.congr {f g : ℕ → β} {n k : ℕ} (hfg : ∀ i < n, f i = g i)
    (h : IsFirstMin f n k) : IsFirstMin g n k := by
  refine ⟨h.lt, fun i hi => ?_, fun i hi => ?_⟩
  · rw [← hfg k h.lt, ← hfg i hi]
    exact h.le i hi
  · rw [← hfg k h.lt, ← hfg i (hi.trans h.lt)]
    exact h.first i hi

/-- The first index of the minimum is unique. -/
theorem IsFirstMin.unique {f : ℕ → β} {n k l : ℕ} (hk : IsFirstMin f n k)
    (hl : IsFirstMin f n l) : k = l := by
  rcases lt_trichotomy k l with h | h | h
  · exact absurd (hl.first k h) (not_lt.2 (hk.le l hl.lt))
  · exact h
  · exact absurd (hk.first l h) (not_lt.2 (hl.le k hk.lt))

theorem firstMin_succ (cap : β) (f : ℕ → β) (n : ℕ) :
    firstMin cap f (n + 1) =
      if f n < (firstMin cap f n).1 then (f n, n) else firstMin cap f n := by
  rw [firstMin, foldl_range_succ]
  rfl

/-- Either nothing below the cap has been seen, or the pair is the first minimum so far. -/
theorem firstMin_cases (cap : β) (f : ℕ → β) (n : ℕ) :
    (firstMin cap f n = (cap, 0) ∧ ∀ i < n, cap ≤ f i) ∨
      (IsFirstMin f n (firstMin cap f n).2 ∧ (firstMin cap f n).1 = f (firstMin cap f n).2 ∧
        (firstMin cap f n).1 < cap) := by
  induction n with
  | zero => exact Or.inl ⟨rfl, by simp⟩
  | succ n ih =>
      rw [firstMin_succ]
      split_ifs with h
      · refine Or.inr ⟨⟨Nat.lt_succ_self n, ?_, ?_⟩, rfl, ?_⟩
        · intro i hi
          rcases ih with ⟨he, hall⟩ | ⟨hmin, he, hcap⟩
          · rw [he] at h
            rcases Nat.lt_succ_iff_lt_or_eq.1 hi with hi | rfl
            · exact h.le.trans (hall i hi)
            · exact le_rfl
          · rcases Nat.lt_succ_iff_lt_or_eq.1 hi with hi | rfl
            · exact h.le.trans (he ▸ hmin.le i hi)
            · exact le_rfl
        · intro i hi
          rcases ih with ⟨he, hall⟩ | ⟨hmin, he, hcap⟩
          · rw [he] at h
            exact h.trans_le (hall i hi)
          · exact h.trans_le (he ▸ hmin.le i hi)
        · rcases ih with ⟨he, -⟩ | ⟨-, -, hcap⟩
          · rwa [he] at h
          · exact h.trans hcap
      · rcases ih with ⟨he, hall⟩ | ⟨hmin, he, hcap⟩
        · refine Or.inl ⟨he, ?_⟩
          intro i hi
          rcases Nat.lt_succ_iff_lt_or_eq.1 hi with hi | rfl
          · exact hall i hi
          · rw [he] at h
            exact not_lt.1 h
        · refine Or.inr ⟨⟨hmin.lt.trans (Nat.lt_succ_self n), ?_, hmin.first⟩, he, hcap⟩
          intro i hi
          rcases Nat.lt_succ_iff_lt_or_eq.1 hi with hi | rfl
          · exact hmin.le i hi
          · rw [← he]
            exact not_lt.1 h

/-- **The running minimum finds the first index of the minimum**, provided no value exceeds the
cap it was started at. -/
theorem firstMin_spec (cap : β) (f : ℕ → β) {n : ℕ} (hn : 0 < n) (hcap : ∀ i < n, f i ≤ cap) :
    IsFirstMin f n (firstMin cap f n).2 ∧ (firstMin cap f n).1 = f (firstMin cap f n).2 := by
  rcases firstMin_cases cap f n with ⟨he, hall⟩ | ⟨hmin, he, -⟩
  · rw [he]
    have h0 : f 0 = cap := le_antisymm (hcap 0 hn) (hall 0 hn)
    exact ⟨⟨hn, fun i hi => h0 ▸ hall i hi, by simp⟩, h0.symm⟩
  · exact ⟨hmin, he⟩

end FirstMin

/-! ### Greedy suppression -/

/-- The flag of index `j`; indices past the end are not flagged. -/
def flag (flags : List Bool) (j : ℕ) : Bool := flags.getD j false

@[simp] theorem flag_set (flags : List Bool) (i j : ℕ) (b : Bool) (hi : i < flags.length) :
    flag (flags.set i b) j = if i = j then b else flag flags j := by
  unfold flag
  rw [List.getD_eq_getElem?_getD, List.getElem?_set]
  split_ifs with h
  · subst h
    simp
  · rw [List.getD_eq_getElem?_getD]

theorem flag_lt {flags : List Bool} {j : ℕ} (h : flag flags j = true) : j < flags.length := by
  by_contra hj
  rw [flag, List.getD_eq_default _ _ (not_lt.1 hj)] at h
  cases h

/-- The inner loop for a flagged index `i`: every later flag close to it is cleared, and the
counter goes down with each. -/
def suppressFrom (close : ℕ → ℕ → Bool) (n i : ℕ) (st : List Bool × ℕ) : List Bool × ℕ :=
  (List.range (n - (i + 1))).foldl
    (fun st k =>
      let j := i + 1 + k
      if flag st.1 j && close i j then (st.1.set j false, st.2 - 1) else st) st

/-- The double loop: the indices upwards, the inner loop for those still flagged. -/
def suppress (close : ℕ → ℕ → Bool) (n : ℕ) (st : List Bool × ℕ) : List Bool × ℕ :=
  (List.range n).foldl (fun st i => if flag st.1 i then suppressFrom close n i st else st) st

/-- The counter is the number of flags. -/
def Counted (st : List Bool × ℕ) : Prop := st.2 = st.1.count true

theorem Counted.clear {st : List Bool × ℕ} (h : Counted st) {j : ℕ} (hj : flag st.1 j = true) :
    Counted (st.1.set j false, st.2 - 1) := by
  have hlt := flag_lt hj
  have hget : st.1[j] = true := by
    rwa [flag, List.getD_eq_getElem _ _ hlt] at hj
  simp only [Counted] at h ⊢
  rw [List.count_set hlt, h, hget]
  simp

/-- The inner loop, run for the first `m` later indices. -/
theorem suppressFrom_steps (close : ℕ → ℕ → Bool) (i m : ℕ) (st : List Bool × ℕ) :
    let st' := (List.range m).foldl
      (fun st k =>
        let j := i + 1 + k
        if flag st.1 j && close i j then (st.1.set j false, st.2 - 1) else st) st
    st'.1.length = st.1.length ∧ (Counted st → Counted st') ∧
      ∀ j, flag st'.1 j = (flag st.1 j && !(decide (i < j ∧ j < i + 1 + m) && close i j)) := by
  induction m with
  | zero =>
      refine ⟨rfl, id, ?_⟩
      intro j
      have hnone : ¬(i < j ∧ j < i + 1 + 0) := by omega
      rw [decide_eq_false hnone]
      simp
  | succ m ih =>
      obtain ⟨hlen, hcount, hflag⟩ := ih
      rw [foldl_range_succ]
      set st' := (List.range m).foldl
        (fun st k =>
          let j := i + 1 + k
          if flag st.1 j && close i j then (st.1.set j false, st.2 - 1) else st) st with hst'
      dsimp only
      split_ifs with h
      · rw [Bool.and_eq_true] at h
        refine ⟨by simp [hlen], fun hc => (hcount hc).clear h.1, ?_⟩
        intro j
        rw [flag_set _ _ _ _ (flag_lt h.1), hflag j]
        by_cases hj : i + 1 + m = j
        · subst hj
          have hin : i < i + 1 + m ∧ i + 1 + m < i + 1 + (m + 1) := by omega
          simp [h.2, hin]
        · have : (i < j ∧ j < i + 1 + (m + 1)) ↔ (i < j ∧ j < i + 1 + m) := by omega
          simp [hj, this]
      · refine ⟨hlen, hcount, ?_⟩
        intro j
        rw [hflag j]
        by_cases hj : i + 1 + m = j
        · subst hj
          have hm := hflag (i + 1 + m)
          have hno : ¬(i < i + 1 + m ∧ i + 1 + m < i + 1 + m) := by omega
          simp only [hno, decide_false, Bool.false_and, Bool.not_false, Bool.and_true] at hm
          rw [hm] at h
          cases hf : flag st.1 (i + 1 + m) <;> simp_all
        · have : (i < j ∧ j < i + 1 + (m + 1)) ↔ (i < j ∧ j < i + 1 + m) := by omega
          simp [this]

theorem suppressFrom_length (close : ℕ → ℕ → Bool) (n i : ℕ) (st : List Bool × ℕ) :
    (suppressFrom close n i st).1.length = st.1.length :=
  (suppressFrom_steps close i (n - (i + 1)) st).1

theorem suppressFrom_counted {close : ℕ → ℕ → Bool} {n i : ℕ} {st : List Bool × ℕ}
    (h : Counted st) : Counted (suppressFrom close n i st) :=
  (suppressFrom_steps close i (n - (i + 1)) st).2.1 h

/-- The inner loop clears exactly the later flags in range that are close to `i`. -/
theorem suppressFrom_flag (close : ℕ → ℕ → Bool) (n i : ℕ) (st : List Bool × ℕ) (j : ℕ) :
    flag (suppressFrom close n i st).1 j =
      (flag st.1 j && !(decide (i < j ∧ j < n) && close i j)) := by
  rw [suppressFrom, (suppressFrom_steps close i (n - (i + 1)) st).2.2 j]
  have : (i < j ∧ j < i + 1 + (n - (i + 1))) ↔ (i < j ∧ j < n) := by omega
  simp [this]

/-- The double loop, run for the first `m` indices. -/
theorem suppress_steps (close : ℕ → ℕ → Bool) (n m : ℕ) (st : List Bool × ℕ) :
    let st' := (List.range m).foldl
      (fun st i => if flag st.1 i then suppressFrom close n i st else st) st
    st'.1.length = st.1.length ∧ (Counted st → Counted st') ∧
      ∀ j < n, flag st'.1 j = true ↔
        flag st.1 j = true ∧ ∀ i < m, i < j → flag st'.1 i = true → close i j = false := by
  induction m with
  | zero => exact ⟨rfl, id, by simp⟩
  | succ m ih =>
      obtain ⟨hlen, hcount, hflag⟩ := ih
      rw [foldl_range_succ]
      set st' := (List.range m).foldl
        (fun st i => if flag st.1 i then suppressFrom close n i st else st) st with hst'
      dsimp only
      split_ifs with h
      · refine ⟨by rw [suppressFrom_length, hlen], fun hc => suppressFrom_counted (hcount hc), ?_⟩
        intro j hj
        -- indices up to `m` keep their flags: the inner loop only reaches later ones
        have hkeep : ∀ i ≤ m, flag (suppressFrom close n m st').1 i = flag st'.1 i := by
          intro i hi
          have : ¬(m < i ∧ i < n) := by omega
          simp [suppressFrom_flag, this]
        rw [suppressFrom_flag, Bool.and_eq_true, hflag j hj]
        constructor
        · rintro ⟨⟨h1, h2⟩, h3⟩
          refine ⟨h1, fun i hi hij hf => ?_⟩
          rw [hkeep i (Nat.lt_succ_iff.1 hi)] at hf
          rcases Nat.lt_succ_iff_lt_or_eq.1 hi with hi | rfl
          · exact h2 i hi hij hf
          · simpa [hij, hj] using h3
        · rintro ⟨h1, h2⟩
          refine ⟨⟨h1, fun i hi hij hf => ?_⟩, ?_⟩
          · exact h2 i (by omega) hij (by rwa [hkeep i hi.le])
          · by_cases hmj : m < j
            · have := h2 m (by omega) hmj (by rwa [hkeep m le_rfl])
              simp [this]
            · simp [hmj]
      · refine ⟨hlen, hcount, ?_⟩
        intro j hj
        rw [hflag j hj]
        constructor
        · rintro ⟨h1, h2⟩
          refine ⟨h1, fun i hi hij hf => ?_⟩
          rcases Nat.lt_succ_iff_lt_or_eq.1 hi with hi | rfl
          · exact h2 i hi hij hf
          · exact absurd hf h
        · rintro ⟨h1, h2⟩
          exact ⟨h1, fun i hi hij hf => h2 i (by omega) hij hf⟩

theorem suppress_length (close : ℕ → ℕ → Bool) (n : ℕ) (st : List Bool × ℕ) :
    (suppress close n st).1.length = st.1.length :=
  (suppress_steps close n n st).1

/-- **The running counter is the number of flags that are left.** -/
theorem suppress_counted {close : ℕ → ℕ → Bool} {n : ℕ} {st : List Bool × ℕ} (h : Counted st) :
    Counted (suppress close n st) :=
  (suppress_steps close n n st).2.1 h

/-- **An index stays flagged iff it was flagged and no earlier index that stays flagged is close
to it.** -/
theorem suppress_flag_iff (close : ℕ → ℕ → Bool) (n : ℕ) (st : List Bool × ℕ) {j : ℕ}
    (hj : j < n) :
    flag (suppress close n st).1 j = true ↔
      flag st.1 j = true ∧ ∀ i < j, flag (suppress close n st).1 i = true → close i j = false := by
  rw [suppress, (suppress_steps close n n st).2.2 j hj]
  constructor
  · rintro ⟨h1, h2⟩
    exact ⟨h1, fun i hi hf => h2 i (by omega) hi hf⟩
  · rintro ⟨h1, h2⟩
    exact ⟨h1, fun i _ hij hf => h2 i hij hf⟩

/-! ### Maxima -/

/-- A fold of maxima is above its start and all elements. -/
theorem le_foldl_max {n : ℕ} {l : List ℕ} (start : ℕ) (h : n ≤ start ∨ n ∈ l) :
    n ≤ l.foldl max start := by
  induction l generalizing start with
  | nil => simpa using h
  | cons m l ih =>
      refine ih _ ?_
      rcases h with h | h
      · exact Or.inl (h.trans (le_max_left _ _))
      · rcases List.mem_cons.1 h with rfl | h
        · exact Or.inl (le_max_right _ _)
        · exact Or.inr h

theorem foldl_max_lt {l : List ℕ} {start bound : ℕ} (hstart : start < bound)
    (h : ∀ n ∈ l, n < bound) : l.foldl max start < bound := by
  induction l generalizing start with
  | nil => exact hstart
  | cons m l ih =>
      exact ih (max_lt hstart (h m (by simp))) fun n hn => h n (by simp [hn])

end Scans
