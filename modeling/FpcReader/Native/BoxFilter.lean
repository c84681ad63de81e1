/-
**The box filter.**

A frame is smoothed by replacing each value by the mean of a window of fifteen, first along the rows
and then along the columns.  The source keeps a running sum, takes the mean by a multiplication and
a shift, and repeats the outermost means up to the edges.  Sixteen-bit values leave just enough room
in the 32-bit sum, so the result is that of the direct definition.

Main definitions:

* `Fpc.boxLine`, `Fpc.boxPass`, `Fpc.box15` — a line, a pass over all lines, and both passes;
* `Fpc.windowMean` — the direct definition along one line;
* `Fpc.smoothed` — the direct definition of the filter.

Main results:

* `Fpc.boxSlide_spec` — **the running sum is exact**;
* `Fpc.boxLine_spec`, `Fpc.boxPass_spec` — what a line and a pass leave behind;
* `Fpc.box15_getD` — **the filter is its direct definition**.
-/

import FpcReader.Lib.Loops
import FpcReader.Lib.Window
import Mathlib.Data.UInt

set_option relaxedAutoImplicit false
set_option autoImplicit false

namespace Fpc

/-! ### The filter -/

/-- The mean of fifteen values from their sum, as the source takes it. -/
def boxMean (sum : UInt32) : UInt16 := ((sum * 4369 + 32768) >>> 16).toUInt16

/-- The sum of the first window of a line, whose `k`-th value stands at `places k`. -/
def boxStart (source : List UInt16) (places : ℕ → ℕ) : UInt32 :=
  (List.range 15).foldl (fun sum k => sum + (source.getD (places k) 0).toUInt32) 0

/-- One place of a line of `n`: store the mean and move the window on while it can move. -/
def boxStep (source : List UInt16) (places : ℕ → ℕ) (n : ℕ) (state : UInt32 × List UInt16)
    (k : ℕ) : UInt32 × List UInt16 :=
  (if k < n - 8 then
      state.1 - (source.getD (places (k - 7)) 0).toUInt32 +
        (source.getD (places (k + 8)) 0).toUInt32
    else state.1,
    state.2.set (places k) (boxMean state.1))

/-- The first `m` places of a line that have a whole window, from the eighth one on. -/
def boxSlide (source : List UInt16) (places : ℕ → ℕ) (n : ℕ) (target : List UInt16) (m : ℕ) :
    UInt32 × List UInt16 :=
  (List.range m).foldl (fun state i => boxStep source places n state (i + 7))
    (boxStart source places, target)

/-- A line: the places with a whole window, then the seven before them and the seven after them. -/
def boxLine (source : List UInt16) (places : ℕ → ℕ) (n : ℕ) (target : List UInt16) : List UInt16 :=
  let target := (boxSlide source places n target (n - 14)).2
  let target := (List.range 7).foldl
    (fun target k => target.set (places k) (target.getD (places 7) 0)) target
  (List.range 7).foldl
    (fun target i => target.set (places (i + (n - 7))) (target.getD (places (n - 8)) 0)) target

/-- All lines of a pass; line `l` has its `k`-th value at `places l k`. -/
def boxPass (source : List UInt16) (places : ℕ → ℕ → ℕ) (lines n : ℕ) (target : List UInt16) :
    List UInt16 :=
  (List.range lines).foldl (fun target l => boxLine source (places l) n target) target

/-- The filter: rows from the image to the temporary one, columns back; both are returned. -/
def box15 (image temporary : List UInt16) : List UInt16 × List UInt16 :=
  let temporary := boxPass image (fun y x => y * 112 + x) 88 112 temporary
  (boxPass temporary (fun x y => y * 112 + x) 112 88 image, temporary)

/-! ### The direct definition -/

/-- The mean of fifteen values by their exact sum. -/
def meanOf (sum : ℕ) : ℕ := (sum * 4369 + 32768) / 2 ^ 16

/-- The mean of the window around a place of a line of `n`, the place moved inwards where the window
would leave the line. -/
def windowMean (value : ℕ → ℕ) (n k : ℕ) : ℕ :=
  meanOf (Window.total value 15 (Window.clamp 7 (n - 8) k - 7))

/-- The direct definition: the rows' means, and the columns' means of those. -/
def smoothed (image : List UInt16) (y x : ℕ) : ℕ :=
  windowMean (fun y => windowMean (fun x => (image.getD (y * 112 + x) 0).toNat) 112 x) 88 y

/-! ### The running sum -/

section Line

variable {source target : List UInt16} {places : ℕ → ℕ} {n : ℕ}

/-- The exact sum of the window whose first value is the `m`-th of a line. -/
def lineTotal (source : List UInt16) (places : ℕ → ℕ) (m : ℕ) : ℕ :=
  Window.total (fun k => (source.getD (places k) 0).toNat) 15 m

theorem lineTotal_le (source : List UInt16) (places : ℕ → ℕ) (m : ℕ) :
    lineTotal source places m ≤ 15 * 65535 :=
  Window.total_le (fun k => by have := (source.getD (places k) 0).toNat_lt; omega) 15 m

/-- The mean loses nothing in its 32 and 16 bits. -/
theorem boxMean_toNat {sum : UInt32} (h : sum.toNat ≤ 15 * 65535) :
    (sum * 4369 + 32768).toNat = sum.toNat * 4369 + 32768 ∧
      meanOf sum.toNat < 2 ^ 16 ∧ (boxMean sum).toNat = meanOf sum.toNat := by
  have hmul : (sum * 4369).toNat = sum.toNat * 4369 := by
    rw [UInt32.toNat_mul]
    exact Nat.mod_eq_of_lt (by show sum.toNat * 4369 < 2 ^ 32; omega)
  have hadd : (sum * 4369 + 32768).toNat = sum.toNat * 4369 + 32768 := by
    rw [UInt32.toNat_add, hmul]
    exact Nat.mod_eq_of_lt (by show sum.toNat * 4369 + 32768 < 2 ^ 32; omega)
  have hmean : meanOf sum.toNat < 2 ^ 16 := by
    unfold meanOf
    omega
  refine ⟨hadd, hmean, ?_⟩
  rw [boxMean, UInt32.toNat_toUInt16, UInt32.toNat_shiftRight, hadd]
  show (sum.toNat * 4369 + 32768) >>> 16 % 2 ^ 16 = meanOf sum.toNat
  rw [Nat.shiftRight_eq_div_pow]
  exact Nat.mod_eq_of_lt hmean

theorem boxStart_toNat (source : List UInt16) (places : ℕ → ℕ) :
    (boxStart source places).toNat = lineTotal source places 0 := by
  have h : ∀ m ≤ 15, ((List.range m).foldl
      (fun sum k => sum + (source.getD (places k) 0).toUInt32) (0 : UInt32)).toNat =
        Window.total (fun k => (source.getD (places k) 0).toNat) m 0 := by
    intro m hm
    induction m with
    | zero => rfl
    | succ m ih =>
        have hle : Window.total (fun k => (source.getD (places k) 0).toNat) m 0 ≤ m * 65535 :=
          Window.total_le (fun k => by have := (source.getD (places k) 0).toNat_lt; omega) m 0
        have hlt := (source.getD (places m) 0).toNat_lt
        rw [Scans.foldl_range_succ, UInt32.toNat_add, ih (by omega), UInt16.toNat_toUInt32,
          Nat.mod_eq_of_lt (by omega), Window.total, Window.total, Finset.sum_range_succ,
          Nat.zero_add]
  exact h 15 le_rfl

/-- **The running sum is exact.** -/
theorem boxSlide_fst (source target : List UInt16) (places : ℕ → ℕ) {m : ℕ} (h : m + 15 ≤ n) :
    (boxSlide source places n target m).1.toNat = lineTotal source places m := by
  induction m with
  | zero => exact boxStart_toNat source places
  | succ m ih =>
      have hsum := ih (by omega)
      have hmove := Window.total_succ (fun k => (source.getD (places k) 0).toNat) 15 m
      have hpart := Window.value_le_total (fun k => (source.getD (places k) 0).toNat)
        (by norm_num : 0 < 15) m
      have hle := lineTotal_le source places (m + 1)
      have hle' := lineTotal_le source places m
      unfold lineTotal at hsum hle hle' ⊢
      have hsub : ((boxSlide source places n target m).1 -
          (source.getD (places m) 0).toUInt32).toNat =
            (boxSlide source places n target m).1.toNat - (source.getD (places m) 0).toNat := by
        rw [UInt32.toNat_sub_of_le, UInt16.toNat_toUInt32]
        rw [UInt32.le_iff_toNat_le, hsum, UInt16.toNat_toUInt32]
        exact hpart
      rw [boxSlide, Scans.foldl_range_succ, boxStep, if_pos (by omega), Nat.add_sub_cancel]
      show ((boxSlide source places n target m).1 - (source.getD (places m) 0).toUInt32 +
        (source.getD (places (m + 15)) 0).toUInt32).toNat = _
      rw [UInt32.toNat_add, hsub, UInt16.toNat_toUInt32, hsum, Nat.mod_eq_of_lt (by omega)]
      omega

/-- The places of a line: there are that many, all in the array and all different. -/
structure LineOf (places : ℕ → ℕ) (n length : ℕ) : Prop where
  lt : ∀ k < n, places k < length
  inj : ∀ k < n, ∀ k' < n, places k = places k' → k = k'

theorem LineOf.ne {places : ℕ → ℕ} {length k k' : ℕ} (h : LineOf places n length) (hk : k < n)
    (hk' : k' < n) (hne : k ≠ k') : places k ≠ places k' := fun heq => hne (h.inj k hk k' hk' heq)

/-- What the places with a whole window have become. -/
theorem boxSlide_snd (source : List UInt16) (hline : LineOf places n target.length) {m : ℕ}
    (h : m + 14 ≤ n) :
    (boxSlide source places n target m).2.length = target.length ∧
    (∀ j < m, (boxSlide source places n target m).2.getD (places (j + 7)) 0 =
      UInt16.ofNat (meanOf (lineTotal source places j))) ∧
    ∀ i, (∀ j < m, i ≠ places (j + 7)) →
      (boxSlide source places n target m).2.getD i 0 = target.getD i 0 := by
  induction m with
  | zero => exact ⟨rfl, fun j hj => absurd hj (Nat.not_lt_zero j), fun i _ => rfl⟩
  | succ m ih =>
      obtain ⟨hlength, hdone, hrest⟩ := ih (by omega)
      have hwindow : m + 15 ≤ n := by omega
      have hsum := boxSlide_fst source target places hwindow
      have hvalue : boxMean (boxSlide source places n target m).1 =
          UInt16.ofNat (meanOf (lineTotal source places m)) := by
        have hle := lineTotal_le source places m
        have hmean := boxMean_toNat (hsum ▸ hle)
        rw [← hsum, ← hmean.2.2, UInt16.ofNat_toNat]
      have hplace : places (m + 7) < (boxSlide source places n target m).2.length := by
        rw [hlength]
        exact hline.lt _ (by omega)
      have hstep : (boxSlide source places n target (m + 1)).2 =
          (boxSlide source places n target m).2.set (places (m + 7))
            (UInt16.ofNat (meanOf (lineTotal source places m))) := by
        rw [← hvalue, boxSlide, Scans.foldl_range_succ]
        rfl
      rw [hstep]
      refine ⟨by rw [List.length_set, hlength], ?_, ?_⟩
      · intro j hj
        rw [Scans.getD_set hplace]
        by_cases hjm : j = m
        · rw [if_pos (by rw [hjm]), hjm]
        · rw [if_neg (hline.ne (by omega) (by omega) (by omega)), hdone j (by omega)]
      · intro i hi
        rw [Scans.getD_set hplace, if_neg (hi m (Nat.lt_succ_self m)),
          hrest i fun j hj => hi j (Nat.lt_succ_of_lt hj)]

/-- Copying one place of an array to others. -/
theorem copy_spec (target : List UInt16) (p : ℕ → ℕ) (c : ℕ) (ks : List ℕ)
    (hplace : ∀ k ∈ ks, p k < target.length ∧ p k ≠ c) :
    (ks.foldl (fun target k => target.set (p k) (target.getD c 0)) target).length =
      target.length ∧
    (∀ k ∈ ks, (ks.foldl (fun target k => target.set (p k) (target.getD c 0)) target).getD
      (p k) 0 = target.getD c 0) ∧
    ∀ i, (∀ k ∈ ks, i ≠ p k) →
      (ks.foldl (fun target k => target.set (p k) (target.getD c 0)) target).getD i 0 =
        target.getD i 0 := by
  induction ks generalizing target with
  | nil => exact ⟨rfl, by simp, fun i _ => rfl⟩
  | cons k ks ih =>
      obtain ⟨hk, hkc⟩ := hplace k (by simp)
      obtain ⟨hlength, hdone, hrest⟩ := ih (target.set (p k) (target.getD c 0))
        fun j hj => by
          rw [List.length_set]
          exact hplace j (by simp [hj])
      have hcopied : (target.set (p k) (target.getD c 0)).getD c 0 = target.getD c 0 := by
        rw [Scans.getD_set hk, if_neg hkc.symm]
      rw [List.foldl_cons]
      refine ⟨by rw [hlength, List.length_set], ?_, ?_⟩
      · intro j hj
        by_cases hmem : ∃ j' ∈ ks, p j = p j'
        · obtain ⟨j', hj', heq⟩ := hmem
          rw [heq, hdone j' hj', hcopied]
        · rcases List.mem_cons.1 hj with rfl | hj
          · rw [hrest _ fun j' hj' heq => hmem ⟨j', hj', heq⟩, Scans.getD_set hk, if_pos rfl]
          · exact absurd ⟨j, hj, rfl⟩ hmem
      · intro i hi
        rw [hrest i fun j hj => hi j (by simp [hj]), Scans.getD_set hk, if_neg (hi k (by simp))]

/-- The edges of a line repeat the nearest place with a whole window. -/
theorem boxLine_edges (source : List UInt16) (hline : LineOf places n target.length)
    (hn : 15 ≤ n) :
    (boxLine source places n target).length = target.length ∧
    (∀ k < n, (boxLine source places n target).getD (places k) 0 =
      (boxSlide source places n target (n - 14)).2.getD (places (Window.clamp 7 (n - 8) k)) 0) ∧
    ∀ i, (∀ k < n, i ≠ places k) → (boxLine source places n target).getD i 0 =
      (boxSlide source places n target (n - 14)).2.getD i 0 := by
  have hlength := (boxSlide_snd source hline (m := n - 14) (by omega)).1
  set slid := (boxSlide source places n target (n - 14)).2 with hslid
  -- the front edge
  obtain ⟨hlength₁, hdone₁, hrest₁⟩ := copy_spec slid places (places 7) (List.range 7)
    fun k hk => by
      rw [List.mem_range] at hk
      refine ⟨by rw [hlength]; exact hline.lt k (by omega), ?_⟩
      exact hline.ne (by omega) (by omega) (by omega)
  set front := (List.range 7).foldl
    (fun target k => target.set (places k) (target.getD (places 7) 0)) slid with hfront
  -- the back edge
  obtain ⟨hlength₂, hdone₂, hrest₂⟩ := copy_spec front
    (fun i => places (i + (n - 7))) (places (n - 8)) (List.range 7) fun k hk => by
      rw [List.mem_range] at hk
      refine ⟨by rw [hlength₁, hlength]; exact hline.lt _ (by omega), ?_⟩
      exact hline.ne (by omega) (by omega) (by omega)
  have hwhole : boxLine source places n target = (List.range 7).foldl
      (fun target i => target.set (places (i + (n - 7))) (target.getD (places (n - 8)) 0))
        front := rfl
  rw [hwhole]
  -- neither edge touches the places between them, nor the back one the front
  have hkept : ∀ k, 7 ≤ k → k ≤ n - 8 → front.getD (places k) 0 = slid.getD (places k) 0 := by
    intro k hlow hhigh
    refine hrest₁ _ fun j hj => ?_
    rw [List.mem_range] at hj
    exact hline.ne (by omega) (by omega) (by omega)
  have hbefore : ∀ k ≤ n - 8, ∀ j ∈ List.range 7, places k ≠ places (j + (n - 7)) := by
    intro k hk j hj
    rw [List.mem_range] at hj
    exact hline.ne (by omega) (by omega) (by omega)
  refine ⟨by rw [hlength₂, hlength₁, hlength], ?_, ?_⟩
  · intro k hk
    rcases (by omega : k < 7 ∨ (7 ≤ k ∧ k ≤ n - 8) ∨ n - 7 ≤ k) with hlow | ⟨hlow, hhigh⟩ | hhigh
    · rw [hrest₂ _ (hbefore k (by omega)), hdone₁ k (List.mem_range.2 hlow),
        Window.clamp_of_le hlow.le]
    · rw [hrest₂ _ (hbefore k hhigh), hkept k hlow hhigh, Window.clamp_of_mem hlow hhigh]
    · have hback := hdone₂ (k - (n - 7)) (List.mem_range.2 (by omega))
      rw [Nat.sub_add_cancel hhigh] at hback
      rw [hback, hkept _ (by omega) le_rfl, Window.clamp_of_gt (by omega) (by omega)]
  · intro i hi
    rw [hrest₂ i fun j hj => hi _ (by rw [List.mem_range] at hj; omega),
      hrest₁ i fun j hj => hi _ (by rw [List.mem_range] at hj; omega)]

/-- **What a line has become**: the direct means at its places, and nothing else has changed. -/
theorem boxLine_spec (source : List UInt16) (hline : LineOf places n target.length) (hn : 15 ≤ n) :
    (boxLine source places n target).length = target.length ∧
    (∀ k < n, (boxLine source places n target).getD (places k) 0 =
      UInt16.ofNat (windowMean (fun k => (source.getD (places k) 0).toNat) n k)) ∧
    ∀ i, (∀ k < n, i ≠ places k) →
      (boxLine source places n target).getD i 0 = target.getD i 0 := by
  have hwindows : n - 14 + 14 ≤ n := by omega
  obtain ⟨-, hdone, hrest⟩ := boxSlide_snd source hline hwindows
  obtain ⟨hlength, hedges, hother⟩ := boxLine_edges source hline hn
  refine ⟨hlength, ?_, ?_⟩
  · intro k hk
    have hclamp : 7 ≤ Window.clamp 7 (n - 8) k ∧ Window.clamp 7 (n - 8) k ≤ n - 8 := by
      unfold Window.clamp
      omega
    have hmean := hdone (Window.clamp 7 (n - 8) k - 7) (by omega)
    rw [Nat.sub_add_cancel hclamp.1] at hmean
    rw [hedges k hk, hmean]
    rfl
  · intro i hi
    rw [hother i hi]
    exact hrest i fun j hj => hi _ (by omega)

end Line

/-! ### Passes -/

/-- The places of all lines of an array. -/
structure LinesOf (places : ℕ → ℕ → ℕ) (lines n length : ℕ) : Prop where
  lt : ∀ l < lines, ∀ k < n, places l k < length
  inj : ∀ l < lines, ∀ k < n, ∀ l' < lines, ∀ k' < n, places l k = places l' k' → l = l' ∧ k = k'

theorem LinesOf.line {places : ℕ → ℕ → ℕ} {lines n length : ℕ}
    (h : LinesOf places lines n length) {l : ℕ} (hl : l < lines) : LineOf (places l) n length where
  lt := h.lt l hl
  inj k hk k' hk' heq := (h.inj l hl k hk l hl k' hk' heq).2

/-- **What a pass leaves behind**: the direct means of every line. -/
theorem boxPass_spec (source : List UInt16) {target : List UInt16} {places : ℕ → ℕ → ℕ}
    {lines n : ℕ} (hlines : LinesOf places lines n target.length) (hn : 15 ≤ n) :
    (boxPass source places lines n target).length = target.length ∧
    ∀ l < lines, ∀ k < n, (boxPass source places lines n target).getD (places l k) 0 =
      UInt16.ofNat (windowMean (fun k => (source.getD (places l k) 0).toNat) n k) := by
  have h : ∀ m ≤ lines,
      ((List.range m).foldl (fun target l => boxLine source (places l) n target) target).length =
        target.length ∧
      ∀ l < m, ∀ k < n,
        ((List.range m).foldl (fun target l => boxLine source (places l) n target) target).getD
          (places l k) 0 =
            UInt16.ofNat (windowMean (fun k => (source.getD (places l k) 0).toNat) n k) := by
    intro m hm
    induction m with
    | zero => exact ⟨rfl, fun l hl => absurd hl (Nat.not_lt_zero l)⟩
    | succ m ih =>
        obtain ⟨hlength, hdone⟩ := ih (by omega)
        rw [Scans.foldl_range_succ]
        set passed := (List.range m).foldl
          (fun target l => boxLine source (places l) n target) target
        have hline : LineOf (places m) n passed.length := by
          rw [hlength]
          exact hlines.line (by omega)
        obtain ⟨hlength', hdone', hrest'⟩ := boxLine_spec source hline hn
        refine ⟨hlength'.trans hlength, ?_⟩
        intro l hl k hk
        by_cases hlm : l = m
        · subst hlm
          exact hdone' k hk
        · rw [hrest', hdone l (by omega) k hk]
          intro k' hk' heq
          exact hlm (hlines.inj l (by omega) k hk m (by omega) k' hk' heq).1
  exact h lines le_rfl

/-- The rows of a frame. -/
theorem linesOf_rows : LinesOf (fun y x => y * 112 + x) 88 112 9856 where
  lt y hy x hx := by omega
  inj y hy x hx y' hy' x' hx' heq := by
    omega

/-- The columns of a frame. -/
theorem linesOf_columns : LinesOf (fun x y => y * 112 + x) 112 88 9856 where
  lt x hx y hy := by omega
  inj x hx y hy x' hx' y' hy' heq := by
    omega

/-- A mean of sixteen-bit values is one. -/
theorem windowMean_lt {value : ℕ → ℕ} (h : ∀ k, value k ≤ 65535) (n k : ℕ) :
    windowMean value n k < 2 ^ 16 := by
  have := Window.total_le h 15 (Window.clamp 7 (n - 8) k - 7)
  unfold windowMean meanOf
  omega

/-- Means depend on the values of the line only. -/
theorem windowMean_congr {value value' : ℕ → ℕ} {n : ℕ} (hn : 15 ≤ n)
    (h : ∀ k < n, value k = value' k) (k : ℕ) : windowMean value n k = windowMean value' n k := by
  have hclamp : Window.clamp 7 (n - 8) k ≤ n - 8 := by
    unfold Window.clamp
    omega
  rw [windowMean, windowMean, Window.total_congr]
  intro j hj
  exact h _ (by omega)

theorem getD_toNat_le (image : List UInt16) (i : ℕ) : (image.getD i 0).toNat ≤ 65535 := by
  have := (image.getD i 0).toNat_lt
  omega

/-- **The filter is its direct definition.** -/
theorem box15_getD {image temporary : List UInt16} (himage : image.length = 9856)
    (htemporary : temporary.length = 9856) :
    (box15 image temporary).1.length = 9856 ∧
    ∀ y < 88, ∀ x < 112,
      ((box15 image temporary).1.getD (y * 112 + x) 0).toNat = smoothed image y x := by
  obtain ⟨-, hrows⟩ := boxPass_spec image (htemporary ▸ linesOf_rows) (by norm_num)
  set rows := boxPass image (fun y x => y * 112 + x) 88 112 temporary with hrowsdef
  obtain ⟨hlength, hcolumns⟩ := boxPass_spec rows (himage ▸ linesOf_columns) (by norm_num)
  have hfirst : (box15 image temporary).1 =
      boxPass rows (fun x y => y * 112 + x) 112 88 image := by
    rw [box15, hrowsdef]
  rw [hfirst]
  refine ⟨hlength.trans himage, ?_⟩
  intro y hy x hx
  have hmean : windowMean (fun y => (rows.getD (y * 112 + x) 0).toNat) 88 y =
      smoothed image y x := by
    refine windowMean_congr (by norm_num) ?_ y
    intro y' hy'
    rw [hrows y' hy' x hx, UInt16.toNat_ofNat', Nat.mod_eq_of_lt]
    exact windowMean_lt (fun k => getD_toNat_le image _) 112 x
  rw [hcolumns x hx y hy, UInt16.toNat_ofNat', hmean, Nat.mod_eq_of_lt]
  rw [← hmean]
  exact windowMean_lt (fun k => getD_toNat_le rows _) 88 y

/-- **The sliding filter is its direct definition, and nothing wraps around.**  Every value of a
frame becomes the mean of its column's window of means of row windows, the windows being moved
inwards at the edges; on the way, the running sum of every line is the exact sum of the window at
every place, the value that leaves is part of it, and neither the sum, nor the product, nor the mean
exceeds its type. -/
theorem box15_direct (image temporary : List UInt16) (himage : image.length = 9856)
    (htemporary : temporary.length = 9856) :
    (box15 image temporary).1.length = 9856 ∧
    (∀ y < 88, ∀ x < 112,
      ((box15 image temporary).1.getD (y * 112 + x) 0).toNat = smoothed image y x) ∧
    ∀ source target places n m, m + 15 ≤ n →
      (boxSlide source places n target m).1.toNat = lineTotal source places m ∧
      (source.getD (places m) 0).toNat ≤ (boxSlide source places n target m).1.toNat ∧
      lineTotal source places m + (source.getD (places (m + 15)) 0).toNat < 2 ^ 32 ∧
      ((boxSlide source places n target m).1 * 4369 + 32768).toNat =
        lineTotal source places m * 4369 + 32768 ∧
      (boxMean (boxSlide source places n target m).1).toNat = meanOf (lineTotal source places m) ∧
      meanOf (lineTotal source places m) < 2 ^ 16 := by
  refine ⟨(box15_getD himage htemporary).1, (box15_getD himage htemporary).2, ?_⟩
  intro source target places n m hm
  have hsum := boxSlide_fst source target places hm
  have hle := lineTotal_le source places m
  have hpart : (source.getD (places m) 0).toNat ≤ lineTotal source places m :=
    Window.value_le_total (fun k => (source.getD (places k) 0).toNat) (by norm_num : 0 < 15) m
  have hnext := getD_toNat_le source (places (m + 15))
  obtain ⟨hproduct, hmean, hvalue⟩ := boxMean_toNat (hsum ▸ hle)
  rw [hsum] at hproduct hmean hvalue
  exact ⟨hsum, hsum ▸ hpart, by omega, hproduct, hvalue, hmean⟩

/-- A frame whose first row has a step. -/
def stepFrame : List UInt16 := List.replicate 40 16 ++ List.replicate 9816 160

/-- Behind the step the running sum grows from place to place. -/
theorem box15_direct_step :
    ((box15 stepFrame (List.replicate 9856 0)).1.getD (0 * 112 + 40) 0).toNat =
        smoothed stepFrame 0 40 ∧
      (boxSlide stepFrame (fun k => k) 112 (List.replicate 9856 0) 32).1.toNat = 1248 ∧
      (boxSlide stepFrame (fun k => k) 112 (List.replicate 9856 0) 33).1.toNat = 1392 := by
  have hlength : stepFrame.length = 9856 := by
    rw [stepFrame, List.length_append, List.length_replicate, List.length_replicate]
  obtain ⟨-, hvalues, hsums⟩ :=
    box15_direct stepFrame (List.replicate 9856 0) hlength List.length_replicate
  have hbefore : lineTotal stepFrame (fun k => k) 32 = 1248 := by decide +kernel
  have hbehind : lineTotal stepFrame (fun k => k) 33 = 1392 := by decide +kernel
  refine ⟨hvalues 0 (by norm_num) 40 (by norm_num), ?_, ?_⟩
  · rw [← hbefore]
    exact (hsums _ _ _ _ 32 (by norm_num)).1
  · rw [← hbehind]
    exact (hsums _ _ _ _ 33 (by norm_num)).1

end Fpc
