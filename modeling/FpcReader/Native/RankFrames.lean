/-
**Ranking frames.**

A frame is scored by how little of it is saturated and by how much of it differs from its smoothed
image after smoothing the difference.  Both parts are shares out of a thousand, so the weighted mean
of them is one too, whatever the pixels: a score is never the error code.  The frames of a capture
are sorted by their scores through an array of their indices.

Main definitions:

* `Fpc.saturationQuality`, `Fpc.frameScore` — the share that is not saturated, and the score;
* `Fpc.rankFrames` — the indices of up to five frames, best first.

Main results:

* `Fpc.box15_temporary` — the filter does not depend on what its temporary image held;
* `Fpc.frameScore_mem` — **a score lies between 0 and 1000**;
* `Fpc.rankFrames_ranked` — **the frames are ranked, equal ones in their original order**.
-/

import FpcReader.Lib.Insertion
import FpcReader.Native.Blocks
import FpcReader.Native.BoxFilter

set_option relaxedAutoImplicit false
set_option autoImplicit false

namespace Fpc

open Fallible

/-! ### Scores -/

/-- The share of pixels out of a thousand that are neither 0 nor 255. -/
def saturationQuality (pixels : List UInt8) : ℤ :=
  if pixels.length = 0 ∨ 2147483647 / 1000 < pixels.length then -1
  else
    let saturated := pixels.countP fun pixel => pixel = 0 ∨ pixel = 255
    1000 - (saturated * 1000 / pixels.length : ℕ)

/-- The distance of a smoothed value from its pixel. -/
def absDifference (value : UInt16) (pixel : UInt8) : UInt16 :=
  let difference : ℤ := value.toNat - pixel.toNat * 16
  UInt16.ofNat (if difference < 0 then -difference else difference).toNat

/-- The number of places at which the smoothed distance from the smoothed image is large; `memory`
is what the temporary image holds when it is allocated. -/
def frameContrast (pixels : List UInt8) (memory : List UInt16) : ℕ :=
  let image := pixels.map fun pixel => UInt16.ofNat (pixel.toNat * 16)
  let smooth := box15 image memory
  let differences := List.zipWith absDifference smooth.1 pixels
  (box15 differences smooth.2).1.countP fun value => 208 < value

/-- The score of a frame. -/
def frameScore (pixels : List UInt8) (memory : List UInt16) : ℤ :=
  if pixels.length ≠ 9856 then -1
  else
    let contrast := frameContrast pixels memory
    -- the shift by twelve bits
    (3072 * saturationQuality pixels + 1024 * (contrast * 1000 / 9856 : ℕ) + 2048) / 2 ^ 12

/-- The indices of some frames by decreasing scores; `memories` is what the temporary images hold
when they are allocated. -/
def rankFrames (frames : List (List UInt8)) (memories : ℕ → List UInt16) :
    Except Fault (List ℕ) :=
  if frames.length = 0 ∨ 5 < frames.length then .error (.status (-1))
  else
    (List.range frames.length).mapM (fun i =>
      let score := frameScore (frames.getD i []) (memories i)
      if score < 0 then (.error (.status (-1)) : Except Fault ℤ) else .ok score) >>= fun scores =>
    .ok (Insertion.sort (fun i => scores.getD i 0) (List.range frames.length))

/-- A pass does not depend on what its target held. -/
theorem boxPass_target (source : List UInt16) {target target' : List UInt16} {places : ℕ → ℕ → ℕ}
    {lines n : ℕ} (hlength : target.length = target'.length)
    (hlines : LinesOf places lines n target.length) (hn : 15 ≤ n)
    (hall : ∀ i < target.length, ∃ l < lines, ∃ k < n, i = places l k) :
    boxPass source places lines n target = boxPass source places lines n target' := by
  obtain ⟨hlen, hvalues⟩ := boxPass_spec source hlines hn
  obtain ⟨hlen', hvalues'⟩ := boxPass_spec source (hlength ▸ hlines) hn
  apply List.ext_getElem (hlen.trans (hlength.trans hlen'.symm))
  intro i hi hi'
  obtain ⟨l, hl, k, hk, rfl⟩ := hall i (hlen ▸ hi)
  have heq := (hvalues l hl k hk).trans (hvalues' l hl k hk).symm
  rwa [List.getD_eq_getElem _ _ hi, List.getD_eq_getElem _ _ hi'] at heq

/-- **The filter does not depend on what its temporary image held.** -/
theorem box15_temporary (image : List UInt16) {temporary temporary' : List UInt16}
    (h : temporary.length = 9856) (h' : temporary'.length = 9856) :
    box15 image temporary = box15 image temporary' := by
  have hrows : boxPass image (fun y x => y * 112 + x) 88 112 temporary =
      boxPass image (fun y x => y * 112 + x) 88 112 temporary' := by
    refine boxPass_target image (h.trans h'.symm) (h ▸ linesOf_rows) (by norm_num) ?_
    intro i hi
    rw [h] at hi
    exact ⟨i / 112, by omega, i % 112, by omega, (Nat.div_add_mod' i 112).symm⟩
  unfold box15
  rw [hrows]

theorem box15_length {image temporary : List UInt16} (himage : image.length = 9856)
    (htemporary : temporary.length = 9856) :
    (box15 image temporary).1.length = 9856 ∧ (box15 image temporary).2.length = 9856 := by
  refine ⟨(box15_getD himage htemporary).1, ?_⟩
  have hrows := (boxPass_spec image (htemporary ▸ linesOf_rows) (by norm_num)).1
  have hsecond : (box15 image temporary).2 =
      boxPass image (fun y x => y * 112 + x) 88 112 temporary := by
    rw [box15]
  rw [hsecond, hrows, htemporary]

/-- The score of a frame does not depend on what its temporary image held. -/
theorem frameScore_memory {pixels : List UInt8} {memory memory' : List UInt16}
    (h : memory.length = 9856) (h' : memory'.length = 9856) :
    frameScore pixels memory = frameScore pixels memory' := by
  have hcontrast : frameContrast pixels memory = frameContrast pixels memory' := by
    simp only [frameContrast, box15_temporary _ h h']
  unfold frameScore
  rw [hcontrast]

theorem saturationQuality_mem {pixels : List UInt8} (h : pixels.length = 9856) :
    0 ≤ saturationQuality pixels ∧ saturationQuality pixels ≤ 1000 := by
  have hcount := List.countP_le_length (p := fun pixel => pixel = 0 ∨ pixel = 255) (l := pixels)
  rw [saturationQuality, if_neg (by omega)]
  dsimp only
  rw [h] at hcount ⊢
  omega

theorem frameContrast_le {pixels : List UInt8} {memory : List UInt16} (h : pixels.length = 9856)
    (hmemory : memory.length = 9856) : frameContrast pixels memory ≤ 9856 := by
  unfold frameContrast
  extract_lets image smooth differences
  have himage : image.length = 9856 := by rw [List.length_map, h]
  have hsmooth := box15_length himage hmemory
  have hdifferences : differences.length = 9856 := by
    rw [List.length_zipWith, hsmooth.1, h, Nat.min_self]
  rw [← (box15_length hdifferences hsmooth.2).1]
  exact List.countP_le_length

/-- **A score lies between 0 and 1000.** -/
theorem frameScore_mem {pixels : List UInt8} {memory : List UInt16} (h : pixels.length = 9856)
    (hmemory : memory.length = 9856) :
    0 ≤ frameScore pixels memory ∧ frameScore pixels memory ≤ 1000 := by
  have hsaturation := saturationQuality_mem h
  have hcontrast := frameContrast_le h hmemory
  rw [frameScore, if_neg (by simpa using h)]
  dsimp only
  have hshare : frameContrast pixels memory * 1000 / 9856 ≤ 1000 := by omega
  omega

/-- **The frames are ranked**: every index stands in the order once, by decreasing scores, those of
one score as they came. -/
theorem rankFrames_ranked {frames : List (List UInt8)} {memories : ℕ → List UInt16}
    (hcount : 1 ≤ frames.length ∧ frames.length ≤ 5) (hframes : ∀ f ∈ frames, f.length = 9856)
    (hmemories : ∀ i, (memories i).length = 9856) :
    ∃ order, rankFrames frames memories = .ok order ∧ order.Perm (List.range frames.length) ∧
      order.Pairwise fun a b =>
        frameScore (frames.getD b []) (memories b) < frameScore (frames.getD a []) (memories a) ∨
          (frameScore (frames.getD a []) (memories a) =
            frameScore (frames.getD b []) (memories b) ∧ a < b) := by
  set score := fun i => frameScore (frames.getD i []) (memories i) with hscore
  have hgood : ∀ i < frames.length, ¬score i < 0 := by
    intro i hi
    have hframe : (frames.getD i []).length = 9856 := by
      rw [List.getD_eq_getElem _ _ hi]
      exact hframes _ (List.getElem_mem hi)
    exact not_lt.2 (frameScore_mem hframe (hmemories i)).1
  have hscores : ∀ indices : List ℕ, (∀ i ∈ indices, i < frames.length) →
      indices.mapM (fun i =>
        if score i < 0 then (.error (.status (-1)) : Except Fault ℤ) else .ok (score i)) =
          .ok (indices.map score) := by
    intro indices
    induction indices with
    | nil => exact fun _ => rfl
    | cons i indices ih =>
        intro h
        rw [List.mapM_cons, if_neg (hgood i (h i (by simp))), ok_bind,
          ih fun j hj => h j (by simp [hj])]
        rfl
  have hkeys : ∀ i < frames.length, ((List.range frames.length).map score).getD i 0 = score i := by
    intro i hi
    rw [List.getD_eq_getElem _ _ (by simpa using hi), List.getElem_map, List.getElem_range]
  obtain ⟨hperm, hsorted⟩ := Insertion.sort_spec
    (fun i => ((List.range frames.length).map score).getD i 0)
    (List.pairwise_lt_range (n := frames.length))
  refine ⟨_, ?_, hperm, ?_⟩
  · rw [rankFrames, if_neg (by omega)]
    dsimp only
    rw [hscores _ fun i hi => List.mem_range.1 hi, ok_bind]
  · refine hsorted.imp_of_mem ?_
    intro a b ha hb hab
    have ha := List.mem_range.1 (hperm.mem_iff.1 ha)
    have hb := List.mem_range.1 (hperm.mem_iff.1 hb)
    rwa [Insertion.Ranked, hkeys a ha, hkeys b hb] at hab

/-- **Ranking puts the best frame first.**  For one to five frames of the size of the sensor every
score lies between 0 and 1000, whatever the allocated memory held and without depending on it;
ranking succeeds; and the order holds every index once, with scores that never increase, frames of
one score in their original order. -/
theorem rankFrames_best (frames : List (List UInt8)) (memories : ℕ → List UInt16)
    (hcount : 1 ≤ frames.length ∧ frames.length ≤ 5) (hframes : ∀ f ∈ frames, f.length = 9856)
    (hmemories : ∀ i, (memories i).length = 9856) :
    (∀ f ∈ frames, ∀ memory : List UInt16, memory.length = 9856 →
      0 ≤ frameScore f memory ∧ frameScore f memory ≤ 1000 ∧
        ∀ memory' : List UInt16, memory'.length = 9856 →
          frameScore f memory = frameScore f memory') ∧
    ∃ order, rankFrames frames memories = .ok order ∧ order.Perm (List.range frames.length) ∧
      order.Pairwise fun a b =>
        frameScore (frames.getD b []) (memories b) < frameScore (frames.getD a []) (memories a) ∨
          (frameScore (frames.getD a []) (memories a) =
            frameScore (frames.getD b []) (memories b) ∧ a < b) := by
  refine ⟨?_, rankFrames_ranked hcount hframes hmemories⟩
  intro f hf memory hmemory
  have hscore := frameScore_mem (hframes f hf) hmemory
  exact ⟨hscore.1, hscore.2, fun memory' h' => frameScore_memory hmemory h'⟩

theorem saturationQuality_replicate (v : UInt8) : saturationQuality (List.replicate 9856 v) =
    if v = 0 ∨ v = 255 then 0 else 1000 := by
  rw [saturationQuality, List.length_replicate, if_neg (by norm_num)]
  dsimp only
  rw [List.countP_replicate]
  by_cases hv : v = 0 ∨ v = 255
  · simp [hv]
  · simp [hv]

/-- An even frame scores by its saturation, whatever its contrast is. -/
theorem frameScore_replicate (v : UInt8) {memory : List UInt16} (hmemory : memory.length = 9856) :
    if v = 0 ∨ v = 255 then frameScore (List.replicate 9856 v) memory ≤ 250
    else 750 ≤ frameScore (List.replicate 9856 v) memory := by
  have hlength : (List.replicate 9856 v).length = 9856 := List.length_replicate
  have hcontrast := frameContrast_le hlength hmemory
  have hshare : frameContrast (List.replicate 9856 v) memory * 1000 / 9856 ≤ 1000 := by omega
  rw [frameScore, if_neg (not_not.2 hlength), saturationQuality_replicate]
  dsimp only
  split_ifs <;> omega

/-- A black frame comes after a grey one. -/
theorem rankFrames_best_two :
    rankFrames [List.replicate 9856 0, List.replicate 9856 7] (fun _ => List.replicate 9856 0) =
      .ok [1, 0] := by
  obtain ⟨order, hok, hperm, hsorted⟩ := (rankFrames_best
    [List.replicate 9856 0, List.replicate 9856 7] (fun _ => List.replicate 9856 0)
    (by decide) (by
      intro f hf
      simp only [List.mem_cons, List.not_mem_nil, or_false] at hf
      rcases hf with rfl | rfl
      · exact List.length_replicate
      · exact List.length_replicate) fun _ => List.length_replicate).2
  have hblack := @frameScore_replicate 0 (List.replicate 9856 0) List.length_replicate
  have hgrey := @frameScore_replicate 7 (List.replicate 9856 0) List.length_replicate
  rw [if_pos (by decide)] at hblack
  rw [if_neg (by decide)] at hgrey
  rw [hok]
  obtain ⟨a, b, rfl⟩ := List.length_eq_two.1 hperm.length_eq
  replace hperm : [a, b].Perm [0, 1] := hperm
  have hfirst := (List.pairwise_cons.1 hsorted).1 b (List.mem_singleton_self b)
  have hdistinct : a ≠ b := by
    have hnodup := hperm.nodup_iff.2 (by decide)
    simpa using hnodup
  have ha : a = 0 ∨ a = 1 := by simpa using hperm.mem_iff.1 List.mem_cons_self
  have hb : b = 0 ∨ b = 1 := by
    simpa using hperm.mem_iff.1 (List.mem_cons_of_mem a (List.mem_singleton_self b))
  rcases ha with rfl | rfl <;> rcases hb with rfl | rfl
  · exact absurd rfl hdistinct
  · simp only [List.getD_cons_zero, List.getD_cons_succ] at hfirst
    omega
  · rfl
  · exact absurd rfl hdistinct

end Fpc
