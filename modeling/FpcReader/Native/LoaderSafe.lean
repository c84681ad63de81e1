/-
**The loader is safe on every input.**

Whatever the bytes are, the loader in memory never leaves them or an allocation: it does what the
loader on lists does, step by step, and that one only ever returns a status.  The guards on lengths
and counts are what every access of the loops behind them needs.

Main definitions:

* `Fpc.Simulates` — the same status, or related results;
* `Fpc.slice` — a part of the bytes;
* `Fpc.CaptureAgrees`, `Fpc.StorageLayout.Sound` — a capture in memory and its loaded view, and
  arrays that are inside their allocation and apart from each other.

Main results:

* `Fpc.forRange_invariant` — the rule for the loops;
* `Fpc.captureLoadAt_simulates`, `Fpc.collectionLoadAt_simulates`, `Fpc.graphLoadAt_simulates` — the
  nested loaders;
* `Fpc.templateLoadAt_safe` — **every access is inside, for all inputs**.
-/

import FpcReader.Lib.Scans
import FpcReader.Native.Canonical
import FpcReader.Native.LoaderMemory

set_option relaxedAutoImplicit false
set_option autoImplicit false

namespace Fpc

open Bytes Fallible

/-! ### Simulation -/

/-- Both fail with the same status, or both succeed with related results. -/
def Simulates {α β : Type} (R : α → β → Prop) (x : Except Fault α) (y : Except Fault β) : Prop :=
  (∃ code, x = .error (.status code) ∧ y = .error (.status code)) ∨
    ∃ a b, x = .ok a ∧ y = .ok b ∧ R a b

namespace Simulates

variable {α β γ δ : Type} {R : α → β → Prop} {S : γ → δ → Prop}
variable {x : Except Fault α} {y : Except Fault β}

theorem fail (code : ℤ) : Simulates R (.error (.status code)) (.error (.status code)) :=
  Or.inl ⟨code, rfl, rfl⟩

theorem ok {a : α} {b : β} (h : R a b) : Simulates R (.ok a) (.ok b) :=
  Or.inr ⟨a, b, rfl, rfl, h⟩

theorem bind {f : α → Except Fault γ} {g : β → Except Fault δ} (h : Simulates R x y)
    (hnext : ∀ a b, x = .ok a → y = .ok b → R a b → Simulates S (f a) (g b)) :
    Simulates S (x >>= f) (y >>= g) := by
  rcases h with ⟨code, rfl, rfl⟩ | ⟨a, b, rfl, rfl, hab⟩
  · exact fail code
  · exact hnext a b rfl rfl hab

/-- A result that is worked on further on one side only. -/
theorem right {S : α → δ → Prop} {g : β → δ} (h : Simulates R x y)
    (hnext : ∀ a b, R a b → S a (g b)) : Simulates S x (y >>= fun b => .ok (g b)) := by
  rcases h with ⟨code, rfl, rfl⟩ | ⟨a, b, rfl, rfl, hab⟩
  · exact fail code
  · exact ok (hnext a b hab)

theorem withStatus (h : Simulates R x y) (code : ℤ) :
    Simulates R (Fpc.withStatus code x) (Fpc.withStatus code y) := by
  rcases h with ⟨_, rfl, rfl⟩ | ⟨a, b, rfl, rfl, hab⟩
  · exact fail code
  · exact ok hab

/-- Both fail under the same condition. -/
theorem guard {p q : Prop} [Decidable p] [Decidable q] (hpq : p ↔ q) (code : ℤ)
    (h : ¬q → Simulates R x y) :
    Simulates R (if p then .error (.status code) else x)
      (if q then .error (.status code) else y) := by
  by_cases hq : q
  · rw [if_pos hq, if_pos (hpq.2 hq)]
    exact fail code
  · rw [if_neg hq, if_neg fun hp => hq (hpq.1 hp)]
    exact h hq

theorem left_ne (h : Simulates R x y) : x ≠ .error .outOfBounds := by
  rcases h with ⟨code, rfl, -⟩ | ⟨a, b, rfl, -, -⟩
  · exact fun heq => nomatch Except.error.inj heq
  · nofun

theorem of_ok (h : Simulates R x y) {a : α} (ha : x = .ok a) : ∃ b, y = .ok b ∧ R a b := by
  rcases h with ⟨code, rfl, -⟩ | ⟨a', b, rfl, rfl, hab⟩
  · cases ha
  · obtain rfl := Except.ok.inj ha
    exact ⟨b, rfl, hab⟩

theorem eq {x y : Except Fault α} (h : Simulates Eq x y) : x = y := by
  rcases h with ⟨code, rfl, rfl⟩ | ⟨a, b, rfl, rfl, rfl⟩ <;> rfl

end Simulates

/-! ### Slices -/

/-- The `size` bytes from `start` on. -/
def slice (data : List UInt8) (start size : ℕ) : List UInt8 := (data.drop start).take size

section Slices

variable {data : List UInt8} {start size : ℕ}

theorem slice_length (h : start + size ≤ data.length) : (slice data start size).length = size :=
  List.length_take_of_le (by rw [List.length_drop]; omega)

theorem slice_slice {offset n : ℕ} (h : offset + n ≤ size) :
    ((slice data start size).drop offset).take n = slice data (start + offset) n := by
  rw [slice, slice, List.drop_take, List.take_take, List.drop_drop, Nat.min_eq_left (by omega)]

theorem slice_all (data : List UInt8) (start : ℕ) :
    slice data start (data.length - start) = data.drop start :=
  List.take_of_length_le (by rw [List.length_drop])

theorem getD_take_of_lt {n i : ℕ} (h : i < n) (p : List UInt8) :
    (p.take n).getD i 0 = p.getD i 0 := by
  rw [List.getD_eq_getElem?_getD, List.getElem?_take_of_lt h, List.getD_eq_getElem?_getD]

theorem le32_take {n : ℕ} (h : 4 ≤ n) (p : List UInt8) : le32 (p.take n) = le32 p := by
  simp only [le32, getD_take_of_lt (show 0 < n by omega), getD_take_of_lt (show 1 < n by omega),
    getD_take_of_lt (show 2 < n by omega), getD_take_of_lt (show 3 < n by omega)]

theorem le16_take {n : ℕ} (h : 2 ≤ n) (p : List UInt8) : le16 (p.take n) = le16 p := by
  simp only [le16, getD_take_of_lt (show 0 < n by omega), getD_take_of_lt (show 1 < n by omega)]

variable (hin : start + size ≤ data.length)

include hin in
/-- Words in a slice are words of the bytes. -/
theorem loadLe32_slice {offset : ℕ} (h : offset + 4 ≤ size) :
    ∃ w, loadLe32 data (start + offset) = .ok w ∧
      loadLe32 (slice data start size) offset = .ok w := by
  refine ⟨le32 (data.drop (start + offset)), if_pos (by omega), ?_⟩
  rw [loadLe32, if_pos (by rw [slice_length hin]; exact h), slice, List.drop_take,
    le32_take (by omega), List.drop_drop]

include hin in
theorem loadLe16_slice {offset : ℕ} (h : offset + 2 ≤ size) :
    ∃ w, loadLe16 data (start + offset) = .ok w ∧
      loadLe16 (slice data start size) offset = .ok w := by
  refine ⟨le16 (data.drop (start + offset)), if_pos (by omega), ?_⟩
  rw [loadLe16, if_pos (by rw [slice_length hin]; exact h), slice, List.drop_take,
    le16_take (by omega), List.drop_drop]

theorem readAt_eq {offset n : ℕ} (h : offset + n ≤ data.length) :
    readAt data offset n = .ok (slice data offset n) :=
  if_pos h

end Slices

/-! ### Loops and stores -/

/-- The rule for a loop: an invariant that every round keeps, none of which fails. -/
theorem forRange_invariant {σ : Type} {n : ℕ} {step : σ → ℕ → Except Fault σ} {start : σ}
    (P : ℕ → σ → Prop) (hstart : P 0 start)
    (hstep : ∀ i < n, ∀ s, P i s → ∃ s', step s i = .ok s' ∧ P (i + 1) s') :
    ∃ s', forRange n step start = .ok s' ∧ P n s' := by
  induction n with
  | zero => exact ⟨start, rfl, hstart⟩
  | succ n ih =>
      obtain ⟨s, hrun, hs⟩ := ih fun i hi => hstep i (by omega)
      obtain ⟨s', hlast, hs'⟩ := hstep n (by omega) s hs
      refine ⟨s', ?_, hs'⟩
      have hrun' : (List.range n).foldlM step start = .ok s := hrun
      rw [forRange, List.range_succ, List.foldlM_append, hrun', ok_bind, List.foldlM_cons, hlast]
      rfl

/-- A store inside an allocation keeps its size. -/
theorem storeAt_inside {storage bytes : List UInt8} {offset : ℕ}
    (h : offset + bytes.length ≤ storage.length) :
    ∃ after, storeAt storage offset bytes = .ok after ∧ after.length = storage.length := by
  refine ⟨_, if_pos h, ?_⟩
  simp only [List.length_append, List.length_take, List.length_drop]
  omega

theorem ext_getD {α : Type} {a b : List α} (d : α) (hlength : a.length = b.length)
    (h : ∀ i < a.length, a.getD i d = b.getD i d) : a = b := by
  refine List.ext_getElem hlength fun i hi hi' => ?_
  have := h i hi
  rwa [List.getD_eq_getElem _ _ hi, List.getD_eq_getElem _ _ hi'] at this

/-- A word of a sequence is the one at its place. -/
theorem loadWords16_getD {data : List UInt8} {start n i : ℕ} (hi : i < n)
    (h : start + 2 * n ≤ data.length) :
    (loadWords16 n (data.drop start)).getD i 0 = le16 (data.drop (start + 2 * i)) := by
  obtain ⟨k, rfl⟩ : ∃ k, n = i + (k + 1) := ⟨n - i - 1, by omega⟩
  have hdrop := loadWords16_drop i (k + 1) (data.drop start)
  have hlong : 2 ≤ ((data.drop start).drop (2 * i)).length := by
    rw [List.length_drop, List.length_drop]
    omega
  have hhead : (loadWords16 (k + 1) ((data.drop start).drop (2 * i))).getD 0 0 = _ :=
    loadWords16_head hlong
  rw [← hdrop, List.drop_drop] at hhead
  rw [← hhead, List.getD_eq_getElem?_getD, List.getD_eq_getElem?_getD, List.getElem?_drop]
  rfl

/-- The loop that fills an array with the words of a slice. -/
theorem loadWordsAt_eq {data : List UInt8} {start n : ℕ} (h : start + 2 * n ≤ data.length) :
    forRange n (fun words i => loadLe16 data (start + 2 * i) >>= fun value => setAt words i value)
      (List.replicate n 0) = .ok (loadWords16 n (data.drop start)) := by
  set words := loadWords16 n (data.drop start) with hwords
  have hlength : words.length = n := loadWords16_length _ _
  obtain ⟨array, hrun, harray, hfilled⟩ : ∃ array, forRange n
      (fun words i => loadLe16 data (start + 2 * i) >>= fun value => setAt words i value)
      (List.replicate n 0) = .ok array ∧ array.length = n ∧
        ∀ j < n, array.getD j 0 = words.getD j 0 := by
    refine forRange_invariant (fun i (array : List UInt16) =>
      array.length = n ∧ ∀ j < i, array.getD j 0 = words.getD j 0)
      ⟨List.length_replicate, nofun⟩ ?_
    rintro i hi array ⟨harray, hfilled⟩
    refine ⟨array.set i (le16 (data.drop (start + 2 * i))), ?_, ?_, fun j hj => ?_⟩
    · rw [loadLe16, if_pos (by omega), ok_bind, setAt, if_pos (by omega)]
    · rw [List.length_set, harray]
    · rw [Scans.getD_set (by omega)]
      split_ifs with heq
      · rw [heq, hwords, loadWords16_getD hi h]
      · exact hfilled j (by omega)
  rw [hrun, ext_getD 0 (harray.trans hlength.symm) fun i hi => hfilled i (by omega)]

/-! ### Storage of a capture -/

/-- The arrays of a capture, in the order of their places. -/
def StorageLayout.slots (layout : StorageLayout) : List Slot :=
  [layout.fields, layout.extras, layout.coordinates, layout.scores, layout.angles, layout.compact,
    layout.descriptors, layout.membership]

/-- The sizes of wide numbers are multiples of four. -/
structure SectionSizes.Numbers (sizes : SectionSizes) : Prop where
  coordinates : sizes.coordinates % 4 = 0
  scores : sizes.scores % 4 = 0
  angles : sizes.angles % 4 = 0

theorem sectionSizes_numbers (n : ℕ) (descriptorBytes levels tableWidth : UInt8) (flags : UInt16) :
    (sectionSizes n descriptorBytes levels tableWidth flags).Numbers := by
  constructor <;> simp only [sectionSizes] <;> split_ifs <;> omega

/-- The arrays are inside the allocation, apart from each other, and aligned. -/
structure StorageLayout.Sound (layout : StorageLayout) (allocation : ℕ) : Prop where
  inside : ∀ slot ∈ layout.slots, slot.offset + slot.size ≤ allocation
  apart : layout.slots.Pairwise fun a b => a.offset + a.size ≤ b.offset
  words : layout.fields.offset % 2 = 0 ∧ layout.extras.offset % 2 = 0
  numbers : layout.coordinates.offset % 4 = 0 ∧ layout.scores.offset % 4 = 0 ∧
    layout.angles.offset % 4 = 0

theorem storageLayout_sound {sizes : SectionSizes} (hnumbers : sizes.Numbers) (levels extra : ℕ) :
    (storageLayout sizes levels extra).Sound (storageLayout sizes levels extra).allocation := by
  have hwords : 2 * (levels * (5 + extra)) = 10 * levels + 2 * (extra * levels) := by ring
  obtain ⟨hcoordinates, hscores, hangles⟩ := hnumbers
  constructor
  · intro slot hslot
    simp only [StorageLayout.slots, storageLayout, List.mem_cons, List.not_mem_nil, or_false]
      at hslot ⊢
    rcases hslot with rfl | rfl | rfl | rfl | rfl | rfl | rfl | rfl <;> dsimp only <;> omega
  · simp only [StorageLayout.slots, storageLayout, List.pairwise_cons, List.mem_cons,
      List.not_mem_nil, or_false, forall_eq_or_imp, forall_eq, false_imp_iff, implies_true,
      List.Pairwise.nil, and_true]
    refine ⟨?_, ?_, ?_, ?_, ?_, ?_, ?_⟩ <;> omega
  · constructor
    · rfl
    · simp only [storageLayout]
      omega
  · refine ⟨?_, ?_, ?_⟩ <;> simp only [storageLayout] <;> omega

theorem storeLevels_inside (data storage : List UInt8) (offset levels extra : ℕ)
    (hread : offset + levels * (10 + 2 * extra) ≤ data.length)
    (hroom : 10 * levels + 2 * (extra * levels) ≤ storage.length) :
    ∃ after, storeLevels data offset levels extra storage = .ok after ∧
      after.length = storage.length := by
  have hstride : levels * (10 + 2 * extra) = 2 * (levels * (5 + extra)) := by ring
  refine forRange_invariant (fun _ (s : List UInt8) => s.length = storage.length) rfl ?_
  intro l hl s hs
  refine forRange_invariant (fun _ (s : List UInt8) => s.length = storage.length) hs ?_
  intro j hj s hs
  have hlevel : (l + 1) * (5 + extra) ≤ levels * (5 + extra) := Nat.mul_le_mul_right _ hl
  have hextra : extra * (l + 1) ≤ extra * levels := Nat.mul_le_mul_left _ hl
  rw [Nat.succ_mul] at hlevel
  rw [Nat.mul_succ] at hextra
  rw [loadLe16, if_pos (by omega), ok_bind, ← hs]
  refine storeAt_inside ?_
  rw [storeLe16_length, hs]
  split_ifs <;> omega

theorem storeNumbers_inside (data storage : List UInt8) (offset : ℕ) (slot : Slot)
    (hfour : slot.size % 4 = 0) (hread : offset + slot.size ≤ data.length)
    (hroom : slot.offset + slot.size ≤ storage.length) :
    ∃ after, storeNumbers data offset slot storage = .ok after ∧
      after.length = storage.length := by
  refine forRange_invariant (fun _ (s : List UInt8) => s.length = storage.length) rfl ?_
  intro i hi s hs
  rw [loadLe32, if_pos (by omega), ok_bind, ← hs]
  refine storeAt_inside ?_
  rw [storeLe32_length, hs]
  omega

theorem copyBytes_inside (data storage : List UInt8) (offset : ℕ) (slot : Slot)
    (hread : offset + slot.size ≤ data.length)
    (hroom : slot.offset + slot.size ≤ storage.length) :
    ∃ after, copyBytes data offset slot storage = .ok after ∧ after.length = storage.length := by
  unfold copyBytes
  split_ifs
  · exact ⟨storage, rfl, rfl⟩
  · rw [readAt_eq hread, ok_bind]
    exact storeAt_inside (by rw [slice_length hread]; exact hroom)

/-- **Filling the storage stays inside**, when the sections are all there. -/
theorem fillStorage_inside (data storage : List UInt8) (offset : ℕ) {sizes : SectionSizes}
    (hnumbers : sizes.Numbers) {levels extra : ℕ}
    (hlevels : sizes.levels = levels * (10 + 2 * extra))
    (hread : offset + sizes.total ≤ data.length)
    (hroom : (storageLayout sizes levels extra).allocation ≤ storage.length) :
    ∃ after, fillStorage data offset sizes levels extra (storageLayout sizes levels extra) storage =
      .ok after ∧ after.length = storage.length := by
  have hsound := storageLayout_sound hnumbers levels extra
  set layout := storageLayout sizes levels extra with hlayout
  have hcompact : layout.compact.size = sizes.compact := rfl
  have hcoordinates : layout.coordinates.size = sizes.coordinates := rfl
  have hscores : layout.scores.size = sizes.scores := rfl
  have hangles : layout.angles.size = sizes.angles := rfl
  have hdescriptors : layout.descriptors.size = sizes.descriptors := rfl
  have hmembership : layout.membership.size = sizes.membership := rfl
  have hinside : ∀ slot ∈ layout.slots, slot.offset + slot.size ≤ storage.length :=
    fun slot hslot => (hsound.inside slot hslot).trans hroom
  rw [SectionSizes.total] at hread
  obtain ⟨s₁, h₁, hs₁⟩ := storeLevels_inside data storage offset levels extra (by omega)
    (hinside layout.extras (by simp [StorageLayout.slots]))
  obtain ⟨s₂, h₂, hs₂⟩ := copyBytes_inside data s₁ (offset + sizes.levels) layout.compact
    (by omega) (by rw [hs₁]; exact hinside _ (by simp [StorageLayout.slots]))
  rw [hs₁] at hs₂
  obtain ⟨s₃, h₃, hs₃⟩ := storeNumbers_inside data s₂ (offset + sizes.levels + sizes.compact)
    layout.coordinates hnumbers.coordinates (by omega)
    (by rw [hs₂]; exact hinside _ (by simp [StorageLayout.slots]))
  rw [hs₂] at hs₃
  obtain ⟨s₄, h₄, hs₄⟩ := storeNumbers_inside data s₃
    (offset + sizes.levels + sizes.compact + sizes.coordinates) layout.scores hnumbers.scores
    (by omega) (by rw [hs₃]; exact hinside _ (by simp [StorageLayout.slots]))
  rw [hs₃] at hs₄
  obtain ⟨s₅, h₅, hs₅⟩ := storeNumbers_inside data s₄
    (offset + sizes.levels + sizes.compact + sizes.coordinates + sizes.scores) layout.angles
    hnumbers.angles (by omega) (by rw [hs₄]; exact hinside _ (by simp [StorageLayout.slots]))
  rw [hs₄] at hs₅
  obtain ⟨s₆, h₆, hs₆⟩ := copyBytes_inside data s₅
    (offset + sizes.levels + sizes.compact + sizes.coordinates + sizes.scores + sizes.angles)
    layout.descriptors (by omega) (by rw [hs₅]; exact hinside _ (by simp [StorageLayout.slots]))
  rw [hs₅] at hs₆
  obtain ⟨s₇, h₇, hs₇⟩ := copyBytes_inside data s₆
    (offset + sizes.levels + sizes.compact + sizes.coordinates + sizes.scores + sizes.angles +
      sizes.descriptors) layout.membership (by omega)
    (by rw [hs₆]; exact hinside _ (by simp [StorageLayout.slots]))
  refine ⟨s₇, ?_, hs₇.trans hs₆⟩
  rw [fillStorage, h₁, ok_bind]
  dsimp only
  rw [h₂, ok_bind, h₃, ok_bind, h₄, ok_bind, h₅, ok_bind, h₆, ok_bind, h₇]

/-! ### Captures -/

/-- A capture in memory agrees with a loaded one: the same count, and an allocation that is laid out
for the counts of the view. -/
def CaptureAgrees (flags : UInt16) (memory : CaptureMemory) (loaded : LoadedCapture) : Prop :=
  memory.count = loaded.view.count ∧
    match memory.storage with
    | none => loaded.storage = none
    | some (layout, storage) =>
        layout = storageLayout (loaded.view.sizes flags) loaded.view.levels.toNat
            (extraWords loaded.view.tableWidth) ∧
          storage.length = if layout.allocation = 0 then 1 else layout.allocation

/-- The level counts of a slice. -/
theorem loadLevelCounts_slice {data : List UInt8} {start size : ℕ}
    (hin : start + size ≤ data.length) (stride : ℕ) (hstride : 2 ≤ stride) {levels offset : ℕ}
    (h : offset + stride * levels ≤ size) :
    Simulates Eq (loadLevelCounts stride data levels (start + offset))
      (loadLevelCounts stride (slice data start size) levels offset) := by
  induction levels generalizing offset with
  | zero => exact .ok rfl
  | succ levels ih =>
      rw [Nat.mul_succ] at h
      obtain ⟨w, hw, hw'⟩ := loadLe16_slice hin (show offset + 2 ≤ size by omega)
      rw [loadLevelCounts, loadLevelCounts, hw, hw', ok_bind, ok_bind]
      refine .guard Iff.rfl _ fun _ => ?_
      rw [Nat.add_assoc]
      refine (ih (by omega)).bind ?_
      rintro sum _ - - rfl
      exact .ok rfl

/-- The sections of the right total length are all cut out. -/
theorem loadSections_isOk (n : ℕ) (header : List UInt8) {sizes : SectionSizes} (levels extra : ℕ)
    {data : List UInt8} (h : data.length = sizes.total) :
    ∃ view, loadSections n header sizes levels extra data = .ok view ∧ view.count = n ∧
      view.descriptorBytes = header.getD 1 0 ∧ view.levels = header.getD 2 0 ∧
        view.tableWidth = header.getD 3 0 := by
  have hcut : ∀ (k : ℕ) (data : List UInt8), k ≤ data.length →
      readBytes k data = .ok (data.take k, data.drop k) := by
    intro k data hk
    rw [readBytes, cut, if_pos hk]
  rw [SectionSizes.total] at h
  unfold loadSections
  rw [hcut _ _ (by omega), ok_bind]
  dsimp only
  rw [hcut _ _ (by simp only [List.length_drop]; omega), ok_bind]
  dsimp only
  rw [hcut _ _ (by simp only [List.length_drop]; omega), ok_bind]
  dsimp only
  rw [hcut _ _ (by simp only [List.length_drop]; omega), ok_bind]
  dsimp only
  rw [hcut _ _ (by simp only [List.length_drop]; omega), ok_bind]
  dsimp only
  rw [hcut _ _ (by simp only [List.length_drop]; omega), ok_bind]
  dsimp only
  rw [hcut _ _ (by simp only [List.length_drop]; omega), ok_bind]
  exact ⟨_, rfl, rfl, rfl, rfl, rfl⟩

/-- **The loader of a capture in memory does what the loader on lists does.** -/
theorem captureLoadAt_simulates {data : List UInt8} {start size : ℕ}
    (hin : start + size ≤ data.length) (flags : UInt16) (fresh : ℕ) :
    Simulates (CaptureAgrees flags) (captureLoadAt data start size flags)
      (captureLoadPayload (slice data start size) flags fresh) := by
  have hlength := slice_length hin
  unfold captureLoadAt captureLoadPayload
  rw [hlength]
  refine .guard Iff.rfl _ fun hfour => ?_
  obtain ⟨count, hcount, hcount'⟩ := loadLe32_slice hin (show 0 + 4 ≤ size by omega)
  rw [Nat.add_zero] at hcount
  rw [hcount, hcount', ok_bind, ok_bind]
  dsimp only
  refine .guard Iff.rfl _ fun _ => ?_
  by_cases hflag : hasFlag flags 0x400 = true
  · simp only [hflag, Bool.not_true, Bool.false_eq_true, if_false]
    refine .guard Iff.rfl _ fun height => ?_
    have hheader : readAt data (start + 4) 4 =
        .ok (((slice data start size).drop 4).take 4) := by
      rw [slice_slice (by omega), readAt_eq (by omega)]
    rw [hheader, ok_bind]
    set header := ((slice data start size).drop 4).take 4
    set levels := header.getD 2 0
    set extra := extraWords (header.getD 3 0)
    set sizes := sectionSizes count.toNat (header.getD 1 0) levels (header.getD 3 0) flags
      with hsizes
    refine .guard Iff.rfl _ fun htotal => ?_
    have htotal : size = 8 + sizes.total := not_not.1 htotal
    have hlevels : sizes.levels = levels.toNat * (10 + 2 * extra) := rfl
    have hstride : 2 * (5 + extra) * levels.toNat = sizes.levels := by
      rw [hlevels]
      ring
    have hle : sizes.levels ≤ sizes.total := by
      unfold SectionSizes.total
      omega
    refine (loadLevelCounts_slice hin (2 * (5 + extra)) (by omega) (by omega)).bind ?_
    rintro sum _ - - rfl
    refine .guard Iff.rfl _ fun _ => ?_
    -- both succeed from here on
    have hsections : ((slice data start size).drop 8).length = sizes.total := by
      rw [List.length_drop, hlength]
      omega
    obtain ⟨view, hview, hcountEq, hbytes, hlevelsEq, hwidth⟩ :=
      loadSections_isOk count.toNat header levels.toNat extra hsections
    have hnumbers : sizes.Numbers := sectionSizes_numbers _ _ _ _ _
    set layout := storageLayout sizes levels.toNat extra with hlayout
    set allocation := if layout.allocation = 0 then 1 else layout.allocation with hallocation
    obtain ⟨storage, hfill, hstorage⟩ := fillStorage_inside data (List.replicate allocation 0)
      (start + 8) hnumbers hlevels (by omega)
      (show layout.allocation ≤ (List.replicate allocation (0 : UInt8)).length by
        rw [List.length_replicate, hallocation]
        split_ifs <;> omega)
    rw [hview, hfill, ok_bind, ok_bind]
    refine .ok ⟨hcountEq.symm, ?_, ?_⟩
    · show layout = storageLayout (sectionSizes view.count view.descriptorBytes view.levels
        view.tableWidth flags) view.levels.toNat (extraWords view.tableWidth)
      rw [hcountEq, hbytes, hlevelsEq, hwidth]
    · rw [hstorage, List.length_replicate]
  · rw [Bool.not_eq_true] at hflag
    simp only [hflag, Bool.not_false, if_true]
    exact .guard Iff.rfl _ fun _ => .ok ⟨rfl, rfl⟩

/-! ### Collections -/

/-- The checksum of a block in memory is that of its bytes. -/
theorem crcMatches_slice {data : List UInt8} {start size length : ℕ}
    (hin : start + size ≤ data.length) (hfour : 4 ≤ length) (hle : length ≤ size) :
    ∃ stored, loadLe32 data (start + (length - 4)) = .ok stored ∧
      crcMatches (slice data start size) length =
        .ok (crc32 (slice data start (length - 4)) == stored) := by
  obtain ⟨stored, hstored, hstored'⟩ := loadLe32_slice hin (show length - 4 + 4 ≤ size by omega)
  have hpart : ((slice data start size).drop 0).take (length - 4) =
      slice data (start + 0) (length - 4) := slice_slice (by omega)
  rw [List.drop_zero, Nat.add_zero] at hpart
  refine ⟨stored, hstored, ?_⟩
  rw [crcMatches, crcPrefix, if_pos (by rw [slice_length hin]; omega), ok_bind, hstored', ok_bind,
    hpart]

/-- A block in memory passes the check when its bytes do. -/
theorem checkedBlockAt_eq {data : List UInt8} {start size : ℕ} (hin : start + size ≤ data.length)
    (tag : ℕ) :
    Simulates Eq (checkedBlockAt data start size tag)
      (checkedBlock (slice data start size) tag) := by
  have hlength := slice_length hin
  unfold checkedBlockAt checkedBlock
  rw [hlength]
  refine .guard Iff.rfl _ fun hshort => ?_
  obtain ⟨found, hfound, hfound'⟩ := loadLe32_slice hin (show 0 + 4 ≤ size by omega)
  rw [Nat.add_zero] at hfound
  rw [hfound, hfound', ok_bind, ok_bind]
  refine .guard Iff.rfl _ fun _ => ?_
  obtain ⟨bytes, hbytes, hbytes'⟩ := loadLe32_slice hin (show 4 + 4 ≤ size by omega)
  rw [hbytes, hbytes', ok_bind, ok_bind]
  refine .guard Iff.rfl _ fun hbad => ?_
  obtain ⟨stored, hstored, hmatches⟩ :=
    crcMatches_slice hin (by omega) (by omega : bytes.toNat ≤ size)
  rw [readAt_eq (by omega), ok_bind, hstored, ok_bind, hmatches, ok_bind]
  split_ifs
  · exact .ok rfl
  · exact .fail _

/-- The captures of a finished array. -/
def CapturesAgree (memory : List (Option CaptureMemory)) (loaded : List LoadedCapture) : Prop :=
  List.Forall₂ (fun slot c => ∃ capture, slot = some capture ∧ CaptureAgrees defaultFlags capture c)
    memory loaded

/-- **The loop over the capture blocks** fills the rest of the array. -/
theorem loadCapturesAt_simulates {data : List UInt8} {start size : ℕ}
    (hin : start + size ≤ data.length) (fresh count : ℕ) {i offset : ℕ} (hoffset : offset ≤ size)
    {done : List (Option CaptureMemory)} (hdone : done.length = i) :
    Simulates (fun memory loaded => ∃ added, memory.1 = done ++ added ∧
        CapturesAgree added loaded.1 ∧ memory.2 = loaded.2 ∧ loaded.2 ≤ size)
      (loadCapturesAt data start size count i offset (done ++ List.replicate count none))
      (loadCaptures (slice data start size) fresh count i offset) := by
  induction count generalizing i offset done with
  | zero => exact .ok ⟨[], rfl, .nil, rfl, hoffset⟩
  | succ count ih =>
      have hrest : (slice data start size).drop offset =
          slice data (start + offset) (size - offset) := by
        rw [slice, slice, List.drop_take, List.drop_drop]
      rw [loadCapturesAt, loadCaptures, hrest]
      refine (checkedBlockAt_eq (by omega) _).bind ?_
      rintro length _ - hlength rfl
      obtain ⟨htwelve, hle, -, -⟩ := checkedBlock_eq_ok hlength
      rw [slice_length (by omega)] at hle
      have hpayload : blockPayload (slice data (start + offset) (size - offset)) length =
          slice data (start + offset + 8) (length - 12) := slice_slice (by omega)
      rw [hpayload]
      refine (captureLoadAt_simulates (by omega) defaultFlags (fresh + i)).bind ?_
      rintro capture loaded - - hagrees
      have hset : setAt (done ++ List.replicate (count + 1) none) i (some capture) =
          .ok (done ++ [some capture] ++ List.replicate count none) := by
        rw [setAt, if_pos (by simp; omega), List.set_append_right _ _ (by omega), hdone,
          Nat.sub_self, List.replicate_succ, List.set_cons_zero, List.append_assoc]
        rfl
      rw [hset, ok_bind]
      have hlast : (done ++ [some capture]).length = i + 1 := by simp [hdone]
      refine (ih (by omega : offset + length ≤ size) hlast).right ?_
      rintro memory ⟨captures, finish⟩ ⟨added, hmemory, hadded, hfinish, hle'⟩
      refine ⟨some capture :: added, ?_, .cons ⟨capture, rfl, hagrees⟩ hadded, hfinish, hle'⟩
      rw [hmemory, List.append_assoc]
      rfl

/-- **The loader of a collection in memory does what the loader on lists does.** -/
theorem collectionLoadAt_simulates {data : List UInt8} {start size : ℕ}
    (hin : start + size ≤ data.length) (fresh : ℕ) :
    Simulates (fun memory loaded => CapturesAgree memory.1 loaded.1.captures ∧
        memory.2.1 = loaded.1.capacity ∧ memory.2.2 = loaded.2 ∧ loaded.2 ≤ size)
      (collectionLoadAt data start size) (collectionLoadDefault (slice data start size) fresh) := by
  unfold collectionLoadAt collectionLoadDefault
  refine (checkedBlockAt_eq hin _).bind ?_
  rintro length _ - hlength rfl
  obtain ⟨-, hle, -, -⟩ := checkedBlock_eq_ok hlength
  rw [slice_length hin] at hle
  refine .guard Iff.rfl _ fun h24 => ?_
  obtain rfl := not_not.1 h24
  obtain ⟨flags, hflags, hflags'⟩ := loadLe32_slice hin (show 8 + 4 ≤ size by omega)
  rw [hflags, hflags', ok_bind, ok_bind]
  refine .guard Iff.rfl _ fun _ => ?_
  obtain ⟨count, hcount, hcount'⟩ := loadLe32_slice hin (show 12 + 4 ≤ size by omega)
  obtain ⟨capacity, hcapacity, hcapacity'⟩ := loadLe32_slice hin (show 16 + 4 ≤ size by omega)
  rw [hcount, hcount', ok_bind, ok_bind, hcapacity, hcapacity', ok_bind, ok_bind]
  refine .guard Iff.rfl _ fun _ => ?_
  have hblocks := loadCapturesAt_simulates hin fresh count.toNat hle
    (rfl : ([] : List (Option CaptureMemory)).length = 0)
  refine hblocks.bind ?_
  rintro ⟨memory, finish⟩ ⟨captures, finish'⟩ - - ⟨added, hmemory, hadded, hfinish, hle'⟩
  rw [List.nil_append] at hmemory
  exact .ok ⟨hmemory ▸ hadded, rfl, hfinish, hle'⟩

/-! ### Graphs -/

/-- Order and scores are the two parts of one sequence of words. -/
theorem loadEdges_eq {data : List UInt8} {offset capacity edges : ℕ}
    (h : offset + 2 * (capacity + edges) ≤ data.length) :
    loadEdges data offset capacity edges =
      .ok ((loadWords16 (capacity + edges) (data.drop offset)).take capacity,
        (loadWords16 (capacity + edges) (data.drop offset)).drop capacity) := by
  set words := loadWords16 (capacity + edges) (data.drop offset) with hwords
  have hlength : words.length = capacity + edges := loadWords16_length _ _
  obtain ⟨⟨order, scores⟩, hrun, horder, hscores, horderEq, hscoresEq⟩ :
      ∃ arrays, loadEdges data offset capacity edges = .ok arrays ∧
        arrays.1.length = capacity ∧ arrays.2.length = edges ∧
          (∀ j < capacity + edges, j < capacity → arrays.1.getD j 0 = words.getD j 0) ∧
            ∀ j < capacity + edges, capacity ≤ j →
              arrays.2.getD (j - capacity) 0 = words.getD j 0 := by
    refine forRange_invariant (fun i (arrays : List UInt16 × List UInt16) =>
      arrays.1.length = capacity ∧ arrays.2.length = edges ∧
        (∀ j < i, j < capacity → arrays.1.getD j 0 = words.getD j 0) ∧
          ∀ j < i, capacity ≤ j → arrays.2.getD (j - capacity) 0 = words.getD j 0)
      ⟨List.length_replicate, List.length_replicate, nofun, nofun⟩ ?_
    rintro i hi ⟨order, scores⟩ ⟨horder, hscores, horderEq, hscoresEq⟩
    dsimp only at horder hscores horderEq hscoresEq ⊢
    rw [loadLe16, if_pos (by omega), ok_bind, ← loadWords16_getD hi h, ← hwords]
    by_cases hlow : i < capacity
    · rw [if_pos hlow, setAt, if_pos (by omega), ok_bind]
      refine ⟨_, rfl, by rw [List.length_set, horder], hscores, fun j hj hj' => ?_,
        fun j hj hj' => hscoresEq j (by omega) hj'⟩
      rw [Scans.getD_set (by omega)]
      split_ifs with heq
      · rw [heq]
      · exact horderEq j (by omega) hj'
    · rw [if_neg hlow, setAt, if_pos (by omega), ok_bind]
      refine ⟨_, rfl, horder, by rw [List.length_set, hscores],
        fun j hj hj' => horderEq j (by omega) hj', fun j hj hj' => ?_⟩
      rw [Scans.getD_set (by omega)]
      split_ifs with heq
      · rw [show j = i by omega]
      · exact hscoresEq j (by omega) hj'
  dsimp only at horder hscores horderEq hscoresEq
  have htake : order = words.take capacity := by
    refine ext_getD 0 (by rw [horder, List.length_take]; omega) fun i hi => ?_
    rw [horderEq i (by omega) (by omega), List.getD_eq_getElem?_getD, List.getD_eq_getElem?_getD,
      List.getElem?_take_of_lt (by omega)]
  have hdrop : scores = words.drop capacity := by
    refine ext_getD 0 (by rw [hscores, List.length_drop]; omega) fun i hi => ?_
    have hvalue := hscoresEq (capacity + i) (by omega) (by omega)
    rw [Nat.add_sub_cancel_left] at hvalue
    rw [hvalue, List.getD_eq_getElem?_getD, List.getD_eq_getElem?_getD, List.getElem?_drop]
  rw [hrun, htake, hdrop]

/-- The words of a slice are words of the bytes. -/
theorem loadWords16_slice {data : List UInt8} {start size offset n : ℕ}
    (hin : start + size ≤ data.length) (h : offset + 2 * n ≤ size) :
    loadWords16 n ((slice data start size).drop offset) =
      loadWords16 n (data.drop (start + offset)) := by
  have hshort : slice data (start + offset) (2 * n) =
      (data.drop (start + offset)).take (2 * n) := rfl
  have hlength : (slice data (start + offset) (2 * n)).length = 2 * n := slice_length (by omega)
  have hleft : (slice data start size).drop offset =
      slice data (start + offset) (2 * n) ++
        ((slice data start size).drop offset).drop (2 * n) := by
    rw [← slice_slice h, List.take_append_drop]
  have hright : data.drop (start + offset) =
      slice data (start + offset) (2 * n) ++ (data.drop (start + offset)).drop (2 * n) := by
    rw [hshort, List.take_append_drop]
  rw [hleft, hright, loadWords16, loadWords16, leWords_append hlength, leWords_append hlength]

/-- **The loader of a graph in memory does what the loader on lists does.** -/
theorem graphLoadAt_simulates {data : List UInt8} {start size : ℕ}
    (hin : start + size ≤ data.length) :
    Simulates Eq (graphLoadAt data start size)
      (retainedGraphLoadPayload (slice data start size)) := by
  have hlength := slice_length hin
  unfold graphLoadAt retainedGraphLoadPayload
  rw [hlength]
  refine .guard Iff.rfl _ fun hshort => ?_
  have hheader : loadHeader data start = .ok (loadWords16 6 (slice data start size)) := by
    have hsame : loadWords16 6 ((slice data start size).drop 0) =
        loadWords16 6 (data.drop (start + 0)) := loadWords16_slice hin (by omega)
    rw [List.drop_zero, Nat.add_zero] at hsame
    rw [hsame]
    exact loadWordsAt_eq (by omega)
  rw [hheader, ok_bind]
  dsimp only
  set h := loadWords16 6 (slice data start size)
  refine .guard Iff.rfl _ fun _ => ?_
  refine .guard Iff.rfl _ fun _ => ?_
  refine .guard Iff.rfl _ fun hsize => ?_
  have hsize := not_not.1 hsize
  rw [loadEdges_eq (by omega), ok_bind, loadWords16_slice hin (by omega)]
  exact .ok rfl

theorem agesLoadAt_simulates {data : List UInt8} {start size : ℕ}
    (hin : start + size ≤ data.length) (graph : RetainedGraph) (retentionCapacity : UInt8) :
    Simulates Eq (agesLoadAt graph data start size retentionCapacity)
      (retainedGraphLoadAges graph (slice data start size) retentionCapacity) := by
  unfold agesLoadAt retainedGraphLoadAges
  rw [slice_length hin]
  refine .guard Iff.rfl _ fun hbad => ?_
  push Not at hbad
  have hsame : loadWords16 retentionCapacity.toNat ((slice data start size).drop 0) =
      loadWords16 retentionCapacity.toNat (data.drop (start + 0)) :=
    loadWords16_slice hin (by omega)
  rw [List.drop_zero, Nat.add_zero] at hsame
  rw [loadWordsAt_eq (by omega), ok_bind, hsame]
  exact .ok rfl

/-! ### Templates -/

/-- The framing check in memory goes through the blocks like the one on lists. -/
theorem validateBlocksAt_simulates {data : List UInt8} {fuel offset count : ℕ}
    (hin : offset ≤ data.length) :
    Simulates Eq (validateBlocksAt data fuel offset count)
      (validateBlocks fuel (data.drop offset) count) := by
  have hempty : ∀ offset, data.length ≤ offset ↔ data.drop offset = [] := fun offset =>
    List.drop_eq_nil_iff.symm
  induction fuel generalizing offset count with
  | zero =>
      rw [validateBlocksAt, validateBlocks]
      by_cases hend : data.drop offset = []
      · rw [if_pos hend, if_pos ((hempty offset).2 hend)]
        exact .ok rfl
      · rw [if_neg hend, if_neg fun hle => hend ((hempty offset).1 hle)]
        exact .fail _
  | succ fuel ih =>
      rw [validateBlocksAt, validateBlocks]
      by_cases hend : data.drop offset = []
      · rw [if_pos hend, if_pos ((hempty offset).2 hend)]
        exact .ok rfl
      rw [if_neg hend, if_neg fun hle => hend ((hempty offset).1 hle), List.length_drop]
      refine .guard Iff.rfl _ fun hshort => ?_
      have hall : offset + (data.length - offset) ≤ data.length := by omega
      obtain ⟨length, hlength, hlength'⟩ :=
        loadLe32_slice hall (show 4 + 4 ≤ data.length - offset by omega)
      rw [slice_all] at hlength'
      rw [hlength, hlength', ok_bind, ok_bind]
      refine .guard Iff.rfl _ fun hbad => ?_
      obtain ⟨stored, hstored, hmatches⟩ := crcMatches_slice hall
        (by omega : 4 ≤ length.toNat) (by omega)
      rw [slice_all] at hmatches
      rw [readAt_eq (by omega), ok_bind, hstored, ok_bind, hmatches, ok_bind]
      split_ifs
      · rw [List.drop_drop]
        exact ih (by omega)
      · exact .fail _

theorem templateValidateAt_simulates (data : List UInt8) :
    Simulates Eq (templateValidateAt data) (templateValidate data) := by
  unfold templateValidateAt templateValidate
  refine .guard Iff.rfl _ fun hshort => ?_
  rw [loadLe32, if_pos (by omega), ok_bind, ok_bind]
  refine .guard Iff.rfl _ fun _ => ?_
  refine (validateBlocksAt_simulates (by omega)).bind ?_
  rintro blocks _ - - rfl
  rw [loadLe16, if_pos (by omega), loadLe16, if_pos (by omega)]
  exact .ok rfl

/-- The loop over the blocks ends before its fuel does: more fuel changes nothing. -/
theorem validateBlocksAt_fuel {data : List UInt8} {fuel offset count : ℕ}
    (h : data.length ≤ offset + fuel) (more : ℕ) :
    validateBlocksAt data (fuel + more) offset count = validateBlocksAt data fuel offset count := by
  induction fuel generalizing offset count with
  | zero =>
      have hend : data.length ≤ offset := h
      rw [validateBlocksAt, if_pos hend]
      cases more with
      | zero => rw [validateBlocksAt, if_pos hend]
      | succ more => rw [Nat.zero_add, validateBlocksAt, if_pos hend]
  | succ fuel ih =>
      rw [Nat.add_right_comm, validateBlocksAt, validateBlocksAt]
      split_ifs with hend hshort
      · rfl
      · rfl
      · refine congrArg₂ (· >>= ·) rfl (funext fun length => ?_)
        split_ifs with hbad
        · rfl
        · rw [ih (by omega)]

theorem metadataLoadAt_simulates {data : List UInt8} {start : ℕ} (hin : start ≤ data.length) :
    Simulates (fun found found' => found = found' ∧ start + found'.2.2 ≤ data.length)
      (metadataLoadAt data start) (loadMetadata (data.drop start)) := by
  have hall : start + (data.length - start) ≤ data.length := by omega
  unfold metadataLoadAt loadMetadata
  rw [← slice_all]
  refine (checkedBlockAt_eq hall _).bind ?_
  rintro length _ - hlength rfl
  obtain ⟨-, hle, -, -⟩ := checkedBlock_eq_ok hlength
  rw [slice_length hall] at hle
  refine .guard Iff.rfl _ fun h16 => ?_
  obtain rfl := not_not.1 h16
  obtain ⟨metadata, hmetadata, hmetadata'⟩ :=
    loadLe16_slice hall (show 8 + 2 ≤ data.length - start by omega)
  obtain ⟨count, hcount, hcount'⟩ :=
    loadLe16_slice hall (show 10 + 2 ≤ data.length - start by omega)
  rw [hmetadata, hmetadata', ok_bind, ok_bind, hcount, hcount', ok_bind]
  exact .guard Iff.rfl _ fun _ => .ok ⟨rfl, by dsimp only; omega⟩

theorem graphBlockAt_simulates {data : List UInt8} {start : ℕ} (hin : start ≤ data.length)
    (count : UInt16) :
    Simulates (fun found found' => found = found' ∧ start + found'.2 ≤ data.length)
      (graphBlockAt data start count) (loadGraphBlock (data.drop start) count) := by
  have hall : start + (data.length - start) ≤ data.length := by omega
  unfold graphBlockAt loadGraphBlock
  rw [← slice_all]
  refine (checkedBlockAt_eq hall _).bind ?_
  rintro length _ - hlength rfl
  obtain ⟨htwelve, hle, -, -⟩ := checkedBlock_eq_ok hlength
  rw [slice_length hall] at hle
  have hpayload : blockPayload (slice data start (data.length - start)) length =
      slice data (start + 8) (length - 12) := slice_slice (by omega)
  rw [hpayload]
  refine ((graphLoadAt_simulates (by omega)).withStatus 140).bind ?_
  rintro ⟨graph, pending⟩ _ - - rfl
  exact .guard Iff.rfl _ fun _ => .ok ⟨rfl, by dsimp only; omega⟩

theorem ageBlockAt_simulates {data : List UInt8} {start : ℕ} (hin : start ≤ data.length)
    (graph : RetainedGraph) (retentionCapacity : UInt8) :
    Simulates Eq (ageBlockAt data start graph retentionCapacity)
      (loadAgeBlock (data.drop start) graph retentionCapacity) := by
  have hall : start + (data.length - start) ≤ data.length := by omega
  unfold ageBlockAt loadAgeBlock
  rw [← slice_all]
  refine (checkedBlockAt_eq hall _).bind ?_
  rintro length _ - hlength rfl
  obtain ⟨htwelve, hle, -, -⟩ := checkedBlock_eq_ok hlength
  rw [slice_length hall] at hle ⊢
  refine .guard (by omega) _ fun _ => ?_
  have hpayload : blockPayload (slice data start (data.length - start)) length =
      slice data (start + 8) (length - 12) := slice_slice (by omega)
  rw [hpayload]
  exact (agesLoadAt_simulates (by omega) graph retentionCapacity).withStatus 140

/-- A template in memory agrees with a loaded one. -/
structure TemplateAgrees (memory : TemplateMemory) (t : LoadedTemplate) : Prop where
  graph : memory.graph = t.graph
  captures : CapturesAgree memory.captures t.collection.captures
  capacity : memory.capacity = t.collection.capacity
  metadata : memory.metadata = t.metadata

/-- **The loader in memory does what the loader on lists does.** -/
theorem templateLoadAt_simulates (data : List UInt8) (retentionCapacity : UInt8) (fresh : ℕ) :
    Simulates TemplateAgrees (templateLoadAt data retentionCapacity)
      (templateLoadDefault data retentionCapacity fresh) := by
  unfold templateLoadAt templateLoadDefault
  refine .guard Iff.rfl _ fun _ => ?_
  refine ((templateValidateAt_simulates data).withStatus 140).bind ?_
  rintro ⟨version, blocks⟩ _ - hvalid rfl
  have hlong : 8 ≤ data.length := by
    have hvalid := withStatus_eq_ok hvalid
    unfold templateValidate at hvalid
    split_ifs at hvalid with hshort
    omega
  refine .guard Iff.rfl _ fun _ => ?_
  unfold loadTemplateBlocks
  refine (metadataLoadAt_simulates hlong).bind ?_
  rintro ⟨metadata, count, l₁⟩ _ - - ⟨rfl, h₁⟩
  dsimp only at h₁ ⊢
  rw [List.drop_drop]
  refine (graphBlockAt_simulates h₁ count).bind ?_
  rintro ⟨graph, l₂⟩ _ - - ⟨rfl, h₂⟩
  dsimp only at h₂ ⊢
  rw [List.drop_drop, ← slice_all data (8 + l₁ + l₂)]
  have hall : 8 + l₁ + l₂ + (data.length - (8 + l₁ + l₂)) ≤ data.length := by omega
  refine (collectionLoadAt_simulates hall fresh).bind ?_
  rintro ⟨captures, capacity, consumed⟩ ⟨collection, l₃⟩ - - ⟨hcaptures, hcapacity, hconsumed, h₃⟩
  dsimp only at hcaptures hcapacity hconsumed h₃ ⊢
  obtain rfl := hconsumed
  rw [slice_all, List.drop_drop]
  refine .guard (by rw [hcaptures.length_eq]) _ fun _ => ?_
  refine (ageBlockAt_simulates (by omega) graph retentionCapacity).bind ?_
  rintro graph' _ - - rfl
  exact .ok ⟨rfl, hcaptures, hcapacity, rfl⟩

/-- The arrays of a capture in memory: inside its storage, apart from each other, and of the lengths
its counts announce. -/
structure CaptureMemory.Sound (memory : CaptureMemory) (view : CapturePayloadView) : Prop where
  stored : ∃ layout storage, memory.storage = some (layout, storage) ∧ layout.Sound storage.length ∧
    layout.fields.size = 2 * (5 * view.levels.toNat) ∧
    layout.extras.size = 2 * (extraWords view.tableWidth * view.levels.toNat) ∧
    layout.compact.size = 2 * view.count ∧
    layout.descriptors.size = view.count * view.descriptorBytes.toNat ∧
    layout.membership.size = (view.count + 7) / 8

theorem CaptureAgrees.sound {memory : CaptureMemory} {loaded : LoadedCapture}
    (h : CaptureAgrees defaultFlags memory loaded) (hstorage : loaded.storage ≠ none) :
    memory.Sound loaded.view := by
  obtain ⟨-, hlayout⟩ := h
  cases hmemory : memory.storage with
  | none =>
      rw [hmemory] at hlayout
      exact absurd hlayout hstorage
  | some stored =>
      obtain ⟨layout, storage⟩ := stored
      rw [hmemory] at hlayout
      obtain ⟨rfl, hsize⟩ := hlayout
      have hsound := storageLayout_sound
        (sectionSizes_numbers loaded.view.count loaded.view.descriptorBytes loaded.view.levels
          loaded.view.tableWidth defaultFlags) loaded.view.levels.toNat
        (extraWords loaded.view.tableWidth)
      have hsizes := default_sizes loaded.view
      refine ⟨_, storage, hmemory, { hsound with inside := fun slot hslot => ?_ }, ?_, rfl, ?_, ?_,
        ?_⟩
      · refine (hsound.inside slot hslot).trans ?_
        rw [hsize]
        show (storageLayout (loaded.view.sizes defaultFlags) _ _).allocation ≤ _
        split_ifs <;> omega
      · simp only [storageLayout]
        ring
      · simp only [storageLayout, hsizes]
      · simp only [storageLayout, hsizes]
      · simp only [storageLayout, hsizes]

/-- **The loader is safe on every input.**  For all bytes and every retention capacity: the loop
over the blocks ends before its fuel does, neither the framing check nor the loader makes an access
outside the bytes or an allocation, both do what they do on lists, and after an accepted load every
array of every capture is inside its storage, apart from the others and of the announced length. -/
theorem templateLoadAt_safe (data : List UInt8) (retentionCapacity : UInt8) (fresh : ℕ) :
    (∀ more, validateBlocksAt data (data.length + more) 8 0 =
        validateBlocksAt data data.length 8 0) ∧
      templateValidateAt data ≠ .error .outOfBounds ∧
      templateValidateAt data = templateValidate data ∧
      templateLoadAt data retentionCapacity ≠ .error .outOfBounds ∧
      Simulates TemplateAgrees (templateLoadAt data retentionCapacity)
        (templateLoadDefault data retentionCapacity fresh) ∧
      ∀ memory, templateLoadAt data retentionCapacity = .ok memory →
        ∃ t, templateLoadDefault data retentionCapacity fresh = .ok t ∧
          List.Forall₂ (fun slot c => ∃ capture, slot = some capture ∧
            capture.Sound (LoadedCapture.view c)) memory.captures t.collection.captures := by
  have hvalidate := templateValidateAt_simulates data
  have hload := templateLoadAt_simulates data retentionCapacity fresh
  refine ⟨validateBlocksAt_fuel (by omega), hvalidate.left_ne, hvalidate.eq, hload.left_ne, hload,
    fun memory hmemory => ?_⟩
  obtain ⟨t, ht, hagrees⟩ := hload.of_ok hmemory
  have hstorage := (templateLoadDefault_sound ht).2
  refine ⟨t, ht, ?_⟩
  have hcaptures := hagrees.captures
  rw [CapturesAgree, List.forall₂_iff_get] at hcaptures
  rw [List.forall₂_iff_get]
  refine ⟨hcaptures.1, fun i h h' => ?_⟩
  obtain ⟨capture, hcapture, hsame⟩ := hcaptures.2 i h h'
  obtain ⟨k, -, hk⟩ := hstorage _ (List.get_mem _ ⟨i, h'⟩)
  exact ⟨capture, hcapture, hsame.sound (by rw [hk]; nofun)⟩

end Fpc
