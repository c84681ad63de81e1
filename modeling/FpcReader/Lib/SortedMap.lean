/-
**Sorted maps.**

A finite map kept as a list of entries in strictly increasing order of their keys, the way an
ordered container iterates over it.  The entries are exactly what lookup finds, so two maps that
agree on all lookups are equal.

Main definitions:

* `SortedMap` — a list of entries with the proof that its keys increase;
* `SortedMap.find?`, `SortedMap.insert`, `SortedMap.erase` — lookup and update;
* `SortedMap.filterMap` — transform the values, dropping some entries.

Main results:

* `SortedMap.find?_insert`, `SortedMap.find?_erase` — **lookup after an update**;
* `SortedMap.mem_entries` — the entries are the bindings that lookup finds;
* `SortedMap.ext_find?` — **maps with the same lookups are equal**.
-/

import Mathlib.Order.Basic
import Mathlib.Data.List.Basic
import Mathlib.Data.List.Pairwise
import Mathlib.Data.List.Sort

set_option relaxedAutoImplicit false
set_option autoImplicit false

/-- A map from keys to values, sorted by key. -/
structure SortedMap (κ ν : Type) [LinearOrder κ] where
  /-- The bindings, in order. -/
  entries : List (κ × ν)
  /-- No key occurs twice, and the keys increase. -/
  sorted : entries.Pairwise fun a b => a.1 < b.1

namespace SortedMap

variable {κ ν μ : Type} [LinearOrder κ]

@[ext]
theorem ext {m m' : SortedMap κ ν} (h : m.entries = m'.entries) : m = m' := by
  cases m
  cases m'
  cases h
  rfl

instance [DecidableEq ν] : DecidableEq (SortedMap κ ν) := fun m m' =>
  decidable_of_iff (m.entries = m'.entries) ⟨ext, fun h => h ▸ rfl⟩

/-! ### Lookup and update -/

/-- The map without bindings. -/
def empty : SortedMap κ ν := ⟨[], .nil⟩

/-- The value of a key in a list of entries. -/
def lookup (k : κ) : List (κ × ν) → Option ν
  | [] => none
  | e :: rest => if e.1 = k then some e.2 else lookup k rest

def find? (m : SortedMap κ ν) (k : κ) : Option ν := lookup k m.entries

/-- Put an entry where it belongs, replacing one with the same key. -/
def insertEntry (k : κ) (v : ν) : List (κ × ν) → List (κ × ν)
  | [] => [(k, v)]
  | e :: rest =>
      if k < e.1 then (k, v) :: e :: rest
      else if k = e.1 then (k, v) :: rest
      else e :: insertEntry k v rest

theorem mem_insertEntry {k : κ} {v : ν} {l : List (κ × ν)} {e : κ × ν}
    (h : e ∈ insertEntry k v l) : e = (k, v) ∨ e ∈ l := by
  induction l with
  | nil => simpa [insertEntry] using h
  | cons d rest ih =>
      rw [insertEntry] at h
      split_ifs at h with hlt heq
      · rcases List.mem_cons.1 h with h | h
        · exact .inl h
        · exact .inr h
      · rcases List.mem_cons.1 h with h | h
        · exact .inl h
        · exact .inr (List.mem_cons_of_mem _ h)
      · rcases List.mem_cons.1 h with h | h
        · exact .inr (by simp [h])
        · rcases ih h with h | h
          · exact .inl h
          · exact .inr (List.mem_cons_of_mem _ h)

theorem insertEntry_sorted {k : κ} {v : ν} {l : List (κ × ν)}
    (h : l.Pairwise fun a b => a.1 < b.1) :
    (insertEntry k v l).Pairwise fun a b => a.1 < b.1 := by
  induction l with
  | nil => simp [insertEntry]
  | cons e rest ih =>
      obtain ⟨hhead, hrest⟩ := List.pairwise_cons.1 h
      rw [insertEntry]
      split_ifs with hlt heq
      · refine List.pairwise_cons.2 ⟨fun d hd => ?_, h⟩
        rcases List.mem_cons.1 hd with rfl | hd
        · exact hlt
        · exact hlt.trans (hhead d hd)
      · refine List.pairwise_cons.2 ⟨fun d hd => ?_, hrest⟩
        rw [heq]
        exact hhead d hd
      · refine List.pairwise_cons.2 ⟨fun d hd => ?_, ih hrest⟩
        rcases mem_insertEntry hd with rfl | hd
        · exact lt_of_le_of_ne (not_lt.1 hlt) (Ne.symm heq)
        · exact hhead d hd

def insert (m : SortedMap κ ν) (k : κ) (v : ν) : SortedMap κ ν :=
  ⟨insertEntry k v m.entries, insertEntry_sorted m.sorted⟩

def erase (m : SortedMap κ ν) (k : κ) : SortedMap κ ν :=
  ⟨m.entries.filter (·.1 ≠ k), m.sorted.filter _⟩

/-- Transform the values, dropping the entries that give none. -/
def filterMap (f : κ → ν → Option μ) (m : SortedMap κ ν) : SortedMap κ μ :=
  ⟨m.entries.filterMap fun e => (f e.1 e.2).map fun v => (e.1, v), by
    refine List.Pairwise.filterMap _ (fun a b hab c hc d hd => ?_) m.sorted
    obtain ⟨v, -, rfl⟩ := Option.map_eq_some_iff.1 hc
    obtain ⟨w, -, rfl⟩ := Option.map_eq_some_iff.1 hd
    exact hab⟩

/-! ### Lookup after an update -/

@[simp]
theorem find?_empty (k : κ) : (empty : SortedMap κ ν).find? k = none := rfl

theorem lookup_insertEntry (k k' : κ) (v : ν) (l : List (κ × ν)) :
    lookup k' (insertEntry k v l) = if k = k' then some v else lookup k' l := by
  induction l with
  | nil => rfl
  | cons e rest ih =>
      rw [insertEntry]
      by_cases hlt : k < e.1
      · rw [if_pos hlt, lookup]
      by_cases heq : k = e.1
      · rw [if_neg hlt, if_pos heq, lookup, lookup]
        by_cases hkey : k = k'
        · rw [if_pos hkey, if_pos hkey]
        · rw [if_neg hkey, if_neg hkey, if_neg (heq ▸ hkey)]
      · rw [if_neg hlt, if_neg heq, lookup, lookup, ih]
        by_cases hkey : e.1 = k'
        · rw [if_pos hkey, if_pos hkey, if_neg fun h => heq (h.trans hkey.symm)]
        · rw [if_neg hkey, if_neg hkey]

/-- **Lookup after an insertion.** -/
theorem find?_insert (m : SortedMap κ ν) (k k' : κ) (v : ν) :
    (m.insert k v).find? k' = if k = k' then some v else m.find? k' :=
  lookup_insertEntry k k' v m.entries

@[simp]
theorem find?_insert_self (m : SortedMap κ ν) (k : κ) (v : ν) :
    (m.insert k v).find? k = some v := by
  rw [find?_insert, if_pos rfl]

theorem find?_insert_of_ne (m : SortedMap κ ν) {k k' : κ} (h : k' ≠ k) (v : ν) :
    (m.insert k v).find? k' = m.find? k' := by
  rw [find?_insert, if_neg (Ne.symm h)]

theorem lookup_filter_ne (k k' : κ) (l : List (κ × ν)) :
    lookup k' (l.filter (·.1 ≠ k)) = if k = k' then none else lookup k' l := by
  induction l with
  | nil => simp [lookup]
  | cons e rest ih =>
      by_cases hkey : e.1 = k
      · rw [List.filter_cons_of_neg (by simp [hkey]), ih]
        split_ifs with hk
        · rfl
        · rw [lookup, if_neg (hkey ▸ hk)]
      · rw [List.filter_cons_of_pos (by simp [hkey]), lookup, ih]
        split_ifs with h1 h2 h2
        · exact absurd (h1.trans h2.symm) hkey
        · rw [lookup, if_pos h1]
        · rfl
        · rw [lookup, if_neg h1]

/-- **Lookup after a removal.** -/
theorem find?_erase (m : SortedMap κ ν) (k k' : κ) :
    (m.erase k).find? k' = if k = k' then none else m.find? k' :=
  lookup_filter_ne k k' m.entries

theorem find?_erase_of_ne (m : SortedMap κ ν) {k k' : κ} (h : k' ≠ k) :
    (m.erase k).find? k' = m.find? k' := by
  rw [find?_erase, if_neg (Ne.symm h)]

/-! ### Entries -/

theorem lookup_eq_some {l : List (κ × ν)} (h : l.Pairwise fun a b => a.1 < b.1) {k : κ} {v : ν} :
    lookup k l = some v ↔ (k, v) ∈ l := by
  induction l with
  | nil => simp [lookup]
  | cons e rest ih =>
      obtain ⟨hhead, hrest⟩ := List.pairwise_cons.1 h
      rw [lookup, List.mem_cons]
      split_ifs with hkey
      · constructor
        · intro hv
          rw [← Option.some.inj hv, ← hkey]
          exact .inl rfl
        · rintro (rfl | hmem)
          · rfl
          · exact absurd (hhead _ hmem) (hkey ▸ lt_irrefl e.1)
      · rw [ih hrest]
        constructor
        · exact .inr
        · rintro (rfl | hmem)
          · exact absurd rfl hkey
          · exact hmem

/-- **The entries are the bindings that lookup finds.** -/
theorem mem_entries {m : SortedMap κ ν} {k : κ} {v : ν} :
    (k, v) ∈ m.entries ↔ m.find? k = some v :=
  (lookup_eq_some m.sorted).symm

theorem mem_entries_filterMap {f : κ → ν → Option μ} {m : SortedMap κ ν} {k : κ} {w : μ} :
    (k, w) ∈ (m.filterMap f).entries ↔ ∃ v, (k, v) ∈ m.entries ∧ f k v = some w := by
  simp only [filterMap, List.mem_filterMap, Option.map_eq_some_iff, Prod.mk.injEq, Prod.exists]
  constructor
  · rintro ⟨k', v, hmem, w', hw, rfl, rfl⟩
    exact ⟨v, hmem, hw⟩
  · rintro ⟨v, hmem, hw⟩
    exact ⟨k, v, hmem, w, hw, rfl, rfl⟩

/-- Lookup after a transformation. -/
theorem find?_filterMap (f : κ → ν → Option μ) (m : SortedMap κ ν) (k : κ) :
    (m.filterMap f).find? k = (m.find? k).bind (f k) := by
  refine Option.ext fun w => ?_
  rw [← mem_entries, mem_entries_filterMap, Option.bind_eq_some_iff]
  simp only [mem_entries]

/-- **Maps with the same lookups are equal.** -/
theorem ext_find? {m m' : SortedMap κ ν} (h : ∀ k, m.find? k = m'.find? k) : m = m' := by
  have hirrefl : Std.Irrefl fun a b : κ × ν => a.1 < b.1 := ⟨fun a => lt_irrefl a.1⟩
  have hasymm : Std.Antisymm fun a b : κ × ν => a.1 < b.1 :=
    ⟨fun a b hab hba => absurd hba hab.asymm⟩
  refine ext (m.sorted.eq_of_mem_iff m'.sorted fun e => ?_)
  rw [mem_entries, mem_entries, h]

end SortedMap
