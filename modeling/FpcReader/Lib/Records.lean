/-
**Tables of fixed-width records.**

A table is stored as its records one after the other, each in the same number of bytes.  When every
record comes back from its bytes and every piece of the right length is the bytes of what it loads
as, the same holds of whole tables.

Main definitions:

* `Records.Format` — a record format, with the proofs that it loses nothing;
* `Records.Format.storeAll`, `Records.Format.loadAll` — a table and its bytes.

Main results:

* `Records.Format.loadAll_storeAll` — **a stored table loads back**;
* `Records.Format.storeAll_loadAll` — **loaded bytes are stored again**.
-/

import FpcReader.Lib.Bytes

set_option relaxedAutoImplicit false
set_option autoImplicit false

namespace Records

open Bytes

/-- A format for records of type `α`.  Not every record need come back from its bytes, as a format
may leave a part of it out: those that do are the records that fit. -/
structure Format (α : Type) where
  /-- The number of bytes of a record. -/
  width : ℕ
  store : α → List UInt8
  load : List UInt8 → α
  Fits : α → Prop
  store_length : ∀ a, (store a).length = width
  load_store : ∀ a, Fits a → load (store a) = a
  store_load : ∀ bytes : List UInt8, bytes.length = width → store (load bytes) = bytes

namespace Format

variable {α : Type} (format : Format α)

/-- The bytes of a table. -/
def storeAll (records : List α) : List UInt8 := records.flatMap format.store

/-- The first `n` records of a table. -/
def loadAll : ℕ → List UInt8 → List α
  | 0, _ => []
  | n + 1, bytes => format.load (bytes.take format.width) :: loadAll n (bytes.drop format.width)

@[simp]
theorem storeAll_length (records : List α) :
    (format.storeAll records).length = format.width * records.length := by
  induction records with
  | nil => rfl
  | cons a records ih =>
      rw [storeAll] at ih
      rw [storeAll, List.flatMap_cons, List.length_append, format.store_length, ih,
        List.length_cons, Nat.mul_succ, Nat.add_comm]

@[simp]
theorem loadAll_length (n : ℕ) (bytes : List UInt8) : (format.loadAll n bytes).length = n := by
  induction n generalizing bytes with
  | zero => rfl
  | succ n ih => rw [loadAll, List.length_cons, ih]

/-- **A stored table loads back.** -/
theorem loadAll_storeAll {records : List α} (h : ∀ a ∈ records, format.Fits a) :
    format.loadAll records.length (format.storeAll records) = records := by
  induction records with
  | nil => rfl
  | cons a records ih =>
      have hlength := format.store_length a
      have htable : format.storeAll (a :: records) = format.store a ++ format.storeAll records :=
        List.flatMap_cons
      rw [htable, List.length_cons, loadAll, List.take_left' hlength, List.drop_left' hlength,
        format.load_store a (h a (by simp)), ih fun b hb => h b (by simp [hb])]

/-- **Loaded bytes are stored again.** -/
theorem storeAll_loadAll {n : ℕ} {bytes : List UInt8} (h : bytes.length = format.width * n) :
    format.storeAll (format.loadAll n bytes) = bytes := by
  induction n generalizing bytes with
  | zero =>
      rw [Nat.mul_zero, List.length_eq_zero_iff] at h
      rw [h]
      rfl
  | succ n ih =>
      rw [Nat.mul_succ] at h
      have hhead : (bytes.take format.width).length = format.width := by
        rw [List.length_take]
        omega
      have htail : (bytes.drop format.width).length = format.width * n := by
        rw [List.length_drop]
        omega
      have htable := ih htail
      rw [storeAll] at htable
      rw [loadAll, storeAll, List.flatMap_cons, htable, format.store_load _ hhead,
        List.take_append_drop]

/-- What holds of the records that any bytes load as holds of a loaded table. -/
theorem forall_loadAll {p : α → Prop} (h : ∀ bytes, p (format.load bytes)) (n : ℕ)
    (bytes : List UInt8) : ∀ a ∈ format.loadAll n bytes, p a := by
  induction n generalizing bytes with
  | zero => simp [loadAll]
  | succ n ih =>
      intro a ha
      rw [loadAll, List.mem_cons] at ha
      rcases ha with rfl | ha
      · exact h _
      · exact ih _ a ha

end Format

end Records
