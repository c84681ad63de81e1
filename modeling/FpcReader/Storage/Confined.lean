/-
**A verification is confined to the records it is asked about.**

Verifying looks at the records of one user, and only at those of the given finger unless any finger
will do.  Two stores that agree on these records give the same result, whatever else they hold and
whether their disks work; and the only change is the template of one of these records.

Main definitions:

* `Fpc.Considered` — the records a verification looks at.

Main results:

* `Fpc.filter_insertionSort` — sorting is stable under leaving out elements;
* `Fpc.FingerprintStorage.candidates_congr` — the candidates are determined by the records that are
  looked at;
* `Fpc.Store.verify_confined` — **a verification is confined to these records**.
-/

import FpcReader.Storage.Atomicity

set_option relaxedAutoImplicit false
set_option autoImplicit false

namespace Fpc

/-! ### Sorting what is looked at -/

section Sorting

variable {α : Type} {r : α → α → Prop} [DecidableRel r]

/-- An element that goes before all others is put in front. -/
theorem orderedInsert_of_forall {a : α} {l : List α} (h : ∀ b ∈ l, r a b) :
    l.orderedInsert r a = a :: l := by
  cases l with
  | nil => rfl
  | cons b l => rw [List.orderedInsert_cons, if_pos (h b List.mem_cons_self)]

theorem filter_orderedInsert (p : α → Bool) (htrans : ∀ a b c, r a b → r b c → r a c) (a : α)
    {l : List α} (hsorted : l.Pairwise r) :
    (l.orderedInsert r a).filter p =
      if p a then (l.filter p).orderedInsert r a else l.filter p := by
  induction l with
  | nil => by_cases hp : p a <;> simp [hp]
  | cons b l ih =>
      obtain ⟨hb, hl⟩ := List.pairwise_cons.1 hsorted
      by_cases hab : r a b
      · rw [List.orderedInsert_cons, if_pos hab]
        by_cases hp : p a
        · rw [List.filter_cons_of_pos hp, if_pos hp, orderedInsert_of_forall]
          intro c hc
          rcases List.mem_cons.1 (List.mem_of_mem_filter hc) with rfl | hc
          · exact hab
          · exact htrans a b c hab (hb c hc)
        · rw [List.filter_cons_of_neg hp, if_neg hp]
      · rw [List.orderedInsert_cons, if_neg hab]
        by_cases hq : p b
        · rw [List.filter_cons_of_pos hq, List.filter_cons_of_pos hq, ih hl]
          by_cases hp : p a
          · rw [if_pos hp, if_pos hp, List.orderedInsert_cons, if_neg hab]
          · rw [if_neg hp, if_neg hp]
        · rw [List.filter_cons_of_neg hq, List.filter_cons_of_neg hq, ih hl]

/-- **Sorting is stable under leaving out elements.** -/
theorem filter_insertionSort (p : α → Bool) (htotal : ∀ a b, r a b ∨ r b a)
    (htrans : ∀ a b c, r a b → r b c → r a c) (l : List α) :
    (l.insertionSort r).filter p = (l.filter p).insertionSort r := by
  have : Std.Total r := ⟨htotal⟩
  have : IsTrans α r := ⟨htrans⟩
  induction l with
  | nil => rfl
  | cons a l ih =>
      rw [List.insertionSort_cons,
        filter_orderedInsert p htrans a (List.pairwise_insertionSort r l), ih]
      by_cases hp : p a
      · rw [if_pos hp, List.filter_cons_of_pos hp, List.insertionSort_cons]
      · rw [if_neg hp, List.filter_cons_of_neg hp]

end Sorting

/-! ### Candidates -/

/-- A verification for the finger `name` looks at the record. -/
def Considered (name : Name) (print : Fingerprint) : Prop :=
  Fingerprint.isAny name = true ∨ name = print.name

/-- **The candidates are determined by the records that are looked at.** -/
theorem FingerprintStorage.candidates_congr {s other : FingerprintStorage} {user name : Name}
    (h : ∀ key print, Considered name print →
      (other.fingerprints.get? user key = some print ↔
        s.fingerprints.get? user key = some print)) :
    other.candidates user name = s.candidates user name := by
  have hsort : ∀ t : FingerprintStorage, t.candidates user name =
      ((t.fingerprints.prints user).entries.filter fun record =>
        Fingerprint.isAny name || name == record.2.name).insertionSort
          fun a b => a.2.registration.toNat ≤ b.2.registration.toNat := by
    intro t
    refine filter_insertionSort _ ?_ ?_ _
    · intro a b
      exact le_total _ _
    · intro a b c hab hbc
      exact le_trans hab hbc
  rw [hsort, hsort]
  have hirrefl : Std.Irrefl fun a b : Name × Fingerprint => a.1 < b.1 := ⟨fun a => lt_irrefl a.1⟩
  have hasymm : Std.Antisymm fun a b : Name × Fingerprint => a.1 < b.1 :=
    ⟨fun a b hab hba => absurd hba hab.asymm⟩
  congr 1
  refine ((other.fingerprints.prints user).sorted.filter _).eq_of_mem_iff
    ((s.fingerprints.prints user).sorted.filter _) fun record => ?_
  obtain ⟨key, print⟩ := record
  simp only [List.mem_filter, SortedMap.mem_entries, Bool.or_eq_true, beq_iff_eq]
  exact and_congr_left (h key print)

/-- Comparing a query with the candidates looks at nothing else. -/
theorem FingerprintStorage.identify_congr {s other : FingerprintStorage} {user name : Name}
    (h : other.candidates user name = s.candidates user name) (query : PreparedCapture) :
    other.identify user name query = s.identify user name query := by
  unfold FingerprintStorage.identify
  rw [h]

/-- A template is adapted for a record that was looked at. -/
theorem FingerprintStorage.identify_considered {s : FingerprintStorage} {user name key : Name}
    {query : PreparedCapture} {print : Fingerprint} {t : LoadedTemplate}
    (h : s.identify user name query = .ok (.adapted key print t)) :
    s.fingerprints.get? user key = some print ∧ Considered name print := by
  unfold identify at h
  split at h
  · cases h
  dsimp only at h
  split at h
  · cases h
  split at h
  · cases h
  split_ifs at h
  · cases h
  split at h
  · rename_i loaded key' print' _ hrecord
    split at h
    · cases h
    rename_i adapted changed _
    cases changed with
    | false => cases h
    | true =>
        obtain ⟨rfl, rfl, -⟩ := VerifyDecision.adapted.inj (Except.ok.inj h)
        exact mem_candidates (List.mem_of_getElem? hrecord)
  · cases h

/-! ### Verifying -/

/-- What a verification returns or throws: the disk has no say in it. -/
def verifyOutcome (decision : Except String VerifyDecision) : Except String Bool :=
  match decision with
  | .error e => .error e
  | .ok .noMatch => .ok false
  | .ok .unchanged => .ok true
  | .ok (.adapted _ _ t) => (serializeNativeTemplate t).map fun _ => true

theorem Store.verify_outcome (cipher : Cipher) (disk : Disk) (store : Store) (user name : Name)
    (query : PreparedCapture) :
    (store.verify cipher disk user name query).outcome =
      verifyOutcome (store.storage.identify user name query) := by
  unfold Store.verify verifyOutcome
  cases store.storage.identify user name query with
  | error e => rfl
  | ok decision =>
      cases decision with
      | noMatch => rfl
      | unchanged => rfl
      | adapted key print t =>
          dsimp only
          cases serializeNativeTemplate t <;> rfl

/-- The records afterwards: as before, or with one template replaced. -/
theorem Store.verify_records (cipher : Cipher) (disk : Disk) (store : Store) (user name : Name)
    (query : PreparedCapture) :
    (store.verify cipher disk user name query).store.records = store.records ∨
      ∃ key print native, store.records.get? user key = some print ∧ Considered name print ∧
        (store.verify cipher disk user name query).store.records =
          store.records.put user key { print with native := native } := by
  unfold Store.verify
  cases hidentify : store.storage.identify user name query with
  | error e => exact Or.inl rfl
  | ok decision =>
      cases decision with
      | noMatch => exact Or.inl rfl
      | unchanged => exact Or.inl rfl
      | adapted key print t =>
          obtain ⟨hget, hconsidered⟩ := FingerprintStorage.identify_considered hidentify
          dsimp only
          cases serializeNativeTemplate t with
          | error e => exact Or.inl rfl
          | ok native =>
              rcases store.commit_cases cipher disk
                (store.records.put user key { print with native := native }) with
                  ⟨-, -, hstore⟩ | ⟨-, -, hcommitted⟩
              · exact Or.inl (congrArg Store.records hstore)
              · refine Or.inr ⟨key, print, native, hget, hconsidered, ?_⟩
                exact congrArg FingerprintStorage.fingerprints hcommitted.storage

/-- **A verification is confined to the records it looks at.**  Two stores with the same such
records give the same result, whatever their disks do; and at most the template of one such record
changes. -/
theorem Store.verify_confined (cipher : Cipher) (disk : Disk) (store : Store) (user name : Name)
    (query : PreparedCapture) :
    (∀ (cipher' : Cipher) (disk' : Disk) (other : Store),
      (∀ key print, Considered name print →
        (other.records.get? user key = some print ↔ store.records.get? user key = some print)) →
          (other.verify cipher' disk' user name query).outcome =
            (store.verify cipher disk user name query).outcome) ∧
      ((store.verify cipher disk user name query).store.records = store.records ∨
        ∃ key print native, store.records.get? user key = some print ∧ Considered name print ∧
          ∀ user' key', (store.verify cipher disk user name query).store.records.get? user' key' =
            if user = user' ∧ key = key' then some { print with native := native }
            else store.records.get? user' key') := by
  constructor
  · intro cipher' disk' other hsame
    rw [Store.verify_outcome, Store.verify_outcome, FingerprintStorage.identify_congr]
    exact FingerprintStorage.candidates_congr hsame
  · rcases store.verify_records cipher disk user name query with heq | ⟨key, print, native, hget,
      hconsidered, heq⟩
    · exact Or.inl heq
    · refine Or.inr ⟨key, print, native, hget, hconsidered, fun user' key' => ?_⟩
      rw [heq, Records.get?_put]

end Fpc
