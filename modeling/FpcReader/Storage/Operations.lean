/-
**The operations of the storage.**

Opening a database, deleting and replacing records, and verifying a query.  Every operation changes
the records in memory first and saves; when saving fails it puts the records back.  A verification
that matches adapts the template that matched and saves it, and matches all the same when the
adaptation cannot be saved.

Main definitions:

* `Fpc.Store`, `Fpc.CallResult` — the storage with its database file, and what a call leaves behind;
* `Fpc.Store.deleteAll`, `Fpc.Store.deleteFingerprint`, `Fpc.Store.insertOrUpdate`,
  `Fpc.Store.verify` — the operations;
* `Fpc.StorageCall`, `Fpc.Store.call`, `Fpc.Store.Reachable` — calls, and the stores that calls can
  lead to.
-/

import FpcReader.Native.Matching
import FpcReader.Storage.Database

set_option relaxedAutoImplicit false
set_option autoImplicit false

namespace Fpc

/-! ### Stores -/

/-- The storage and the contents of its database file. -/
structure Store where
  storage : FingerprintStorage
  file : Option (List UInt8)
  deriving DecidableEq

/-- What a call leaves behind: what it returns or throws, whether a save it made succeeded, and the
store. -/
structure CallResult where
  outcome : Except String Bool
  saved : Bool
  store : Store
  deriving DecidableEq

def Store.records (store : Store) : Records := store.storage.fingerprints

def Store.withRecords (store : Store) (records : Records) : Store :=
  { store with storage := { store.storage with fingerprints := records } }

/-- Save the records; the flag tells whether the file was replaced. -/
def Store.save (cipher : Cipher) (disk : Disk) (store : Store) : Bool × Store :=
  match saveDatabase cipher disk store.storage with
  | none => (false, store)
  | some file => (true, { store with file := some file })

/-- Open the database of the given name, which holds `file`; without a name there is no file. -/
def Store.init (cipher : Cipher) (filename : Name) (key : List UInt8)
    (file : Option (List UInt8)) (store : Store) : Except String Store :=
  if key.length ≠ 32 then .error "invalid database encryption key"
  else
    let storage := { store.storage with filename := filename, key := key }
    let file := if filename = [] then none else file
    match loadDatabase cipher key storage.hardwareId file with
    | .error e => .error e
    | .ok records => .ok ⟨{ storage with fingerprints := records }, file⟩

/-- Save the given records in place of the old ones, which come back when that fails. -/
def Store.commit (cipher : Cipher) (disk : Disk) (store : Store) (records : Records) : CallResult :=
  let before := store.records
  let saved := (store.withRecords records).save cipher disk
  if saved.1 then ⟨.ok true, true, saved.2⟩
  else ⟨.ok false, false, saved.2.withRecords before⟩

/-! ### Deleting and replacing -/

def Store.deleteAll (cipher : Cipher) (disk : Disk) (store : Store) (user : Name) : CallResult :=
  store.commit cipher disk (store.records.erase user)

def Store.deleteFingerprint (cipher : Cipher) (disk : Disk) (store : Store) (username name : Name) :
    CallResult :=
  if !store.storage.check username name then ⟨.ok false, false, store⟩
  else
    store.commit cipher disk
      (store.records.insert username ((store.records.prints username).erase name))

/-- The largest registration there is. -/
def Records.last (records : Records) : ℕ :=
  (records.all.map fun print => print.registration.toNat).foldl max 0

/-- The registration a record is kept under: its old one, or the next one while there is one. -/
def Records.registrationFor (records : Records) (user name : Name) : Option UInt32 :=
  match records.get? user name with
  | some old => some old.registration
  | none =>
      if records.last = 2 ^ 32 - 1 then none else some (UInt32.ofNat (records.last + 1))

def Store.insertOrUpdate (cipher : Cipher) (disk : Disk) (store : Store) (print : Fingerprint) :
    CallResult :=
  if !Fingerprint.validName print.name then ⟨.error "invalid finger name", false, store⟩
  else
    match validateNative print.native with
    | .error e => ⟨.error e, false, store⟩
    | .ok () =>
        match store.records.registrationFor print.user print.name with
        | none => ⟨.ok false, false, store⟩
        | some registration =>
            store.commit cipher disk
              (store.records.put print.user print.name
                { print with registration := registration })

/-! ### Verifying -/

/-- The templates of the given records, each in allocations of its own. -/
def loadStored : List (Name × Fingerprint) → ℕ → Except String (List LoadedTemplate)
  | [], _ => .ok []
  | record :: records, fresh =>
      match templateLoadDefault record.2.native 32 fresh with
      | .error _ => .error "native stored template failed"
      | .ok t =>
          match loadStored records (fresh + 80) with
          | .error e => .error e
          | .ok rest => .ok (t :: rest)

/-- The records a verification looks at, oldest first. -/
def FingerprintStorage.candidates (s : FingerprintStorage) (user name : Name) :
    List (Name × Fingerprint) :=
  (s.ordered user).filter fun record => Fingerprint.isAny name || name == record.2.name

def verifyPolicy : IdentificationPolicy := ⟨18, 1000, 5, 20⟩

def adaptationPolicy : TemplateUpdatePolicy := ⟨25, 8, 25, 60, 32⟩

/-- A capture with the bits matching has set in its membership. -/
def LoadedCapture.withMembership (capture : LoadedCapture) (membership : List UInt8) :
    LoadedCapture :=
  { capture with
    view := { capture.view with membership := capture.view.membership.map fun _ => membership } }

/-- Adapt the template that matched; the flag tells whether it changed. -/
def adaptTemplate (t : LoadedTemplate) (probe : LoadedCapture) (query : PreparedCapture)
    (result : IdentificationResult) (membership : List UInt8) :
    Except String (LoadedTemplate × Bool) :=
  match matchProfile300Collection t.collection probe.view membership with
  | none => .error "native update match failed"
  | some (found, membership) =>
      let state : TemplateUpdateState :=
        ⟨102, 1, 1, 1, result.reportedScore, result.selectedCapture.bmod 256, 0, -1⟩
      let update := updateTemplateAfterMatch t (probe.withMembership membership) query.confidence
        query.coverage query.quality (found.spatialScores.map UInt16.ofNat) adaptationPolicy state
      if update.status ≠ 0 then .error "native template update failed"
      else .ok (update.template, decide (update.state.changed ≠ 0))

/-- What comparing a query with the stored templates leads to. -/
inductive VerifyDecision where
  | noMatch
  | unchanged
  | adapted (key : Name) (print : Fingerprint) (template : LoadedTemplate)
  deriving DecidableEq

/-- Compare a query with the stored templates and adapt the one that matches. -/
def FingerprintStorage.identify (s : FingerprintStorage) (user name : Name)
    (query : PreparedCapture) : Except String VerifyDecision :=
  match captureFromPrepared query false 0 with
  | .error _ => .error "native query allocation failed"
  | .ok probe =>
      let records := s.candidates user name
      match loadStored records 1 with
      | .error e => .error e
      | .ok owned =>
          match identifyProfile300 (owned.map LoadedTemplate.collection) probe.view
              query.confidence (probe.view.membership.getD []) verifyPolicy with
          | none => .error "native identification failed"
          | some (result, membership) =>
              if result.matched = 0 then .ok .noMatch
              else
                match owned[result.selectedTemplate.toNat]?,
                    records[result.selectedTemplate.toNat]? with
                | some t, some (key, print) =>
                    match adaptTemplate t probe query result membership with
                    | .error e => .error e
                    | .ok (adapted, changed) =>
                        .ok (if changed then .adapted key print adapted else .unchanged)
                | _, _ => .error "vector::_M_range_check"

def Store.verify (cipher : Cipher) (disk : Disk) (store : Store) (user name : Name)
    (query : PreparedCapture) : CallResult :=
  match store.storage.identify user name query with
  | .error e => ⟨.error e, false, store⟩
  | .ok .noMatch => ⟨.ok false, false, store⟩
  | .ok .unchanged => ⟨.ok true, false, store⟩
  | .ok (.adapted key print t) =>
      match serializeNativeTemplate t with
      | .error e => ⟨.error e, false, store⟩
      | .ok native =>
          -- a failed save puts the old template back and is only logged
          { store.commit cipher disk (store.records.put user key { print with native := native })
            with outcome := .ok true }

/-! ### Runs -/

/-- The calls that read or change the records. -/
inductive StorageCall where
  | insertOrUpdate (print : Fingerprint)
  | deleteFingerprint (username name : Name)
  | deleteAll (user : Name)
  | verify (user name : Name) (query : PreparedCapture)
  deriving DecidableEq

def Store.call (cipher : Cipher) (disk : Disk) (store : Store) : StorageCall → CallResult
  | .insertOrUpdate print => store.insertOrUpdate cipher disk print
  | .deleteFingerprint username name => store.deleteFingerprint cipher disk username name
  | .deleteAll user => store.deleteAll cipher disk user
  | .verify user name query => store.verify cipher disk user name query

/-- The stores that calls can lead to, from one that has not been opened or has just been opened. -/
inductive Store.Reachable (cipher : Cipher) : Store → Prop
  | unopened (storage : FingerprintStorage) :
      storage.filename = [] → storage.key = [] → storage.fingerprints = .empty →
        Reachable cipher ⟨storage, none⟩
  | opened {before after : Store} {filename : Name} {key : List UInt8}
      {file : Option (List UInt8)} :
      before.init cipher filename key file = .ok after → Reachable cipher after
  | call {store : Store} (disk : Disk) (call : StorageCall) :
      Reachable cipher store → Reachable cipher (store.call cipher disk call).store

end Fpc
