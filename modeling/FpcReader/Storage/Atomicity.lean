/-
**Calls of the storage are atomic.**

A call either leaves records and file as they were, or it saves and both show its update.  The
records stay sound on the way, so every database that is saved loads again, and memory and file
never disagree.

Main definitions:

* `Fpc.StorageCall.Updates` — what a call that takes effect does to the records;
* `Fpc.Store.Agrees` — the file loads as the records in memory;
* `Fpc.Store.CallAtomic` — what a call guarantees.

Main results:

* `Fpc.FingerprintStorage.identify_adapted` — the adapted template is accepted and belongs to a
  record that was asked for;
* `Fpc.Store.call_cases` — **a call changes nothing or commits its update**;
* `Fpc.Store.Reachable.sound` — the records stay sound over any run;
* `Fpc.Store.savedDatabases_load`, `Fpc.Store.calls_atomic` — **saved databases load, and calls are
  atomic**.
-/

import FpcReader.Storage.Adaptation
import FpcReader.Storage.RoundTrip

set_option relaxedAutoImplicit false
set_option autoImplicit false

namespace Fpc

/-! ### Identification -/

/-- Templates that validated when they were stored are accepted when they are loaded. -/
theorem loadStored_accepted {records : List (Name × Fingerprint)}
    (hvalid : ∀ record ∈ records, validateNative record.2.native = .ok ()) {fresh : ℕ}
    {owned : List LoadedTemplate} (h : loadStored records fresh = .ok owned) :
    ∀ t ∈ owned, t.Accepted := by
  induction records generalizing fresh owned with
  | nil =>
      obtain rfl := Except.ok.inj h
      simp
  | cons record records ih =>
      obtain ⟨loaded, hload, haccepted⟩ := validateNative_load (hvalid record (by simp)) fresh
      rw [loadStored, hload] at h
      dsimp only at h
      split at h
      · cases h
      rename_i rest hrest
      obtain rfl := Except.ok.inj h
      intro t ht
      rcases List.mem_cons.1 ht with rfl | ht
      · exact haccepted
      · exact ih (fun r hr => hvalid r (by simp [hr])) hrest t ht

theorem FingerprintStorage.mem_candidates {s : FingerprintStorage} {user name key : Name}
    {print : Fingerprint} (h : (key, print) ∈ s.candidates user name) :
    s.fingerprints.get? user key = some print ∧
      (Fingerprint.isAny name = true ∨ name = print.name) := by
  obtain ⟨hordered, hname⟩ := List.mem_filter.1 h
  have hentry := (List.perm_insertionSort _ _).mem_iff.1 hordered
  exact ⟨SortedMap.mem_entries.1 hentry, by simpa using hname⟩

/-- **An adaptation belongs to a record that was asked for**, and its template is accepted. -/
theorem FingerprintStorage.identify_adapted {s : FingerprintStorage} (hsound : s.fingerprints.Sound)
    {user name key : Name} {query : PreparedCapture} {print : Fingerprint} {t : LoadedTemplate}
    (h : s.identify user name query = .ok (.adapted key print t)) :
    s.fingerprints.get? user key = some print ∧
      (Fingerprint.isAny name = true ∨ name = print.name) ∧ t.Accepted := by
  unfold identify at h
  split at h
  · cases h
  rename_i probe hprobe
  dsimp only at h
  split at h
  · cases h
  rename_i owned howned
  split at h
  · cases h
  rename_i result membership hidentify
  by_cases hmatched : result.matched = 0
  · rw [if_pos hmatched] at h
    cases h
  rw [if_neg hmatched] at h
  split at h
  · rename_i loaded key' print' hloaded hrecord
    split at h
    · cases h
    rename_i adapted changed hadapt
    cases changed with
    | false => cases h
    | true =>
        obtain ⟨rfl, rfl, rfl⟩ : key' = key ∧ print' = print ∧ adapted = t := by
          simpa using h
        have hmem := FingerprintStorage.mem_candidates (List.mem_of_getElem? hrecord)
        have hvalid : ∀ record ∈ s.candidates user name,
            validateNative record.2.native = .ok () := fun record hr =>
          (hsound.stored (FingerprintStorage.mem_candidates hr).1).native
        have haccepted := loadStored_accepted hvalid howned loaded (List.mem_of_getElem? hloaded)
        exact ⟨hmem.1, hmem.2, adaptTemplate_accepted haccepted
          (captureFromPrepared_isProbe hprobe) (identifyProfile300_membership hidentify) hadapt⟩
  · cases h

/-! ### What a call does -/

/-- What a call that takes effect does to the records: one record put or removed, all records of a
user removed, or one template of the user replaced. -/
def StorageCall.Updates : StorageCall → Records → Records → Prop
  | .insertOrUpdate print, old, new =>
      Fingerprint.validName print.name = true ∧ validateNative print.native = .ok () ∧
        ∃ registration, old.registrationFor print.user print.name = some registration ∧
          ∀ user name, new.get? user name =
            if print.user = user ∧ print.name = name then
              some { print with registration := registration }
            else old.get? user name
  | .deleteFingerprint username finger, old, new =>
      (old.get? username finger).isSome = true ∧
        ∀ user name, new.get? user name =
          if username = user ∧ finger = name then none else old.get? user name
  | .deleteAll owner, old, new =>
      ∀ user name, new.get? user name = if owner = user then none else old.get? user name
  | .verify owner finger _, old, new =>
      ∃ key print native, old.get? owner key = some print ∧
        (Fingerprint.isAny finger = true ∨ finger = print.name) ∧
          validateNative native = .ok () ∧
            ∀ user name, new.get? user name =
              if owner = user ∧ key = name then some { print with native := native }
              else old.get? user name

/-- An update keeps the records sound. -/
theorem StorageCall.Updates.sound {call : StorageCall} {old new : Records}
    (h : call.Updates old new) (hsound : old.Sound) : new.Sound := by
  cases call with
  | insertOrUpdate print =>
      obtain ⟨hname, hnative, registration, hreg, hget⟩ := h
      obtain ⟨hzero, hown⟩ := Records.registrationFor_sound hsound hreg
      have hput : (old.put print.user print.name
          { print with registration := registration }).Sound :=
        hsound.put ⟨rfl, rfl, hname, hnative, hzero⟩ hown
      refine hput.mono fun hnew => ?_
      rwa [Records.get?_put, ← hget]
  | deleteFingerprint username finger =>
      refine hsound.mono fun hnew => ?_
      rw [h.2] at hnew
      split_ifs at hnew
      exact hnew
  | deleteAll owner =>
      refine hsound.mono fun hnew => ?_
      rw [h] at hnew
      split_ifs at hnew
      exact hnew
  | verify owner finger query =>
      obtain ⟨key, print, native, hold, -, hnative, hget⟩ := h
      refine (hsound.replaceNative hold hnative).mono fun hnew => ?_
      rwa [Records.get?_put, ← hget]

/-- The file shows the given records in place of those of the store. -/
structure Store.Committed (cipher : Cipher) (disk : Disk) (store : Store) (records : Records)
    (after : Store) : Prop where
  storage : after.storage = { store.storage with fingerprints := records }
  file : saveDatabase cipher disk after.storage = after.file
  saved : after.file.isSome = true

/-- Committing either commits, or leaves the store as it was. -/
theorem Store.commit_cases (cipher : Cipher) (disk : Disk) (store : Store) (records : Records) :
    ((store.commit cipher disk records).saved = false ∧
        (store.commit cipher disk records).outcome = .ok false ∧
          (store.commit cipher disk records).store = store) ∨
      ((store.commit cipher disk records).saved = true ∧
        (store.commit cipher disk records).outcome = .ok true ∧
          store.Committed cipher disk records (store.commit cipher disk records).store) := by
  unfold Store.commit Store.save
  cases hsave : saveDatabase cipher disk (store.withRecords records).storage with
  | none => exact Or.inl ⟨rfl, rfl, rfl⟩
  | some file => exact Or.inr ⟨rfl, rfl, rfl, hsave, rfl⟩

/-- What a call guarantees: it fails and nothing changes, it is a verification that matched and
changes nothing, or it commits its update. -/
inductive CallResult.Outcome (cipher : Cipher) (disk : Disk) (store : Store) (call : StorageCall)
    (result : CallResult) : Prop
  | unchanged : result.saved = false → result.store = store →
      (result.outcome = .ok true → ∃ user name query, call = .verify user name query) →
        Outcome cipher disk store call result
  | committed : result.saved = true → result.outcome = .ok true →
      call.Updates store.records result.store.records →
        store.Committed cipher disk result.store.records result.store →
          Outcome cipher disk store call result

/-- A call that commits records which show its update. -/
theorem CallResult.Outcome.of_commit {cipher : Cipher} {disk : Disk} {store : Store}
    {call : StorageCall} {records : Records} (h : call.Updates store.records records) :
    CallResult.Outcome cipher disk store call (store.commit cipher disk records) := by
  rcases store.commit_cases cipher disk records with ⟨hsaved, hout, hstore⟩ | ⟨hsaved, hout, hc⟩
  · refine .unchanged hsaved hstore fun htrue => ?_
    rw [hout] at htrue
    cases htrue
  · have hrecords : (store.commit cipher disk records).store.records = records := by
      rw [Store.records, hc.storage]
    exact .committed hsaved hout (by rwa [hrecords]) (by rwa [hrecords])

/-- A call that fails before it changes anything. -/
theorem CallResult.Outcome.of_fail {cipher : Cipher} {disk : Disk} {store : Store}
    {call : StorageCall} {outcome : Except String Bool} (h : outcome ≠ .ok true) :
    CallResult.Outcome cipher disk store call ⟨outcome, false, store⟩ :=
  .unchanged rfl rfl fun htrue => absurd htrue h

/-- **A call changes nothing or commits its update.** -/
theorem Store.call_cases (cipher : Cipher) (disk : Disk) {store : Store}
    (hsound : store.records.Sound) (call : StorageCall) :
    CallResult.Outcome cipher disk store call (store.call cipher disk call) := by
  cases call with
  | insertOrUpdate print =>
      show CallResult.Outcome cipher disk store _ (store.insertOrUpdate cipher disk print)
      unfold Store.insertOrUpdate
      split_ifs with hname
      · exact .of_fail (by simp)
      split
      · exact .of_fail (by simp)
      rename_i hnative
      split
      · exact .of_fail (by simp)
      rename_i registration hreg
      exact .of_commit ⟨by simpa using hname, hnative, registration, hreg, fun user name =>
        Records.get?_put _ _ _ _ _ _⟩
  | deleteFingerprint username finger =>
      show CallResult.Outcome cipher disk store _
        (store.deleteFingerprint cipher disk username finger)
      unfold Store.deleteFingerprint
      split_ifs with hcheck
      · exact .of_fail (by simp)
      have hthere : store.storage.check username finger = true := by
        simpa only [Bool.not_eq_true', Bool.not_eq_false] using hcheck
      exact .of_commit ⟨hthere, fun user name => Records.get?_eraseFinger _ _ _ _ _⟩
  | deleteAll owner =>
      exact .of_commit fun user name => Records.get?_erase _ _ _ _
  | verify owner finger query =>
      show CallResult.Outcome cipher disk store _ (store.verify cipher disk owner finger query)
      unfold Store.verify
      split
      · exact .of_fail (by simp)
      · exact .of_fail (by simp)
      · exact .unchanged rfl rfl fun _ => ⟨_, _, _, rfl⟩
      rename_i key print t hidentify
      obtain ⟨hget, hname, haccepted⟩ := FingerprintStorage.identify_adapted hsound hidentify
      obtain ⟨native, hwrite, hvalid⟩ := serializeNativeTemplate_accepted haccepted
      rw [hwrite]
      dsimp only
      rcases store.commit_cases cipher disk
        (store.records.put owner key { print with native := native })
        with ⟨hsaved, -, hstore⟩ | ⟨hsaved, -, hc⟩
      · exact .unchanged hsaved hstore fun _ => ⟨_, _, _, rfl⟩
      · refine .committed hsaved rfl ?_ ?_
        · refine ⟨key, print, native, hget, hname, hvalid, fun user name => ?_⟩
          rw [Store.records, hc.storage]
          exact Records.get?_put _ _ _ _ _ _
        · rw [Store.records, hc.storage]
          exact hc

/-! ### Runs -/

/-- The database file loads as the records in memory. -/
def Store.Agrees (cipher : Cipher) (store : Store) : Prop :=
  loadDatabase cipher store.storage.key store.storage.hardwareId store.file =
    .ok store.records.nonempty

/-- A committed store agrees with its file. -/
theorem Store.Committed.agrees {cipher : Cipher} {disk : Disk} {store after : Store}
    {records : Records} (h : store.Committed cipher disk records after)
    (hsound : after.records.Sound) : after.Agrees cipher := by
  obtain ⟨file, hfile⟩ := Option.isSome_iff_exists.1 h.saved
  have hsave := h.file
  rw [hfile] at hsave
  rw [Store.Agrees, hfile]
  exact loadDatabase_saveDatabase hsound hsave

/-- **Over any run the records stay sound, and memory and file agree.** -/
theorem Store.Reachable.sound {cipher : Cipher} {store : Store} (h : store.Reachable cipher) :
    store.records.Sound ∧ store.Agrees cipher := by
  induction h with
  | unopened storage hfilename hkey hrecords =>
      rw [Store.Agrees, Store.records, hrecords]
      exact ⟨Records.empty_sound, rfl⟩
  | @opened before after filename key file hinit =>
      unfold Store.init at hinit
      by_cases hlength : key.length ≠ 32
      · rw [if_pos hlength] at hinit
        cases hinit
      rw [if_neg hlength] at hinit
      dsimp only at hinit
      split at hinit
      · cases hinit
      rename_i records hload
      obtain rfl := Except.ok.inj hinit
      obtain ⟨hsound, hfull⟩ := loadDatabase_sound hload
      refine ⟨hsound, ?_⟩
      show loadDatabase _ _ _ _ = .ok records.nonempty
      rw [Records.nonempty_eq_self hfull]
      exact hload
  | call disk call _ ih =>
      obtain ⟨hsound, hagrees⟩ := ih
      rcases Store.call_cases cipher disk hsound call with
        ⟨-, hstore, -⟩ | ⟨-, -, hupdates, hcommitted⟩
      · rw [hstore]
        exact ⟨hsound, hagrees⟩
      · have hnew := hupdates.sound hsound
        exact ⟨hnew, hcommitted.agrees hnew⟩

/-- **Saved databases always load**, with the records in memory. -/
theorem Store.savedDatabases_load {cipher : Cipher} {store : Store} (h : store.Reachable cipher) :
    (∀ disk file, saveDatabase cipher disk store.storage = some file →
      loadDatabase cipher store.storage.key store.storage.hardwareId (some file) =
        .ok store.records.nonempty) ∧
      ∀ disk call, (store.call cipher disk call).saved = true →
        ∃ after file, (store.call cipher disk call).store = ⟨after, some file⟩ ∧
          saveDatabase cipher disk after = some file ∧
            loadDatabase cipher after.key after.hardwareId (some file) =
              .ok after.fingerprints.nonempty := by
  refine ⟨fun disk file => loadDatabase_saveDatabase h.sound.1, fun disk call hsaved => ?_⟩
  have hreach : (store.call cipher disk call).store.Reachable cipher := .call disk call h
  rcases Store.call_cases cipher disk h.sound.1 call with ⟨hnot, -⟩ | ⟨-, -, -, hcommitted⟩
  · rw [hnot] at hsaved
    cases hsaved
  · obtain ⟨file, hfile⟩ := Option.isSome_iff_exists.1 hcommitted.saved
    have hsave := hcommitted.file
    rw [hfile] at hsave
    refine ⟨_, file, ?_, hsave, loadDatabase_saveDatabase hreach.sound.1 hsave⟩
    rw [← hfile]

/-- A cipher that changes nothing and tags with zeros. -/
def plainCipher : Cipher where
  encrypt _ _ _ plain := (plain, List.replicate 16 0)
  decrypt _ _ _ text tag := if tag = List.replicate 16 0 then some text else none
  text_length _ _ _ _ := rfl
  tag_length _ _ _ _ := rfl
  decrypt_encrypt _ _ _ _ := rfl

/-- A storage whose database has just been created. -/
def createdStore : Store :=
  ⟨{ FingerprintStorage.initial with
      filename := ascii "sensor-native.bin", key := List.replicate 32 7 }, none⟩

theorem createdStore_reachable : createdStore.Reachable plainCipher :=
  @Store.Reachable.opened plainCipher ⟨FingerprintStorage.initial, none⟩ createdStore
    (ascii "sensor-native.bin") (List.replicate 32 7) none rfl

/-- Committing succeeds on a disk on which everything goes well. -/
theorem Store.commit_saved {cipher : Cipher} (nonce : Vector UInt8 12) {store : Store}
    {records : Records} (hkey : store.storage.key.length = 32)
    (hfilename : store.storage.filename ≠ []) (hfew : records.all.length ≤ 80)
    (hwritable : ∀ print ∈ records.all, print.Writable) :
    ∃ file, store.commit cipher (Disk.sound nonce) records =
      ⟨.ok true, true, ⟨{ store.storage with fingerprints := records }, some file⟩⟩ := by
  obtain ⟨file, hsave⟩ := @saveDatabase_isSome cipher nonce (store.withRecords records).storage
    hkey hfilename hfew hwritable
  refine ⟨file, ?_⟩
  rw [Store.commit, Store.save, hsave]
  rfl

/-- Committing fails on a disk that cannot rename. -/
theorem Store.commit_rename {cipher : Cipher} {disk : Disk} (hrename : disk.rename = false)
    (store : Store) (records : Records) :
    (store.commit cipher disk records).outcome = .ok false := by
  have hcommit (encrypted : List UInt8) : commitFile disk encrypted = none := by
    rw [commitFile, hrename]
    split
    · rfl
    split
    · rfl
    · rw [Bool.and_false, if_neg Bool.false_ne_true]
  have hsave : saveDatabase cipher disk (store.withRecords records).storage = none := by
    rw [saveDatabase]
    split
    · rfl
    split
    · rfl
    split
    · rfl
    · exact hcommit _
  rw [Store.commit, Store.save, hsave]
  rfl

/-- A finger with a template of one capture. -/
def thumbOf (user : Name) (registration : UInt32) : Fingerprint :=
  ⟨user, ascii "right-thumb", (gridTemplate 1).bytes, registration⟩

/-- The records of one user with one finger, and of two. -/
def firstRecords : Records :=
  Records.put .empty (ascii "anna") (ascii "right-thumb") (thumbOf (ascii "anna") 1)

def enrolledRecords : Records :=
  firstRecords.put (ascii "bob") (ascii "right-thumb") (thumbOf (ascii "bob") 2)

/-- The storage after both have enrolled their finger. -/
def enrolledStore : Store :=
  ((createdStore.call plainCipher (Disk.sound (Vector.replicate 12 1))
      (.insertOrUpdate (thumbOf (ascii "anna") 0))).store.call plainCipher
    (Disk.sound (Vector.replicate 12 2)) (.insertOrUpdate (thumbOf (ascii "bob") 0))).store

theorem enrolledStore_reachable : enrolledStore.Reachable plainCipher :=
  .call _ _ (.call _ _ createdStore_reachable)

theorem thumbOf_writable {user : Name} (huser : user ≠ [] ∧ user.length ≤ 256 ∧ 0 ∉ user)
    (registration : UInt32) : (thumbOf user registration).Writable where
  user := huser
  name := by
    show ascii "right-thumb" ≠ [] ∧ (ascii "right-thumb").length ≤ 256 ∧ 0 ∉ ascii "right-thumb"
    decide
  native := ((gridTemplate_accepted (by norm_num) (by norm_num)).load 0).1

theorem thumbOf_anna : (thumbOf (ascii "anna") 1).Writable := thumbOf_writable (by decide) 1

theorem thumbOf_bob : (thumbOf (ascii "bob") 2).Writable := thumbOf_writable (by decide) 2

theorem enrolledRecords_all :
    enrolledRecords.all = [thumbOf (ascii "anna") 1, thumbOf (ascii "bob") 2] := rfl

theorem enrolledRecords_writable : ∀ print ∈ enrolledRecords.all, print.Writable := by
  rw [enrolledRecords_all]
  intro print hprint
  rcases List.mem_cons.1 hprint with rfl | hprint
  · exact thumbOf_anna
  · obtain rfl := List.mem_singleton.1 hprint
    exact thumbOf_bob

/-- A record with a fitting name and template is committed. -/
theorem Store.insertOrUpdate_eq {cipher : Cipher} {disk : Disk} {store : Store}
    {print : Fingerprint} {registration : UInt32} (hname : Fingerprint.validName print.name = true)
    (hnative : validateNative print.native = .ok ())
    (h : store.records.registrationFor print.user print.name = some registration) :
    store.call cipher disk (.insertOrUpdate print) = store.commit cipher disk
      (store.records.put print.user print.name { print with registration := registration }) := by
  rw [Store.call, Store.insertOrUpdate, hname, if_neg (by decide), hnative]
  dsimp only
  rw [h]

theorem thumbOf_valid (user : Name) (registration : UInt32) :
    validateNative (thumbOf user registration).native = .ok () :=
  (gridTemplate_accepted (by norm_num) (by norm_num)).valid

/-- Enrolling a thumb commits it under the next registration. -/
theorem enroll_thumb {store : Store} {records : Records} (hrecords : store.records = records)
    {disk : Disk} {user : Name} {registration : UInt32}
    (h : records.registrationFor user (ascii "right-thumb") = some registration) :
    store.call plainCipher disk (.insertOrUpdate (thumbOf user 0)) =
      store.commit plainCipher disk
        (records.put user (ascii "right-thumb") (thumbOf user registration)) := by
  subst hrecords
  exact Store.insertOrUpdate_eq (show Fingerprint.validName (ascii "right-thumb") = true by decide)
    (thumbOf_valid user 0) h

/-- Both fingers have been saved. -/
theorem enrolledStore_storage :
    enrolledStore.storage = { createdStore.storage with fingerprints := enrolledRecords } := by
  have hfirstRecords : firstRecords.all = [thumbOf (ascii "anna") 1] := rfl
  have hone : Records.registrationFor .empty (ascii "anna") (ascii "right-thumb") = some 1 := by
    decide
  have htwo : firstRecords.registrationFor (ascii "bob") (ascii "right-thumb") = some 2 := by
    decide
  obtain ⟨first, hfirst⟩ := @Store.commit_saved plainCipher (Vector.replicate 12 1) createdStore
    firstRecords rfl (by decide) (by decide) (by
      rw [hfirstRecords]
      intro print hprint
      obtain rfl := List.mem_singleton.1 hprint
      exact thumbOf_anna)
  obtain ⟨second, hsecond⟩ := @Store.commit_saved plainCipher (Vector.replicate 12 2)
    ⟨{ createdStore.storage with fingerprints := firstRecords }, some first⟩ enrolledRecords rfl
    (show ascii "sensor-native.bin" ≠ [] by decide) (by decide) enrolledRecords_writable
  have hempty : createdStore.records = .empty := rfl
  have hrecords : Store.records
    ⟨{ createdStore.storage with fingerprints := firstRecords }, some first⟩ = firstRecords := rfl
  rw [enrolledStore, enroll_thumb hempty hone, ← firstRecords, hfirst]
  dsimp only
  rw [enroll_thumb hrecords htwo, ← enrolledRecords, hsecond]

theorem enrolledStore_records : enrolledStore.records = enrolledRecords := by
  rw [Store.records, enrolledStore_storage]

/-- All records of a user of the enrolled storage can be deleted. -/
theorem enrolledStore_deleteAll : (enrolledStore.call plainCipher
    (Disk.sound (Vector.replicate 12 3)) (.deleteAll (ascii "anna"))).saved = true := by
  have hleft : Records.all (enrolledRecords.erase (ascii "anna")) = [thumbOf (ascii "bob") 2] := rfl
  obtain ⟨after, hcommit⟩ := @Store.commit_saved plainCipher (Vector.replicate 12 3) enrolledStore
    (enrolledRecords.erase (ascii "anna")) (by rw [enrolledStore_storage]; rfl)
    (by rw [enrolledStore_storage]; decide) (by rw [hleft]; decide) (by
      rw [hleft]
      intro print hprint
      obtain rfl := List.mem_singleton.1 hprint
      exact thumbOf_bob)
  rw [Store.call, Store.deleteAll, enrolledStore_records, hcommit]

/-- The database of two users loads with their records, and so it does when one has left. -/
theorem Store.savedDatabases_load_enrolled :
    (∃ file, saveDatabase plainCipher (Disk.sound (Vector.replicate 12 3)) enrolledStore.storage =
        some file ∧
      loadDatabase plainCipher (List.replicate 32 7) 0x0111 (some file) =
        .ok enrolledRecords.nonempty) ∧
    enrolledRecords.all = [thumbOf (ascii "anna") 1, thumbOf (ascii "bob") 2] ∧
    ∃ after file, (enrolledStore.call plainCipher (Disk.sound (Vector.replicate 12 3))
        (.deleteAll (ascii "anna"))).store = ⟨after, some file⟩ ∧
      loadDatabase plainCipher after.key after.hardwareId (some file) =
        .ok after.fingerprints.nonempty := by
  obtain ⟨hfile, hcalls⟩ := Store.savedDatabases_load enrolledStore_reachable
  refine ⟨?_, enrolledRecords_all, ?_⟩
  · obtain ⟨file, hsave⟩ := @saveDatabase_isSome plainCipher (Vector.replicate 12 3)
      enrolledStore.storage (by rw [enrolledStore_storage]; rfl)
      (by rw [enrolledStore_storage]; decide) (by rw [enrolledStore_storage]; decide)
      (by rw [enrolledStore_storage]; exact enrolledRecords_writable)
    have hload := hfile _ file hsave
    rw [enrolledStore_records, enrolledStore_storage] at hload
    exact ⟨file, hsave, hload⟩
  · obtain ⟨after, file, hafter, -, hload⟩ := hcalls _ _ enrolledStore_deleteAll
    exact ⟨after, file, hafter, hload⟩

/-- What a call guarantees of memory and file. -/
structure Store.CallAtomic (cipher : Cipher) (disk : Disk) (store : Store) (call : StorageCall) :
    Prop where
  /-- A call that fails changes nothing. -/
  failed : (store.call cipher disk call).outcome ≠ .ok true →
    (store.call cipher disk call).store = store
  /-- A verification that matches and saves nothing changes nothing. -/
  unsaved : (store.call cipher disk call).saved = false →
    (store.call cipher disk call).store = store
  /-- No other call succeeds without saving. -/
  saves : (store.call cipher disk call).outcome = .ok true →
    (store.call cipher disk call).saved = true ∨ ∃ user name query, call = .verify user name query
  /-- Otherwise the records show the update, and nothing else in the storage changes. -/
  updates : (store.call cipher disk call).saved = true →
    call.Updates store.records (store.call cipher disk call).store.records ∧
      (store.call cipher disk call).store.storage =
        { store.storage with
          fingerprints := (store.call cipher disk call).store.records }
  /-- The file shows the records, before and after. -/
  agrees : store.Agrees cipher ∧ (store.call cipher disk call).store.Agrees cipher
  /-- Syncing the directory does not matter. -/
  syncDirectory : ∀ synced,
    store.call cipher { disk with syncDirectory := synced } call = store.call cipher disk call

/-- **Every call is atomic**, whatever the disk does. -/
theorem Store.calls_atomic {cipher : Cipher} {store : Store} (h : store.Reachable cipher)
    (disk : Disk) (call : StorageCall) : store.CallAtomic cipher disk call := by
  have hreach : (store.call cipher disk call).store.Reachable cipher := .call disk call h
  have hcases := Store.call_cases cipher disk h.sound.1 call
  refine ⟨fun hfailed => ?_, fun hunsaved => ?_, fun htrue => ?_, fun hsaved => ?_,
    ⟨h.sound.2, hreach.sound.2⟩, fun synced => ?_⟩
  · rcases hcases with ⟨-, hstore, -⟩ | ⟨-, htrue, -⟩
    · exact hstore
    · exact absurd htrue hfailed
  · rcases hcases with ⟨-, hstore, -⟩ | ⟨hsaved, -⟩
    · exact hstore
    · rw [hunsaved] at hsaved
      cases hsaved
  · rcases hcases with ⟨-, -, hverify⟩ | ⟨hsaved, -⟩
    · exact Or.inr (hverify htrue)
    · exact Or.inl hsaved
  · rcases hcases with ⟨hnot, -⟩ | ⟨-, -, hupdates, hcommitted⟩
    · rw [hnot] at hsaved
      cases hsaved
    · exact ⟨hupdates, hcommitted.storage⟩
  · rfl

/-- Deleting a user with a finger: on a disk that cannot rename both users stay, else one goes. -/
theorem Store.calls_atomic_enrolled :
    ((enrolledStore.call plainCipher { Disk.sound (Vector.replicate 12 3) with rename := false }
          (.deleteAll (ascii "anna"))).outcome = .ok false ∧
      (enrolledStore.call plainCipher { Disk.sound (Vector.replicate 12 3) with rename := false }
          (.deleteAll (ascii "anna"))).store = enrolledStore) ∧
    (enrolledStore.call plainCipher (Disk.sound (Vector.replicate 12 3))
        (.deleteAll (ascii "anna"))).saved = true ∧
    ((enrolledStore.call plainCipher (Disk.sound (Vector.replicate 12 3))
        (.deleteAll (ascii "anna"))).store.records.get? (ascii "anna") (ascii "right-thumb") =
        none ∧
      (enrolledStore.call plainCipher (Disk.sound (Vector.replicate 12 3))
        (.deleteAll (ascii "anna"))).store.records.get? (ascii "bob") (ascii "right-thumb") =
          some (thumbOf (ascii "bob") 2)) ∧
    (enrolledStore.call plainCipher (Disk.sound (Vector.replicate 12 3))
        (.deleteAll (ascii "anna"))).store.Agrees plainCipher := by
  have hfailing := Store.calls_atomic enrolledStore_reachable
    { Disk.sound (Vector.replicate 12 3) with rename := false } (.deleteAll (ascii "anna"))
  have hworking := Store.calls_atomic enrolledStore_reachable (Disk.sound (Vector.replicate 12 3))
    (.deleteAll (ascii "anna"))
  have hrefused : (enrolledStore.call plainCipher
      { Disk.sound (Vector.replicate 12 3) with rename := false }
        (.deleteAll (ascii "anna"))).outcome = .ok false := by
    rw [Store.call, Store.deleteAll]
    exact Store.commit_rename rfl _ _
  obtain ⟨hget, -⟩ := hworking.updates enrolledStore_deleteAll
  refine ⟨⟨hrefused, hfailing.failed ?_⟩, enrolledStore_deleteAll, ⟨?_, ?_⟩, hworking.agrees.2⟩
  · rw [hrefused]
    decide
  · rw [hget, if_pos rfl]
  · rw [hget, if_neg (by decide), enrolledStore_records, enrolledRecords, Records.get?_put,
      if_pos ⟨rfl, rfl⟩]

end Fpc
