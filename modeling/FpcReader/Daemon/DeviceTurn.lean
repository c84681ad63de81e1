/-
**What a turn of the device can do.**

Every handler is read once, here: apart from what it sends, the contents of records and the place
the device task waits at, a turn makes one of a few changes.  Invariants of the daemon are proved
from these.

Main definitions:

* `Fpc.Quiet`, `Fpc.Answered` — only that much has changed, and which call was replied to;
* `Fpc.Admitted` — a call has passed the check for an authorization, if it needs one;
* `Fpc.DeviceTurn` — the changes.

Main results:

* `Fpc.Store.call_storage` — a call of the storage changes nothing but records;
* `Fpc.stepDevice_turn` — **a turn of the device makes one of the changes**.
-/

import FpcReader.Daemon.Step

set_option relaxedAutoImplicit false
set_option autoImplicit false

namespace Fpc

/-! ### Records only -/

/-- The storage is the same but for its records. -/
def FingerprintStorage.SameFlags (before after : FingerprintStorage) : Prop :=
  after = { before with fingerprints := after.fingerprints }

theorem Store.commit_storage (cipher : Cipher) (disk : Disk) (store : Store) (records : Records) :
    store.storage.SameFlags (store.commit cipher disk records).store.storage := by
  unfold Store.commit Store.save
  cases saveDatabase cipher disk (store.withRecords records).storage <;> rfl

/-- A call of the storage changes nothing but records. -/
theorem Store.call_storage (cipher : Cipher) (disk : Disk) (store : Store) (call : StorageCall) :
    store.storage.SameFlags (store.call cipher disk call).store.storage := by
  cases call with
  | insertOrUpdate print =>
      show store.storage.SameFlags (store.insertOrUpdate cipher disk print).store.storage
      unfold Store.insertOrUpdate
      split_ifs
      · rfl
      · cases validateNative print.native with
        | error e => rfl
        | ok _ =>
            cases store.records.registrationFor print.user print.name with
            | none => rfl
            | some registration => exact store.commit_storage cipher disk _
  | deleteFingerprint username name =>
      show store.storage.SameFlags (store.deleteFingerprint cipher disk username name).store.storage
      unfold Store.deleteFingerprint
      split_ifs
      · rfl
      · exact store.commit_storage cipher disk _
  | deleteAll user => exact store.commit_storage cipher disk _
  | verify user name query =>
      show store.storage.SameFlags (store.verify cipher disk user name query).store.storage
      unfold Store.verify
      cases store.storage.identify user name query with
      | error e => rfl
      | ok decision =>
          cases decision with
          | noMatch => rfl
          | unchanged => rfl
          | adapted key print t =>
              dsimp only
              cases serializeNativeTemplate t with
              | error e => rfl
              | ok native => exact store.commit_storage cipher disk _

/-! ### Quiet changes -/

/-- Entries of the log that only tell what was sent. -/
def LogEntry.Sent : LogEntry → Prop
  | .replied _ _ | .signalled _ _ _ | .withdrawn _ => True
  | _ => False

/-- Nothing has changed but the records, the place the device waits at, and what was sent. -/
structure Quiet (s s' : System) : Prop where
  storage : s.storage.SameFlags s'.storage
  eventQueue : s'.eventQueue = s.eventQueue
  imageQueue : s'.imageQueue = s.imageQueue
  device : s'.device = { s.device with pc := s'.device.pc }
  gates : s'.gates = s.gates
  listens : s'.listens = s.listens
  operations : s'.operations = s.operations
  control : s'.control = s.control
  power : s'.power = s.power
  outstanding : s'.outstanding = s.outstanding
  nextTask : s'.nextTask = s.nextTask
  calls : s'.calls = s.calls
  log : ∃ sent, s'.log = sent ++ s.log ∧ ∀ entry ∈ sent, entry.Sent

theorem FingerprintStorage.SameFlags.trans {a b c : FingerprintStorage} (h : a.SameFlags b)
    (h' : b.SameFlags c) : a.SameFlags c := by
  unfold FingerprintStorage.SameFlags at *
  rw [h', h]

theorem Quiet.refl (s : System) : Quiet s s :=
  ⟨rfl, rfl, rfl, rfl, rfl, rfl, rfl, rfl, rfl, rfl, rfl, rfl, [], rfl, by simp⟩

theorem Quiet.trans {a b c : System} (h : Quiet a b) (h' : Quiet b c) : Quiet a c where
  storage := h.storage.trans h'.storage
  eventQueue := h'.eventQueue.trans h.eventQueue
  imageQueue := h'.imageQueue.trans h.imageQueue
  device := by rw [h'.device, h.device]
  gates := h'.gates.trans h.gates
  listens := h'.listens.trans h.listens
  operations := h'.operations.trans h.operations
  control := h'.control.trans h.control
  power := h'.power.trans h.power
  outstanding := h'.outstanding.trans h.outstanding
  nextTask := h'.nextTask.trans h.nextTask
  calls := h'.calls.trans h.calls
  log := by
    obtain ⟨sent, hlog, hsent⟩ := h.log
    obtain ⟨sent', hlog', hsent'⟩ := h'.log
    refine ⟨sent' ++ sent, by rw [hlog', hlog, List.append_assoc], fun entry hmem => ?_⟩
    rcases List.mem_append.1 hmem with hmem | hmem
    · exact hsent' entry hmem
    · exact hsent entry hmem

/-- Entries that are more than sent stay what they were. -/
theorem Quiet.mem_log {s s' : System} (h : Quiet s s') {entry : LogEntry} (hsent : ¬entry.Sent) :
    entry ∈ s'.log ↔ entry ∈ s.log := by
  obtain ⟨sent, hlog, hall⟩ := h.log
  rw [hlog, List.mem_append]
  exact or_iff_right fun hmem => hsent (hall entry hmem)

/-- The device has dealt with something and has sent one reply to the given call, or none. -/
structure Answered (answer : Option Call) (s s' : System) : Prop extends Quiet s s' where
  moved : ∀ call, s'.device.pc ≠ .checkUid call
  replies : match answer with
    | none => s'.log = s.log
    | some call => ∃ reply, s'.log = .replied call reply :: s.log

theorem runDevice_answered (s : System) : Answered none s s.runDevice :=
  ⟨⟨rfl, rfl, rfl, rfl, rfl, rfl, rfl, rfl, rfl, rfl, rfl, rfl, [], rfl, by simp⟩, nofun, rfl⟩

theorem sending_answered (s : System) (next : DeviceThen) :
    Answered none s { s with device := { s.device with pc := .sending next } } :=
  ⟨⟨rfl, rfl, rfl, rfl, rfl, rfl, rfl, rfl, rfl, rfl, rfl, rfl, [], rfl, by simp⟩, nofun, rfl⟩

theorem replyThen_answered (s : System) (call : Call) (reply : Reply) (next : DeviceThen) :
    Answered (some call) s (replyThen s call reply next) :=
  ⟨⟨rfl, rfl, rfl, rfl, rfl, rfl, rfl, rfl, rfl, rfl, rfl, rfl,
    [.replied call reply], rfl, by simp [LogEntry.Sent]⟩, nofun, reply, rfl⟩

theorem replyTo_answered (s : System) (call : Call) (reply : Reply) :
    Answered (some call) s (replyTo s call reply) :=
  replyThen_answered s call reply .run

theorem callStorage_quiet (env : Environment) (disk : Disk) (s : System) (client : Client)
    (call : StorageCall) :
    Quiet (s.access call.user client) (s.callStorage env disk client call).2 :=
  ⟨s.store.call_storage env.cipher disk call, rfl, rfl, rfl, rfl, rfl, rfl, rfl, rfl, rfl, rfl, rfl,
    [], rfl, by simp⟩

theorem replyChanged_answered (s : System) (call : Call) (outcome : Except String Bool)
    (failure : Reply) : Answered (some call) s (replyChanged s call outcome failure) := by
  unfold replyChanged
  split <;> exact replyTo_answered s call _

/-- A change of the records for a client, and the reply to it. -/
theorem callStorage_answered (env : Environment) (disk : Disk) (s : System) (call : Call)
    (storageCall : StorageCall) (failure : Reply) :
    Answered (some call) (s.access storageCall.user call.sender)
      (replyChanged (s.callStorage env disk call.sender storageCall).2 call
        (s.callStorage env disk call.sender storageCall).1 failure) := by
  have h := replyChanged_answered (s.callStorage env disk call.sender storageCall).2 call
    (s.callStorage env disk call.sender storageCall).1 failure
  exact ⟨(callStorage_quiet env disk s call.sender storageCall).trans h.toQuiet, h.moved, h.replies⟩

/-! ### The changes -/

/-- A message has been taken from the queue. -/
def System.popMessage (s : System) (rest : List Message) : System :=
  { s with device := { s.device with messages := rest } }

/-- A gated call reaches its handler, any other call reaches no handler that is logged. -/
def System.reachGated (s : System) (call : Call) : System :=
  if call.method.gated then s.reach call else s

/-- The device is claimed, and a listener waits for the end of the claimer. -/
def System.claimBy (s : System) (call : Call) (username : Name) : System :=
  { s with
    listens := s.listens ++ [⟨s.nextTask, call.sender, .addMatch, false⟩]
    nextTask := s.nextTask + 1
    device := { s.device with
      nameOwnerChangedTask := some s.nextTask
      claimed := true
      claimedSender := call.sender
      claimedUser := username } }

/-- What a release takes down. -/
def System.releaseBy (s : System) (sender : Client) : System :=
  (dropAuthGates (cancelEnrollVerify (resumeNameOwnerChanged s)) sender).unclaim

/-- What the end of a connection takes down. -/
def System.disconnect (s : System) (oldOwner : Client) : System :=
  ((dropAuthGates (if s.device.enrollVerifyTask = none then s
    else { cancelEnrollVerify s with imageQueue := [] }) oldOwner).unclaim).putEvent .stopSensor

/-- The operation is forgotten, with a stop event left for it. -/
def System.leaveStop (s : System) : System :=
  { s.putImage .enrollVerifyStop with device := { s.device with enrollVerifyTask := none } }

/-- A call is taken from the queue; one that needs an authorization uses it up. -/
inductive Admitted (s : System) (call : Call) : System → Prop
  | free {rest : List Message} : s.device.messages = .call call :: rest →
      call.method.gated = false → Admitted s call (s.popMessage rest)
  | authorized {rest : List Message} {gate : AuthGate} : s.device.messages = .call call :: rest →
      call.method.gated = true → (call.key, gate) ∈ s.device.authGates → gate.state = .authorized →
        Admitted s call (eraseGate (s.popMessage rest) call.key)

/-- The calls that name a user, whose uid is checked. -/
def Method.namesUser : Method → Bool
  | .listEnrolledFingers | .claim | .deleteEnrolledFingers => true
  | _ => false

/-- The call that a message is. -/
def Message.caller : Message → Option Call
  | .call c => some c
  | .nameOwnerChanged _ => none

/-- The changes a turn of the device makes. -/
inductive DeviceTurn (env : Environment) (s : System) : System → Prop
  | sent {next : DeviceThen} {s' : System} : s.device.pc = .sending next →
      Answered none s s' → DeviceTurn env s s'
  | stopSent {s' : System} : s.device.pc = .sending .sendEnrollStop →
      Answered none s.leaveStop s' → DeviceTurn env s s'
  | skipped {message : Message} {rest : List Message} {s' : System} : s.device.pc = .run →
      s.device.messages = message :: rest →
        Answered message.caller (s.popMessage rest) s' → DeviceTurn env s s'
  | dropped {call : Call} {gate : AuthGate} {rest : List Message} {s' : System} :
      s.device.pc = .run → s.device.messages = .call call :: rest →
        (call.key, gate) ∈ s.device.authGates → gate.state ≠ .authorized →
          Answered none (eraseGate (s.popMessage rest) call.key) s' → DeviceTurn env s s'
  | gateCreated {call : Call} {rest : List Message} : s.device.pc = .run →
      s.device.messages = .call call :: rest → call.method.gated = true →
        (∀ gate, (call.key, gate) ∉ s.device.authGates) →
          DeviceTurn env s (createGate (s.popMessage rest) call)
  | asked {call : Call} {t : System} : s.device.pc = .run → Admitted s call t →
      call.method.namesUser = true → DeviceTurn env s (getUid t call)
  | rejected {call : Call} {t s' : System} : s.device.pc = .run → Admitted s call t →
      Answered (some call) t s' → DeviceTurn env s s'
  | unchecked {call : Call} {s' : System} : s.device.pc = .checkUid call →
      Answered (some call) s s' → DeviceTurn env s s'
  | unnamed {call : Call} {s' : System} : s.device.pc = .checkUid call →
      call.method.namesUser = false → Answered none s s' → DeviceTurn env s s'
  | listed {call : Call} {user : Name} {s' : System} : s.device.pc = .checkUid call →
      env.MayAct call.sender user → Answered (some call) (s.access user call.sender) s' →
        DeviceTurn env s s'
  | deletedAll {call : Call} {user : Name} {s' : System} : s.device.pc = .checkUid call →
      call.method = .deleteEnrolledFingers → env.MayAct call.sender user →
        Answered (some call) ((s.reach call).access user call.sender) s' → DeviceTurn env s s'
  | claimed {call : Call} {user : Name} {s' : System} : s.device.pc = .checkUid call →
      env.MayAct call.sender user → s.device.claimed = false →
        Answered (some call) (s.claimBy call user) s' → DeviceTurn env s s'
  | served {call : Call} {t s' : System} : s.device.pc = .run → Admitted s call t →
      s.device.claimed = true → s.device.claimedSender = call.sender →
        call.method ≠ .deleteEnrolledFingers →
          (Answered (some call) (t.reachGated call) s' ∨ Answered (some call)
            ((t.reachGated call).access s.device.claimedUser call.sender) s') →
              DeviceTurn env s s'
  | started {call : Call} {t s' : System} {name : Name} {isVerify : Bool} : s.device.pc = .run →
      Admitted s call t → s.device.claimed = true → s.device.claimedSender = call.sender →
        call.method ≠ .deleteEnrolledFingers → s.device.enrollVerifyTask = none →
          Answered (some call)
            (startOperation ((t.reachGated call).access s.device.claimedUser call.sender)
              call name isVerify) s' → DeviceTurn env s s'
  | released {call : Call} {t s' : System} : s.device.pc = .run → Admitted s call t →
      s.device.claimed = true → s.device.claimedSender = call.sender → call.method = .release →
        Answered (some call) (t.releaseBy call.sender) s' → DeviceTurn env s s'
  | disconnected {name old : Name} {more : List Name} {rest : List Message} {s' : System} :
      s.device.pc = .run →
        s.device.messages = .nameOwnerChanged (name :: old :: [] :: more) :: rest →
          Answered none ((s.popMessage rest).disconnect old) s' → DeviceTurn env s s'

/-! ### The handlers -/

/-- Only the queue and the authorizations have changed. -/
theorem Admitted.eq {s t : System} {call : Call} (h : Admitted s call t) :
    t = { s with device := { s.device with
      messages := t.device.messages, authGates := t.device.authGates } } := by
  cases h <;> rfl

theorem listEnrolledFingers_answered (s : System) (call : Call) (username : Name) :
    Answered (some call) (s.access username call.sender) (listEnrolledFingers s call username) := by
  unfold listEnrolledFingers
  dsimp only
  split_ifs <;> exact replyTo_answered _ call _

theorem deleteEnrolledFingers_answered (env : Environment) (disk : Disk) (s : System) (call : Call)
    (username : Name) :
    Answered (some call) ((s.reach call).access username call.sender)
      (deleteEnrolledFingers env disk s call username) :=
  callStorage_answered env disk (s.reach call) call (.deleteAll username) saveFailed

theorem deleteEnrolledFingers2_answered (env : Environment) (disk : Disk) (s : System)
    (call : Call) :
    Answered (some call) ((s.reach call).access s.device.claimedUser call.sender)
      (deleteEnrolledFingers2 env disk s call) :=
  callStorage_answered env disk (s.reach call) call (.deleteAll s.device.claimedUser) saveFailed

theorem deleteEnrolledFinger_answered (env : Environment) (disk : Disk) (s : System) (call : Call) :
    Answered (some call) (s.reach call) (deleteEnrolledFinger env disk s call) ∨
      Answered (some call) ((s.reach call).access s.device.claimedUser call.sender)
        (deleteEnrolledFinger env disk s call) := by
  unfold deleteEnrolledFinger
  cases call.argument with
  | none => exact Or.inl (replyTo_answered _ call _)
  | some name =>
      exact Or.inr (callStorage_answered env disk (s.reach call) call
        (.deleteFingerprint s.device.claimedUser name) _)

/-- Starting an operation is refused, or there is none and one is started. -/
theorem enrollVerifyStart_cases (s : System) (call : Call) :
    Answered (some call) (s.reachGated call) (enrollVerifyStart s call) ∨
      Answered (some call) ((s.reachGated call).access s.device.claimedUser call.sender)
        (enrollVerifyStart s call) ∨
      (s.device.enrollVerifyTask = none ∧ ∃ name isVerify,
        Answered (some call)
          (startOperation ((s.reachGated call).access s.device.claimedUser call.sender) call name
            isVerify) (enrollVerifyStart s call)) := by
  have hdevice : (s.reachGated call).device = s.device := by
    unfold System.reachGated
    split_ifs <;> rfl
  unfold enrollVerifyStart
  rw [show (if call.method.gated then s.reach call else s) = s.reachGated call from rfl]
  dsimp only
  by_cases hready : (!(s.reachGated call).storage.readerReady ||
      (s.reachGated call).storage.sleeping) = true
  · rw [if_pos hready]
    exact Or.inl (replyTo_answered _ call _)
  · rw [if_neg hready, hdevice]
    by_cases htask : s.device.enrollVerifyTask = none
    · rw [if_neg (not_not.2 htask)]
      cases call.argument with
      | none => exact Or.inl (replyTo_answered _ call _)
      | some name =>
          dsimp only
          split_ifs
          · exact Or.inr (Or.inl (replyTo_answered _ call _))
          · exact Or.inr (Or.inr ⟨htask, name, _, replyThen_answered _ call _ _⟩)
          · exact Or.inr (Or.inr ⟨htask, name, _, replyThen_answered _ call _ _⟩)
    · rw [if_pos htask]
      exact Or.inl (replyTo_answered _ call _)

/-! ### The checks -/

theorem checkSender_turn {env : Environment} {s t : System} {call : Call} (disk : Disk)
    (hpc : s.device.pc = .run) (ht : Admitted s call t) (hnames : call.method.namesUser = false)
    (hother : call.method ≠ .other) :
    DeviceTurn env s (checkSender env disk t call) := by
  have hclaimed : t.device.claimed = s.device.claimed := by rw [ht.eq]
  have hsender : t.device.claimedSender = s.device.claimedSender := by rw [ht.eq]
  have huser : t.device.claimedUser = s.device.claimedUser := by rw [ht.eq]
  have htask : t.device.enrollVerifyTask = s.device.enrollVerifyTask := by rw [ht.eq]
  unfold checkSender
  by_cases hc : s.device.claimed = true
  · rw [if_neg (by rw [hclaimed, hc]; simp)]
    by_cases hs : s.device.claimedSender = call.sender
    · rw [if_neg (by rw [hsender]; exact not_not.2 hs)]
      -- the start of an operation, with or without an authorization
      have hstart : call.method ≠ .deleteEnrolledFingers →
          DeviceTurn env s (enrollVerifyStart t call) := by
        intro hmethod
        rcases enrollVerifyStart_cases t call with h | h | ⟨hnone, name, isVerify, h⟩
        · exact .served hpc ht hc hs hmethod (Or.inl h)
        · exact .served hpc ht hc hs hmethod (Or.inr (huser ▸ h))
        · exact .started hpc ht hc hs hmethod (htask ▸ hnone) (huser ▸ h)
      have hstop : DeviceTurn env s (enrollVerifyStop t call) := by
        unfold enrollVerifyStop
        split_ifs
        · exact .rejected hpc ht (replyTo_answered t call _)
        · exact .rejected hpc ht (replyThen_answered t call _ _)
      have hgated : call.method.gated = true → t.reach call = t.reachGated call := fun h =>
        (if_pos h).symm
      cases hm : call.method with
      | deleteEnrolledFingers2 =>
          have h := deleteEnrolledFingers2_answered env disk t call
          rw [hgated (by rw [hm]; rfl), huser] at h
          exact .served hpc ht hc hs (by rw [hm]; simp) (Or.inr h)
      | deleteEnrolledFinger =>
          have h := deleteEnrolledFinger_answered env disk t call
          rw [hgated (by rw [hm]; rfl), huser] at h
          exact .served hpc ht hc hs (by rw [hm]; simp) h
      | enrollStart => exact hstart (by rw [hm]; simp)
      | verifyStart => exact hstart (by rw [hm]; simp)
      | enrollStop => exact hstop
      | verifyStop => exact hstop
      | release => exact .released hpc ht hc hs hm (replyTo_answered _ call _)
      | other => exact absurd hm hother
      | _ => exact absurd hnames (by rw [hm]; simp [Method.namesUser])
    · rw [if_pos (by rw [hsender]; exact hs)]
      exact .rejected hpc ht (replyTo_answered t call _)
  · rw [if_pos (by rw [hclaimed]; simpa using hc)]
    exact .rejected hpc ht (replyTo_answered t call _)

/-- The uid check lets a client act for the user it names only when it may. -/
theorem checkUid_turn {env : Environment} {s : System} {call : Call} (input : DeviceInput)
    (hpc : s.device.pc = .checkUid call) : DeviceTurn env s (checkUid env input s call) := by
  have hreply : ∀ reply, DeviceTurn env s (replyTo s call reply) := fun reply =>
    .unchecked hpc (replyTo_answered s call reply)
  unfold checkUid
  split
  · exact hreply _
  · cases call.argument with
    | none => exact hreply _
    | some argument =>
        cases haccount : env.getpwuid (env.uidOf call.sender) with
        | none => exact hreply _
        | some account =>
            dsimp only
            generalize (if argument = [] then account else argument) = username
            by_cases hdenied : account ≠ username ∧ env.uidOf call.sender ≠ 0
            · rw [if_pos hdenied]
              exact hreply _
            · rw [if_neg hdenied]
              have hact : env.MayAct call.sender username := by
                by_contra hno
                rw [Environment.MayAct, not_or, haccount] at hno
                exact hdenied ⟨fun h => hno.2 (by rw [h]), hno.1⟩
              unfold uidChecked
              cases hm : call.method with
              | listEnrolledFingers =>
                  exact .listed hpc hact (listEnrolledFingers_answered s call _)
              | claim =>
                  dsimp only
                  unfold claimDevice
                  by_cases hc : s.device.claimed = true
                  · rw [if_pos hc]
                    exact hreply _
                  · rw [if_neg hc]
                    exact .claimed hpc hact (by simpa using hc) (replyTo_answered _ call _)
              | deleteEnrolledFingers =>
                  exact .deletedAll hpc hm hact
                    (deleteEnrolledFingers_answered env input.disk s call _)
              | _ => exact .unnamed hpc (by rw [hm]; rfl) (runDevice_answered s)

theorem checkPolkit_turn {env : Environment} {s : System} {call : Call} {rest : List Message}
    (disk : Disk) (hpc : s.device.pc = .run) (hmsg : s.device.messages = .call call :: rest)
    (hgated : call.method.gated = true) :
    DeviceTurn env s (checkPolkit env disk (s.popMessage rest) call) := by
  unfold checkPolkit
  cases hfind : (s.popMessage rest).device.authGates.find? fun entry => entry.1 = call.key with
  | none =>
      dsimp only
      split
      · exact .skipped hpc hmsg (replyTo_answered _ call _)
      · refine .gateCreated hpc hmsg hgated fun gate hmem => ?_
        have hkey := List.find?_eq_none.1 hfind (call.key, gate) hmem
        simp at hkey
  | some entry =>
      obtain ⟨key, gate⟩ := entry
      obtain rfl : key = call.key := by simpa using List.find?_some hfind
      have hmem : (call.key, gate) ∈ s.device.authGates := List.mem_of_find?_eq_some hfind
      dsimp only
      split
      · rename_i hstate
        exact .dropped hpc hmsg hmem hstate (runDevice_answered _)
      · rename_i hstate
        have ht : Admitted s call (eraseGate (s.popMessage rest) call.key) :=
          .authorized hmsg hgated hmem (not_not.1 hstate)
        by_cases hm : call.method = .deleteEnrolledFingers
        · rw [if_pos hm]
          exact .asked hpc ht (by rw [hm]; rfl)
        · rw [if_neg hm]
          refine checkSender_turn disk hpc ht ?_ ?_
          · revert hgated hm
            cases call.method <;> simp [Method.gated, Method.namesUser]
          · revert hgated
            cases call.method <;> simp [Method.gated]

theorem nameOwnerChanged_turn {env : Environment} {s : System} {args : List Name}
    {rest : List Message} (hpc : s.device.pc = .run)
    (hmsg : s.device.messages = .nameOwnerChanged args :: rest) :
    DeviceTurn env s (nameOwnerChanged (s.popMessage rest) args) := by
  unfold nameOwnerChanged
  split
  · split
    · rename_i name old new more hnew
      subst hnew
      exact .disconnected hpc hmsg (sending_answered _ .run)
    · exact .skipped hpc hmsg (runDevice_answered _)
  · exact .skipped hpc hmsg (runDevice_answered _)

/-- **A turn of the device makes one of the changes.** -/
theorem stepDevice_turn {env : Environment} {s s' : System} {input : DeviceInput}
    (h : stepDevice env s input = some s') : DeviceTurn env s s' := by
  unfold stepDevice at h
  cases hpc : s.device.pc with
  | run =>
      rw [hpc] at h
      cases hmsg : s.device.messages with
      | nil => simp [hmsg] at h
      | cons message rest =>
          rw [hmsg] at h
          obtain rfl := Option.some.inj h
          cases message with
          | nameOwnerChanged args => exact nameOwnerChanged_turn hpc hmsg
          | call call =>
              have hask : call.method.gated = false → call.method.namesUser = true →
                  DeviceTurn env s (getUid (s.popMessage rest) call) := fun hm hnames =>
                .asked hpc (.free hmsg hm) hnames
              have hcheck : call.method.gated = false → call.method.namesUser = false →
                  call.method ≠ .other →
                    DeviceTurn env s (checkSender env input.disk (s.popMessage rest) call) :=
                fun hm hnames hother =>
                  checkSender_turn input.disk hpc (.free hmsg hm) hnames hother
              have hpolkit : call.method.gated = true →
                  DeviceTurn env s (checkPolkit env input.disk (s.popMessage rest) call) :=
                checkPolkit_turn input.disk hpc hmsg
              show DeviceTurn env s (handleMessage env input.disk (s.popMessage rest) (.call call))
              unfold handleMessage
              dsimp only
              cases hm : call.method with
              | listEnrolledFingers => exact hask (by rw [hm]; rfl) (by rw [hm]; rfl)
              | claim => exact hask (by rw [hm]; rfl) (by rw [hm]; rfl)
              | enrollStart => exact hpolkit (by rw [hm]; rfl)
              | deleteEnrolledFinger => exact hpolkit (by rw [hm]; rfl)
              | deleteEnrolledFingers => exact hpolkit (by rw [hm]; rfl)
              | deleteEnrolledFingers2 => exact hpolkit (by rw [hm]; rfl)
              | enrollStop => exact hcheck (by rw [hm]; rfl) (by rw [hm]; rfl) (by rw [hm]; simp)
              | verifyStop => exact hcheck (by rw [hm]; rfl) (by rw [hm]; rfl) (by rw [hm]; simp)
              | verifyStart => exact hcheck (by rw [hm]; rfl) (by rw [hm]; rfl) (by rw [hm]; simp)
              | release => exact hcheck (by rw [hm]; rfl) (by rw [hm]; rfl) (by rw [hm]; simp)
              | other => exact .skipped hpc hmsg (replyTo_answered _ call _)
  | checkUid call =>
      rw [hpc] at h
      obtain rfl := Option.some.inj h
      exact checkUid_turn input hpc
  | sending next =>
      rw [hpc] at h
      obtain rfl := Option.some.inj h
      cases next with
      | run => exact .sent hpc (runDevice_answered s)
      | sendVerifyFingerSelected => exact .sent hpc (sending_answered s .run)
      | sendEnrollStop => exact .stopSent hpc (sending_answered s.leaveStop .run)

end Fpc
