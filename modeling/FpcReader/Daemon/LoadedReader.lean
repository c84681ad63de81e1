/-
**The reader a database is loaded for.**

The database names the hardware it was written for, and loads for no other.  The control task notes
the hardware id of a reader before it checks the rest of what the reader says, while the device
still deletes records of the reader before.  So the database stays with its reader exactly as long
as no answer to the initialization names another one.

Main definitions:

* `Fpc.Store.Keeps` — only flags of the storage have changed;
* `Fpc.StoreTurn` — what a step does to the store;
* `Fpc.Loading` — the daemon, with the hardware id its records were loaded under;
* `Fpc.SavedBy`, `Fpc.DatabaseFor` — a save, and the file of a hardware.

Main results:

* `Fpc.step_store` — **a step keeps the store, calls it, opens it or notes a hardware id**;
* `Fpc.saves_for_reader` — **every save is for the reader the records were loaded for**.
-/

import FpcReader.Daemon.Isolation
import FpcReader.Storage.Atomicity

set_option relaxedAutoImplicit false
set_option autoImplicit false

namespace Fpc

open Bytes

variable {env : Environment} {s s' t u : System}

/-! ### Flags only -/

/-- Nothing has changed but the flags the tasks share: records, file and hardware id are the
same. -/
structure Store.Keeps (a b : Store) : Prop where
  file : b.file = a.file
  filename : b.storage.filename = a.storage.filename
  key : b.storage.key = a.storage.key
  fingerprints : b.storage.fingerprints = a.storage.fingerprints
  hardwareId : b.storage.hardwareId = a.storage.hardwareId

theorem Store.Keeps.refl (a : Store) : a.Keeps a := ⟨rfl, rfl, rfl, rfl, rfl⟩

theorem Store.Keeps.trans {a b c : Store} (h : a.Keeps b) (h' : b.Keeps c) : a.Keeps c where
  file := h'.file.trans h.file
  filename := h'.filename.trans h.filename
  key := h'.key.trans h.key
  fingerprints := h'.fingerprints.trans h.fingerprints
  hardwareId := h'.hardwareId.trans h.hardwareId

theorem finalizeOperation_keeps (s : System) (op : EnrollVerify) :
    s.store.Keeps (s.finalizeOperation op).store :=
  ⟨rfl, rfl, rfl, rfl, rfl⟩

theorem cancelOperation_keeps (s : System) (id : ℕ) :
    s.store.Keeps (s.cancelOperation id).store := by
  unfold System.cancelOperation
  cases s.operations.find? fun o => o.id = id with
  | none => exact .refl _
  | some op => exact finalizeOperation_keeps s op

theorem cancelEnrollVerify_keeps (s : System) : s.store.Keeps (cancelEnrollVerify s).store := by
  unfold cancelEnrollVerify
  cases s.device.enrollVerifyTask with
  | none => exact .refl _
  | some id => exact cancelOperation_keeps s id

theorem resumeNameOwnerChanged_store (s : System) : (resumeNameOwnerChanged s).store = s.store := by
  unfold resumeNameOwnerChanged
  cases s.device.nameOwnerChangedTask <;> rfl

/-! ### The device -/

/-- A turn of a task keeps the store or leaves that of one call. -/
inductive CallsStore (cipher : Cipher) (store store' : Store) : Prop
  | kept : store.Keeps store' → CallsStore cipher store store'
  | called (disk : Disk) (call : StorageCall) :
      store' = (store.call cipher disk call).store → CallsStore cipher store store'

theorem replyChanged_store (s : System) (call : Call) (outcome : Except String Bool)
    (failure : Reply) : (replyChanged s call outcome failure).store = s.store := by
  unfold replyChanged
  split <;> rfl

theorem enrollVerifyStart_keeps (s : System) (call : Call) :
    s.store.Keeps (enrollVerifyStart s call).store := by
  have hreach : (if call.method.gated then s.reach call else s).store = s.store := by
    split_ifs <;> rfl
  unfold enrollVerifyStart
  dsimp only
  generalize (if call.method.gated then s.reach call else s) = t at hreach ⊢
  rw [← hreach]
  cases call.argument with
  | none => split_ifs <;> exact .refl _
  | some fingerName =>
      dsimp only
      split_ifs <;> exact ⟨rfl, rfl, rfl, rfl, rfl⟩

theorem deleteEnrolledFinger_calls (disk : Disk) (s : System) (call : Call) :
    CallsStore env.cipher s.store (deleteEnrolledFinger env disk s call).store := by
  unfold deleteEnrolledFinger
  cases call.argument with
  | none => exact .kept (.refl _)
  | some name =>
      dsimp only
      rw [replyChanged_store]
      exact .called disk _ rfl

theorem releaseDevice_keeps (s : System) (call : Call) :
    s.store.Keeps (releaseDevice s call).store := by
  have h := cancelEnrollVerify_keeps (resumeNameOwnerChanged s)
  rw [resumeNameOwnerChanged_store] at h
  exact h

theorem checkSender_calls (disk : Disk) (s : System) (call : Call) :
    CallsStore env.cipher s.store (checkSender env disk s call).store := by
  unfold checkSender
  split_ifs
  · exact .kept (.refl _)
  · exact .kept (.refl _)
  cases call.method with
  | deleteEnrolledFingers2 =>
      show CallsStore _ _ (deleteEnrolledFingers2 env disk s call).store
      rw [deleteEnrolledFingers2, replyChanged_store]
      exact .called disk _ rfl
  | deleteEnrolledFinger => exact deleteEnrolledFinger_calls disk s call
  | enrollStart => exact .kept (enrollVerifyStart_keeps s call)
  | verifyStart => exact .kept (enrollVerifyStart_keeps s call)
  | enrollStop =>
      show CallsStore _ _ (enrollVerifyStop s call).store
      unfold enrollVerifyStop
      split_ifs <;> exact .kept (.refl _)
  | verifyStop =>
      show CallsStore _ _ (enrollVerifyStop s call).store
      unfold enrollVerifyStop
      split_ifs <;> exact .kept (.refl _)
  | release => exact .kept (releaseDevice_keeps s call)
  | listEnrolledFingers => exact .kept (.refl _)
  | deleteEnrolledFingers => exact .kept (.refl _)
  | claim => exact .kept (.refl _)
  | other => exact .kept (.refl _)

theorem uidChecked_calls (disk : Disk) (s : System) (call : Call) (username : Name) :
    CallsStore env.cipher s.store (uidChecked env disk s call username).store := by
  unfold uidChecked
  cases call.method with
  | listEnrolledFingers =>
      dsimp only
      unfold listEnrolledFingers
      dsimp only
      split_ifs <;> exact .kept (.refl _)
  | claim =>
      dsimp only
      unfold claimDevice
      split_ifs <;> exact .kept (.refl _)
  | deleteEnrolledFingers =>
      dsimp only
      rw [deleteEnrolledFingers, replyChanged_store]
      exact .called disk _ rfl
  | _ => exact .kept (.refl _)

theorem checkUid_calls (input : DeviceInput) (s : System) (call : Call) :
    CallsStore env.cipher s.store (checkUid env input s call).store := by
  unfold checkUid
  split_ifs
  · exact .kept (.refl _)
  cases call.argument with
  | none => exact .kept (.refl _)
  | some argument =>
      cases env.getpwuid (env.uidOf call.sender) with
      | none => exact .kept (.refl _)
      | some account =>
          dsimp only
          generalize (if argument = [] then account else argument) = username
          split_ifs
          · exact .kept (.refl _)
          · exact uidChecked_calls input.disk s call username

theorem checkPolkit_calls (disk : Disk) (s : System) (call : Call) :
    CallsStore env.cipher s.store (checkPolkit env disk s call).store := by
  unfold checkPolkit
  cases s.device.authGates.find? fun entry => entry.1 = call.key with
  | none =>
      dsimp only
      split_ifs <;> exact .kept (.refl _)
  | some entry =>
      dsimp only
      split_ifs
      · exact .kept (.refl _)
      · exact .kept (.refl _)
      · exact checkSender_calls disk (eraseGate s call.key) call

theorem nameOwnerChanged_keeps (s : System) (args : List Name) :
    s.store.Keeps (nameOwnerChanged s args).store := by
  unfold nameOwnerChanged
  split
  · split_ifs
    · exact .refl _
    · exact cancelEnrollVerify_keeps s
    · exact .refl _
  · exact .refl _

theorem handleMessage_calls (disk : Disk) (s : System) (message : Message) :
    CallsStore env.cipher s.store (handleMessage env disk s message).store := by
  cases message with
  | nameOwnerChanged args => exact .kept (nameOwnerChanged_keeps s args)
  | call call =>
      rw [handleMessage]
      cases call.method with
      | listEnrolledFingers => exact .kept (.refl _)
      | claim => exact .kept (.refl _)
      | other => exact .kept (.refl _)
      | enrollStart => exact checkPolkit_calls disk s call
      | deleteEnrolledFinger => exact checkPolkit_calls disk s call
      | deleteEnrolledFingers => exact checkPolkit_calls disk s call
      | deleteEnrolledFingers2 => exact checkPolkit_calls disk s call
      | enrollStop => exact checkSender_calls disk s call
      | verifyStop => exact checkSender_calls disk s call
      | verifyStart => exact checkSender_calls disk s call
      | release => exact checkSender_calls disk s call

/-- **A turn of the device** keeps the store or makes one call. -/
theorem stepDevice_calls {input : DeviceInput} (h : stepDevice env s input = some s') :
    CallsStore env.cipher s.store s'.store := by
  unfold stepDevice at h
  cases hpc : s.device.pc with
  | run =>
      rw [hpc] at h
      cases hqueue : s.device.messages with
      | nil => simp [hqueue] at h
      | cons message rest =>
          rw [hqueue] at h
          obtain rfl := Option.some.inj h
          exact handleMessage_calls input.disk
            { s with device := { s.device with messages := rest } } message
  | checkUid call =>
      rw [hpc] at h
      obtain rfl := Option.some.inj h
      exact checkUid_calls input s call
  | sending next =>
      rw [hpc] at h
      obtain rfl := Option.some.inj h
      cases next <;> exact .kept (.refl _)

/-! ### Operations -/

theorem acceptImage_calls (disk : Disk) (s : System) (op : EnrollVerify) (requested : Option ℕ)
    (scan : Scan) :
    CallsStore env.cipher s.store (acceptImage env disk s op requested scan).store := by
  unfold acceptImage
  cases scan with
  | unprepared => exact .kept (.refl _)
  | prepared query enrollment =>
      dsimp only
      split_ifs
      · unfold verifyScan
        dsimp only
        split <;> exact .called disk (.verify op.user op.name query) rfl
      · cases enrollment with
        | missing => exact .kept (.refl _)
        | status code =>
            rw [enrollScan]
            split_ifs <;> exact .kept (.refl _)
        | rejected => exact .kept (.refl _)
        | accepted => exact .kept (.refl _)
        | unfinished => exact .kept (.refl _)
        | complete native =>
            rw [enrollScan]
            split <;> exact .called disk (.insertOrUpdate ⟨op.user, op.name, native, 0⟩) rfl

/-- **A turn of an operation** keeps the store or makes one call. -/
theorem stepOperation_calls {disk : Disk} {op : EnrollVerify} {scan : Scan}
    (h : stepOperation env disk s op scan = some s') : CallsStore env.cipher s.store s'.store := by
  unfold stepOperation at h
  cases hpc : op.pc with
  | enroll =>
      rw [hpc] at h
      obtain rfl := Option.some.inj h
      exact .kept (.refl _)
  | arming =>
      rw [hpc] at h
      obtain rfl := Option.some.inj h
      exact .kept (.refl _)
  | waitImage =>
      rw [hpc] at h
      cases hqueue : s.imageQueue with
      | nil => simp [hqueue] at h
      | cons event rest =>
          rw [hqueue] at h
          obtain rfl := Option.some.inj h
          unfold parseImage
          cases event with
          | image generation origin requested =>
              dsimp only
              split_ifs
              · exact .kept (.refl _)
              · exact acceptImage_calls disk { s with imageQueue := rest } op requested scan
          | enrollVerifyStop => exact .kept ⟨rfl, rfl, rfl, rfl, rfl⟩
          | _ => exact .kept (.refl _)
  | sending terminal =>
      rw [hpc] at h
      obtain rfl := Option.some.inj h
      cases terminal <;> exact .kept ⟨rfl, rfl, rfl, rfl, rfl⟩
  | stopping =>
      rw [hpc] at h
      obtain rfl := Option.some.inj h
      exact .kept (finalizeOperation_keeps s op)

/-! ### The control task -/

theorem cleanupDevice_keeps (s : System) (removeDevice : Bool) :
    s.store.Keeps (cleanupDevice s removeDevice).store := by
  unfold cleanupDevice
  dsimp only
  set t := s.setStorage { s.storage with readerReady := false } with ht
  have hflags : s.store.Keeps t.store := ⟨rfl, rfl, rfl, rfl, rfl⟩
  have hcancel : t.store.Keeps (cancelDevice t).store := by
    show t.store.Keeps (resumeNameOwnerChanged (cancelEnrollVerify t)).store
    rw [resumeNameOwnerChanged_store]
    exact cancelEnrollVerify_keeps t
  split_ifs
  · have h := hflags.trans hcancel
    exact ⟨h.file, h.filename, h.key, h.fingerprints, h.hardwareId⟩
  · exact ⟨rfl, rfl, rfl, rfl, rfl⟩

theorem finishControl_keeps (s : System) : s.store.Keeps (finishControl s).store :=
  cleanupDevice_keeps { s with power := false } true

theorem scheduleRecovery_keeps (s : System) : s.store.Keeps (scheduleRecovery s).store := by
  unfold scheduleRecovery
  split_ifs
  · exact finishControl_keeps s
  · exact .refl _

theorem beginRecovery_keeps (s : System) : s.store.Keeps (beginRecovery s).store := by
  have h := cleanupDevice_keeps s false
  unfold beginRecovery
  generalize cleanupDevice s false = t at h ⊢
  dsimp only
  split_ifs
  · exact h
  · exact h.trans (scheduleRecovery_keeps
      { t with control := { t.control with suspended := t.storage.sleeping } })

theorem notifyOperationFailed_keeps (s : System) :
    s.store.Keeps (notifyOperationFailed s).store := by
  have hflags : ∀ t : System,
      t.store = (s.setStorage { s.storage with readerReady := false }).store →
        s.store.Keeps t.store := fun t ht => ht ▸ ⟨rfl, rfl, rfl, rfl, rfl⟩
  unfold notifyOperationFailed
  dsimp only
  split_ifs
  · exact (hflags _ rfl).trans (beginRecovery_keeps _)
  · exact hflags _ rfl

theorem initReader_keeps (input : ControlInput) (s : System) :
    s.store.Keeps (initReader input s).store := by
  unfold initReader
  split_ifs
  · exact notifyOperationFailed_keeps s
  · exact .refl _

theorem reopen_keeps (input : ControlInput) (s : System) :
    s.store.Keeps (reopen input s).store := by
  unfold reopen
  cases input.reopened with
  | deferred => exact .refl _
  | missing => exact scheduleRecovery_keeps s
  | _ => exact initReader_keeps input { s with control := { s.control with handle := true } }

theorem submitArm_store (s : System) : (submitArm s).store = s.store := by
  unfold submitArm
  split_ifs <;> rfl

theorem startSensor_store (input : ControlInput) (s : System) :
    (startSensor input s).store = s.store := by
  unfold startSensor
  dsimp only
  split_ifs
  · rfl
  · exact submitArm_store _

theorem delayGetImage_store (input : ControlInput) (s : System) :
    (delayGetImage input s).store = s.store := by
  unfold delayGetImage getImage
  split_ifs <;> rfl

theorem controlThen_keeps (input : ControlInput) (s : System) (next : ControlThen) :
    s.store.Keeps (controlThen input s next).store := by
  cases next with
  | init => exact initReader_keeps input s
  | scheduleRecovery => exact scheduleRecovery_keeps s
  | reopen => exact reopen_keeps input s
  | parseState =>
      show s.store.Keeps (parseState input s).store
      unfold parseState
      cases input.state with
      | incomplete => exact notifyOperationFailed_keeps s
      | mismatch => exact finishControl_keeps s
      | supported => exact .refl _
  | parseTlsKey =>
      show s.store.Keeps (parseTlsKey input s).store
      unfold parseTlsKey
      cases input.tlsKey with
      | none => exact notifyOperationFailed_keeps s
      | some key => exact .refl _
  | delayGetImage =>
      show s.store.Keeps (delayGetImage input s).store
      rw [delayGetImage_store]
      exact .refl _
  | getImage =>
      show s.store.Keeps (getImage s).store
      unfold getImage
      split_ifs <;> exact .refl _
  | submitArm =>
      show s.store.Keeps (submitArm s).store
      rw [submitArm_store]
      exact .refl _
  | resumeRecovery =>
      show s.store.Keeps (resumeRecovery input s).store
      unfold resumeRecovery
      split_ifs
      · exact .refl _
      · exact beginRecovery_keeps s
  | getState => exact .refl _
  | spawn => exact .refl _
  | getEvent => exact .refl _
  | endEnrollment => exact .refl _
  | endSession => exact .refl _
  | yieldRecovery => exact .refl _

theorem handleImage_store (input : ControlInput) (s : System) (origin : Origin)
    (requested : Option ℕ) : (handleImage input s origin requested).store = s.store := by
  unfold handleImage
  split_ifs
  · rfl
  · exact startSensor_store input _
  · rfl

theorem handleFingerDown_store (input : ControlInput) (s : System) :
    (handleFingerDown input s).store = s.store := by
  unfold handleFingerDown
  dsimp only
  split_ifs
  · exact delayGetImage_store input _
  · rfl
  · rfl

/-- The store with the hardware id of a reader. -/
def Store.identify (store : Store) (hardwareId : UInt16) : Store :=
  { store with storage := { store.storage with hardwareId := hardwareId } }

/-- The event that a step takes from the queue of the control task. -/
def System.takes (s : System) : Action → Option FPCEvent
  | .control _ => if s.control.pc = .getEvent then s.eventQueue.head? else none
  | _ => none

/-- What a step does to the store: it keeps it, calls it, opens it, or notes a hardware id. -/
inductive StoreTurn (env : Environment) (s : System) (taken : Option FPCEvent) (s' : System) : Prop
  | used : CallsStore env.cipher s.store s'.store → StoreTurn env s taken s'
  | opened (store : Store) : taken = some .tlsReady →
      s.store.init env.cipher env.database s.control.tlsKey s.store.file = .ok store →
        store.Keeps s'.store → StoreTurn env s taken s'
  | identified (result : InitResult) (origin : Origin) :
      taken = some (.fpcEvent (.initResult (some result)) origin) →
        (s.store.identify result.hardwareId).Keeps s'.store → StoreTurn env s taken s'

theorem StoreTurn.kept {taken : Option FPCEvent} (h : s.store.Keeps s'.store) :
    StoreTurn env s taken s' :=
  .used (.kept h)

theorem handleWireEvent_store (input : ControlInput) (s : System) (origin : Origin)
    (event : WireEvent) :
    StoreTurn env s (some (.fpcEvent event origin)) (handleWireEvent input s origin event) := by
  cases event with
  | initResult result =>
      cases result with
      | none => exact .kept (notifyOperationFailed_keeps s)
      | some result =>
          refine .identified result origin rfl ?_
          show (s.store.identify result.hardwareId).Keeps (handleInitResult s (some result)).store
          -- the id is noted before the answer is checked
          unfold handleInitResult
          dsimp only
          split_ifs
          · exact notifyOperationFailed_keeps
              (s.setStorage { s.storage with hardwareId := result.hardwareId })
          · exact .refl _
  | armResult success =>
      show StoreTurn env s _ (if !success then notifyOperationFailed s else s.getEvent)
      split_ifs
      · exact .kept (notifyOperationFailed_keeps s)
      · exact .kept (.refl _)
  | deadPixelReport defects =>
      cases defects with
      | none => exact .kept (notifyOperationFailed_keeps s)
      | some defects => exact .kept ⟨rfl, rfl, rfl, rfl, rfl⟩
  | tls => exact .kept (notifyOperationFailed_keeps s)
  | unknown => exact .kept (notifyOperationFailed_keeps s)
  | fingerDown =>
      refine .kept ?_
      show s.store.Keeps (handleFingerDown input s).store
      rw [handleFingerDown_store]
      exact .refl _
  | image requested =>
      refine .kept ?_
      show s.store.Keeps (handleImage input s origin requested).store
      rw [handleImage_store]
      exact .refl _
  | hello => exact .kept (.refl _)
  | fingerUp => exact .kept (.refl _)
  | usbLogs => exact .kept (.refl _)
  | tlsKey => exact .kept (.refl _)
  | refreshSensor => exact .kept (.refl _)

theorem tlsReady_store (h : tlsReady env s = some s') :
    StoreTurn env s (some .tlsReady) s' := by
  unfold tlsReady at h
  cases hinit : s.store.init env.cipher env.database s.control.tlsKey s.store.file with
  | error e => simp [hinit] at h
  | ok store =>
      rw [hinit] at h
      obtain rfl := Option.some.inj h
      exact .opened store rfl hinit ⟨rfl, rfl, rfl, rfl, rfl⟩

theorem handleEvent_store {input : ControlInput} {event : FPCEvent}
    (h : handleEvent env input s event = some s') : StoreTurn env s (some event) s' := by
  cases event with
  | tlsReady => exact tlsReady_store h
  | fpcEvent event origin =>
      obtain rfl := Option.some.inj h
      exact handleWireEvent_store input s origin event
  | startSensor =>
      obtain rfl := Option.some.inj h
      refine .kept ?_
      split_ifs
      · exact .refl _
      · rw [startSensor_store]
        exact .refl _
  | stopSensor =>
      obtain rfl := Option.some.inj h
      refine .kept ?_
      split_ifs <;> exact .refl _
  | transportFailed =>
      obtain rfl := Option.some.inj h
      exact .kept (notifyOperationFailed_keeps s)
  | suspend =>
      obtain rfl := Option.some.inj h
      exact .kept (notifyOperationFailed_keeps
        { s with control := { s.control with suspended := true, captureActive := false } })
  | resume =>
      obtain rfl := Option.some.inj h
      refine .kept ?_
      split_ifs
      · exact .refl _
      · exact reopen_keeps input
          { s with control := { s.control with suspended := false, recoveryAttempt := 0 } }
  | fingerDown generation =>
      obtain rfl := Option.some.inj h
      exact .kept (.refl _)
  | image generation origin requested =>
      obtain rfl := Option.some.inj h
      exact .kept (.refl _)
  | enrollVerifyStop =>
      obtain rfl := Option.some.inj h
      exact .kept (.refl _)

theorem stepControl_store {input : ControlInput} (h : stepControl env s input = some s') :
    StoreTurn env s (s.takes (.control input)) s' := by
  cases stepControl_runs h with
  | @resumed next _ _ => exact .kept (controlThen_keeps input s next)
  | failed _ _ => exact .kept (notifyOperationFailed_keeps s)
  | @event event rest _ hpc hqueue hturn =>
      have htakes : s.takes (.control input) = some event := by
        unfold System.takes
        rw [hpc, hqueue]
        rfl
      rw [htakes]
      rcases handleEvent_store hturn with hused | ⟨store, htaken, hinit, hkeeps⟩ |
        ⟨result, origin, htaken, hkeeps⟩
      · exact .used hused
      · exact .opened store htaken hinit hkeeps
      · exact .identified result origin htaken hkeeps

theorem stepGate_store (s : System) (gate : PolkitGate) (reply : PolkitReply) :
    (stepGate s gate reply).store = s.store := by
  rw [stepGate_eq]

theorem stepListen_store {listen : Listen} {success : Bool}
    (h : stepListen s listen success = some s') : s'.store = s.store := by
  unfold stepListen at h
  cases hpc : listen.pc with
  | addMatch =>
      rw [hpc] at h
      exact Option.some.inj h ▸ rfl
  | adding =>
      rw [hpc] at h
      rw [← Option.some.inj h]
      split_ifs <;> rfl
  | installed =>
      rw [hpc] at h
      dsimp only at h
      split_ifs at h
      exact Option.some.inj h ▸ rfl
  | removing =>
      rw [hpc] at h
      exact Option.some.inj h ▸ rfl

/-- **A step keeps the store, calls it, opens it or notes a hardware id.** -/
theorem step_store {action : Action} (h : step env s action = some s') :
    StoreTurn env s (s.takes action) s' := by
  cases action with
  | device input =>
      exact .used (stepDevice_calls (step_device h).2)
  | operation id scan disk =>
      have hstep : operationTurn env s id scan disk = some s' := h
      unfold operationTurn at hstep
      cases hfind : s.operations.find? fun op => op.id = id with
      | none => simp [hfind] at hstep
      | some op =>
          rw [hfind] at hstep
          exact .used (stepOperation_calls hstep)
  | control input => exact stepControl_store h
  | gate id reply =>
      cases step_turn h with
      | gate => exact .kept (stepGate_store s _ reply ▸ .refl _)
  | listen id success =>
      cases step_turn h with
      | listen _ hlisten => exact .kept (stepListen_store hlisten ▸ .refl _)
  | prepareForSleep sleeping =>
      cases step_turn h with
      | slept => exact .kept ⟨rfl, rfl, rfl, rfl, rfl⟩
      | woke => exact .kept ⟨rfl, rfl, rfl, rfl, rfl⟩
  | _ =>
      cases step_turn h
      all_goals exact .kept (.refl _)

/-! ### Loading and saving -/

/-- The daemon, with the hardware id its records were loaded under when the database was opened. -/
structure Loading where
  system : System
  loadedFor : Option UInt16

/-- Opening the database loads the records under the id there is. -/
def loadStep (env : Environment) (l : Loading) (action : Action) : Option Loading :=
  (step env l.system action).map fun s' =>
    ⟨s', if l.system.takes action = some .tlsReady then some l.system.storage.hardwareId
      else l.loadedFor⟩

def LoadStarted (l : Loading) : Prop := Started l.system ∧ l.loadedFor = none

/-- A step leaves the store of a call whose save succeeded. -/
def SavedBy (env : Environment) (s s' : System) (disk : Disk) (call : StorageCall) : Prop :=
  (s.store.call env.cipher disk call).saved = true ∧
    s'.store = (s.store.call env.cipher disk call).store

/-- An encrypted file that starts with the profile of a hardware id. -/
def DatabaseFor (cipher : Cipher) (key : List UInt8) (hardwareId : UInt16) (file : List UInt8) :
    Prop :=
  ∃ nonce rest, file = encryptDatabase cipher key nonce
    ((profileWords hardwareId).flatMap storeLe32 ++ rest)

/-- Every save of a step is for the reader the records were loaded for, and that reader loads what
was saved. -/
def SavesForReader (env : Environment) (l : Loading) (s' : System) : Prop :=
  ∀ disk call, SavedBy env l.system s' disk call → ∃ id file, l.loadedFor = some id ∧
    s'.store.file = some file ∧ DatabaseFor env.cipher s'.storage.key id file ∧
      loadDatabase env.cipher s'.storage.key id (some file) = .ok s'.storage.fingerprints.nonempty

/-- The control task takes a readable answer to the initialization that names another reader than
the one the records were loaded for. -/
def Loading.namesOther (l : Loading) (action : Action) : Bool :=
  match l.system.takes action with
  | some (.fpcEvent (.initResult (some result)) _) =>
      l.loadedFor.any fun id => result.hardwareId != id
  | _ => false

/-- No step does that. -/
def SameReader (l : Loading) (action : Action) : Prop := l.namesOther action = false

instance (l : Loading) (action : Action) : Decidable (SameReader l action) :=
  inferInstanceAs (Decidable (_ = _))

/-- A successful save writes for the hardware id of the storage. -/
theorem saveDatabase_for {cipher : Cipher} {disk : Disk} {storage : FingerprintStorage}
    {file : List UInt8} (h : saveDatabase cipher disk storage = some file) :
    storage.key.length = 32 ∧ DatabaseFor cipher storage.key storage.hardwareId file := by
  unfold saveDatabase at h
  split_ifs at h with hopen
  cases hplain : serializeDatabase storage.hardwareId storage.fingerprints with
  | none => simp [hplain] at h
  | some plain =>
      rw [hplain] at h
      cases hnonce : disk.random with
      | none => simp [hnonce] at h
      | some nonce =>
          rw [hnonce] at h
          refine ⟨by_contra fun hlength => hopen (Or.inl hlength), nonce.toList, ?_⟩
          unfold serializeDatabase at hplain
          dsimp only at hplain
          split_ifs at hplain
          cases hrecords : appendRecords storage.fingerprints.all with
          | error e => simp [hrecords] at hplain
          | ok bytes =>
              rw [hrecords] at hplain
              dsimp only at hplain
              split_ifs at hplain
              exact ⟨_, Option.some.inj hplain ▸ commitFile_eq h⟩

/-- The records are sound, and the storage has the hardware id they were loaded under. -/
structure Loading.ForReader (l : Loading) : Prop where
  sound : l.system.store.records.Sound
  unopened : l.loadedFor = none → l.system.storage.key = []
  hardwareId : ∀ id, l.loadedFor = some id → l.system.storage.hardwareId = id

theorem Loading.ForReader.start {l : Loading} (h : LoadStarted l) : l.ForReader := by
  obtain ⟨⟨handle, file, hs⟩, hloaded⟩ := h
  refine ⟨hs ▸ Records.empty_sound, fun _ => hs ▸ rfl, fun id hid => ?_⟩
  rw [hloaded] at hid
  cases hid

/-- A call of the storage keeps the records sound, and the key and the hardware id as they are. -/
theorem Store.call_kept (cipher : Cipher) (disk : Disk) {store : Store}
    (hsound : store.records.Sound) (call : StorageCall) :
    (store.call cipher disk call).store.records.Sound ∧
      (store.call cipher disk call).store.storage.key = store.storage.key ∧
        (store.call cipher disk call).store.storage.hardwareId = store.storage.hardwareId := by
  have hflags := store.call_storage cipher disk call
  refine ⟨?_, by rw [hflags], by rw [hflags]⟩
  rcases Store.call_cases cipher disk hsound call with ⟨-, hstore, -⟩ | ⟨-, -, hupdates, -⟩
  · rw [hstore]
    exact hsound
  · exact hupdates.sound hsound

theorem Store.init_loaded {cipher : Cipher} {filename : Name} {key : List UInt8}
    {file : Option (List UInt8)} {before after : Store}
    (h : before.init cipher filename key file = .ok after) :
    after.records.Sound ∧ after.storage.hardwareId = before.storage.hardwareId := by
  refine ⟨(Store.Reachable.opened h).sound.1, ?_⟩
  unfold Store.init at h
  by_cases hlength : key.length ≠ 32
  · rw [if_pos hlength] at h
    cases h
  rw [if_neg hlength] at h
  dsimp only at h
  split at h
  · cases h
  · exact Except.ok.inj h ▸ rfl

/-- **Records stay with the reader they were loaded for**, as long as no other one is named. -/
theorem Loading.ForReader.step {l l' : Loading} {action : Action} (h : l.ForReader)
    (hok : SameReader l action) (hstep : loadStep env l action = some l') : l'.ForReader := by
  obtain ⟨s', hs', rfl⟩ := Option.map_eq_some_iff.1 hstep
  have hkept : s'.store.records.Sound → s'.storage.key = l.system.storage.key →
      s'.storage.hardwareId = l.system.storage.hardwareId → Loading.ForReader ⟨s',
        if l.system.takes action = some .tlsReady then some l.system.storage.hardwareId
        else l.loadedFor⟩ := by
    intro hsound hkey hid
    refine ⟨hsound, fun hnone => ?_, fun id hloaded => ?_⟩
    · split_ifs at hnone
      exact hkey.trans (h.unopened hnone)
    · split_ifs at hloaded
      · exact hid.trans (Option.some.inj hloaded)
      · exact hid.trans (h.hardwareId id hloaded)
  rcases step_store hs' with hused | ⟨store, htaken, hinit, hkeeps⟩ |
    ⟨result, origin, htaken, hkeeps⟩
  · rcases hused with hkeeps | ⟨disk, call, hcall⟩
    · refine hkept ?_ hkeeps.key hkeeps.hardwareId
      rw [Store.records, hkeeps.fingerprints]
      exact h.sound
    · obtain ⟨hsound, hkey, hid⟩ := Store.call_kept env.cipher disk h.sound call
      rw [← hcall] at hsound hkey hid
      exact hkept hsound hkey hid
  · obtain ⟨hsound, hid⟩ := Store.init_loaded hinit
    refine ⟨?_, fun hnone => ?_, fun id hloaded => ?_⟩
    · show s'.store.records.Sound
      rw [Store.records, hkeeps.fingerprints]
      exact hsound
    · rw [if_pos htaken] at hnone
      cases hnone
    · rw [if_pos htaken] at hloaded
      exact (hkeeps.hardwareId.trans hid).trans (Option.some.inj hloaded)
  · have hother : l.system.takes action ≠ some .tlsReady := by
      rw [htaken]
      simp only [ne_eq, Option.some.injEq, reduceCtorEq, not_false_eq_true]
    refine ⟨?_, fun hnone => ?_, fun id hloaded => ?_⟩
    · show s'.store.records.Sound
      rw [Store.records, hkeeps.fingerprints]
      exact h.sound
    · rw [if_neg hother] at hnone
      exact hkeeps.key.trans (h.unopened hnone)
    · rw [if_neg hother] at hloaded
      have hsame : (l.loadedFor.any fun id => result.hardwareId != id) = false := by
        rw [SameReader, Loading.namesOther, htaken] at hok
        exact hok
      rw [hloaded, Option.any_some, bne_eq_false_iff_eq] at hsame
      exact hkeeps.hardwareId.trans hsame

/-- A save from such a state is for the reader. -/
theorem Loading.ForReader.saves {l : Loading} (h : l.ForReader) (s' : System) :
    SavesForReader env l s' := by
  intro disk call ⟨hsaved, hstore⟩
  have hsound := (Store.call_kept env.cipher disk h.sound call).1
  have hflags := l.system.store.call_storage env.cipher disk call
  rcases Store.call_cases env.cipher disk h.sound call with ⟨hnot, -⟩ | ⟨-, -, -, hcommitted⟩
  · rw [hnot] at hsaved
    cases hsaved
  rw [← hstore] at hsound hflags hcommitted
  obtain ⟨file, hfile⟩ := Option.isSome_iff_exists.1 hcommitted.saved
  have hsave : saveDatabase env.cipher disk s'.storage = some file := hcommitted.file.trans hfile
  obtain ⟨hlength, hfor⟩ := saveDatabase_for hsave
  have hkey : s'.store.storage.key = l.system.storage.key := by rw [hflags]
  have hid : s'.store.storage.hardwareId = l.system.storage.hardwareId := by rw [hflags]
  cases hloaded : l.loadedFor with
  | none =>
      rw [hkey, h.unopened hloaded] at hlength
      cases hlength
  | some id =>
      have hsame := hid.trans (h.hardwareId id hloaded)
      rw [hsame] at hfor
      have hload := loadDatabase_saveDatabase hsound hsave
      rw [hsame] at hload
      exact ⟨id, file, rfl, hfile, hfor, hload⟩

/-- The file changes by opening the database and by saves. -/
theorem step_saved {l : Loading} (h : l.ForReader) {action : Action} {s' : System}
    (hstep : step env l.system action = some s') (hfile : s'.store.file ≠ l.system.store.file) :
    l.system.takes action = some .tlsReady ∨ ∃ disk call, SavedBy env l.system s' disk call := by
  rcases step_store hstep with hused | ⟨store, htaken, -, -⟩ | ⟨result, origin, -, hkeeps⟩
  · rcases hused with hkeeps | ⟨disk, call, hcall⟩
    · exact absurd hkeeps.file hfile
    · refine Or.inr ⟨disk, call, ?_, hcall⟩
      rcases Store.call_cases env.cipher disk h.sound call with ⟨-, hstore, -⟩ | ⟨hsaved, -⟩
      · rw [hcall, hstore] at hfile
        exact absurd rfl hfile
      · exact hsaved
  · exact Or.inl htaken
  · exact absurd hkeeps.file hfile

/-- **Every save is for the reader the records were loaded for**, in every run in which no readable
answer to the initialization names another one once records are loaded. -/
theorem saves_for_reader {l : Loading}
    (h : Transition.Reaches (loadStep env) SameReader LoadStarted l) :
    ∀ action l', loadStep env l action = some l' →
      SavesForReader env l l'.system ∧
        (l'.system.store.file ≠ l.system.store.file →
          l.system.takes action = some .tlsReady ∨
            ∃ disk call, SavedBy env l.system l'.system disk call) := by
  have hinv : l.ForReader := Transition.Reaches.invariant (fun _ => Loading.ForReader.start)
    (fun _ hinv hok hs => hinv.step hok hs) h
  intro action l' hstep
  obtain ⟨s', hs', rfl⟩ := Option.map_eq_some_iff.1 hstep
  exact ⟨hinv.saves s', step_saved hinv hs'⟩

/-! ### A reader that is rejected -/

/-- The daemon before its first turn, with a reader that was opened and no database. -/
def homeLoading : Loading := ⟨.start true none, none⟩

theorem homeLoading_started : LoadStarted homeLoading := ⟨⟨true, none, rfl⟩, rfl⟩

/-- The records of an account are deleted, up to the turn that does it. -/
def deleteRequested : List Action :=
  [.call ⟨ascii ":1.9", 1, .deleteEnrolledFingers, some (ascii "anna")⟩,
    smoothDevice, .gate 0 .error, .gate 0 (.methodReturn (some true)), smoothDevice]

/-- Deleting records saves them for the reader they were loaded for. -/
theorem saves_for_reader_delete :
    ∃ l l', Transition.run (loadStep homeEnvironment) homeLoading
        (bootActions ++ deleteRequested) = some l ∧
      loadStep homeEnvironment l smoothDevice = some l' ∧
        l'.system.store.file ≠ l.system.store.file ∧
          SavesForReader homeEnvironment l l'.system := by
  obtain ⟨l, l', hrun, hchecked, hstep, hfile⟩ : ∃ l l',
      Transition.run (loadStep homeEnvironment) homeLoading
        (bootActions ++ deleteRequested) = some l ∧
      Transition.checkedRun (loadStep homeEnvironment) SameReader homeLoading
        (bootActions ++ deleteRequested) = some l ∧
      loadStep homeEnvironment l smoothDevice = some l' ∧
        l'.system.store.file ≠ l.system.store.file := ⟨_, _, rfl, rfl, rfl, nofun⟩
  exact ⟨l, l', hrun, hstep, hfile,
    (saves_for_reader (Transition.reaches_of_checkedRun (.start homeLoading_started) hchecked)
      smoothDevice l' hstep).1⟩

/-- A reader that names an unknown hardware id is rejected, and the records are deleted while the
daemon recovers. -/
def deleteRecovering : List Action :=
  bootActions ++ [.rawFrame (.initResult (some ⟨1, 0x0999, 112, 88⟩)), smoothControl] ++
    deleteRequested

/-- What is saved then is for the rejected reader: the one whose records they were does not load
it. -/
theorem saves_for_reader_recovering :
    ¬∀ (env : Environment) (l : Loading), Transition.Reachable (loadStep env) LoadStarted l →
      ∀ action l', loadStep env l action = some l' → SavesForReader env l l'.system := by
  intro hclaim
  obtain ⟨l, l', file, hrun, hstep, hsaved, hloaded, hfile, hkey, hmismatch⟩ : ∃ l l' file,
      Transition.run (loadStep homeEnvironment) homeLoading deleteRecovering = some l ∧
      loadStep homeEnvironment l smoothDevice = some l' ∧
      SavedBy homeEnvironment l.system l'.system (Disk.sound (Vector.replicate 12 1))
        (.deleteAll (ascii "anna")) ∧
      l.loadedFor = some 0x0111 ∧ l'.system.store.file = some file ∧
      l'.system.storage.key = List.replicate 32 7 ∧
      loadDatabase plainCipher (List.replicate 32 7) 0x0111 (some file) =
        .error "native database profile mismatch" :=
    ⟨_, _, _, rfl, rfl, ⟨rfl, rfl⟩, rfl, rfl, rfl, rfl⟩
  obtain ⟨id, file', hid, hfile', -, hload⟩ := hclaim homeEnvironment l
    (Transition.reaches_of_run homeLoading_started hrun) smoothDevice l' hstep _ _ hsaved
  obtain rfl := Option.some.inj (hloaded.symm.trans hid)
  obtain rfl := Option.some.inj (hfile.symm.trans hfile')
  rw [hkey] at hload
  have hcontra := hmismatch.symm.trans hload
  cases hcontra

end Fpc
