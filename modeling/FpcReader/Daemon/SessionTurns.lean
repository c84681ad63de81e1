/-
**The claim, the operation and the queues.**

Of everything a turn of the device does, this module keeps what happens to the claim, to the
operations and their listener, and to the queues they share with the control task.  Most turns do
nothing of the kind.

Main definitions:

* `Fpc.SameSession` — a change of records, messages, authorizations and gates only;
* `Fpc.System.takeDown`, `Fpc.System.hangUp` — what a release and the end of a connection do;
* `Fpc.SessionTurn` — what a turn of the device does to the claim and to operations.

Main results:

* `Fpc.DeviceTurn.sessionTurn` — **a turn of the device makes one of these changes**;
* `Fpc.stepDevice_released`, `Fpc.stepDevice_hungUp` — what a turn that ends a claim leaves;
* `Fpc.step_session` — what a step does to the device.
-/

import FpcReader.Daemon.CallTurns

set_option relaxedAutoImplicit false
set_option autoImplicit false

namespace Fpc

open Bytes

/-! ### Changes that leave the session alone -/

/-- Only records, messages, authorizations and gates have changed, and the place the device waits
at. -/
structure SameSession (s s' : System) : Prop where
  storage : s.storage.SameFlags s'.storage
  eventQueue : s'.eventQueue = s.eventQueue
  imageQueue : s'.imageQueue = s.imageQueue
  device : s'.device = { s.device with
    pc := s'.device.pc, messages := s'.device.messages, authGates := s'.device.authGates }
  listens : s'.listens = s.listens
  operations : s'.operations = s.operations
  control : s'.control = s.control
  outstanding : s'.outstanding = s.outstanding
  nextTask : s.nextTask ≤ s'.nextTask
  accepted : ∀ operation generation requested,
    .accepted operation generation requested ∈ s'.log → .accepted operation generation requested ∈
      s.log

/-- What a release takes down, apart from authorizations. -/
def System.takeDown (s : System) : System :=
  (cancelEnrollVerify (resumeNameOwnerChanged s)).unclaim

/-- What the end of a connection takes down, apart from authorizations. -/
def System.hangUp (s : System) : System :=
  (if s.device.enrollVerifyTask = none then s
    else { cancelEnrollVerify s with imageQueue := [] }).unclaim.putEvent .stopSensor

section Same

variable {s s' t u : System}

theorem SameSession.refl (s : System) : SameSession s s :=
  ⟨rfl, rfl, rfl, rfl, rfl, rfl, rfl, rfl, le_rfl, fun _ _ _ => id⟩

theorem SameSession.trans (h : SameSession s t) (h' : SameSession t u) : SameSession s u where
  storage := h.storage.trans h'.storage
  eventQueue := h'.eventQueue.trans h.eventQueue
  imageQueue := h'.imageQueue.trans h.imageQueue
  device := by rw [h'.device, h.device]
  listens := h'.listens.trans h.listens
  operations := h'.operations.trans h.operations
  control := h'.control.trans h.control
  outstanding := h'.outstanding.trans h.outstanding
  nextTask := h.nextTask.trans h'.nextTask
  accepted operation generation requested hmem :=
    h.accepted operation generation requested (h'.accepted operation generation requested hmem)

theorem Quiet.session (h : Quiet s s') : SameSession s s' where
  storage := h.storage
  eventQueue := h.eventQueue
  imageQueue := h.imageQueue
  device := by rw [h.device]
  listens := h.listens
  operations := h.operations
  control := h.control
  outstanding := h.outstanding
  nextTask := h.nextTask.ge
  accepted _ _ _ := (h.mem_log id).1

/-- An entry that is no accepted image can be added to the log. -/
theorem record_session (s : System) {entry : LogEntry}
    (hentry : ∀ operation generation requested,
      entry ≠ .accepted operation generation requested) : SameSession s (s.record entry) :=
  ⟨rfl, rfl, rfl, rfl, rfl, rfl, rfl, rfl, le_rfl, fun operation generation requested hmem =>
    (List.mem_cons.1 hmem).resolve_left fun heq => hentry operation generation requested heq.symm⟩

theorem access_session (s : System) (user : Name) (client : Client) :
    SameSession s (s.access user client) :=
  record_session s nofun

theorem reach_session (s : System) (call : Call) : SameSession s (s.reach call) :=
  record_session s nofun

theorem reachGated_session (s : System) (call : Call) : SameSession s (s.reachGated call) := by
  unfold System.reachGated
  split
  · exact reach_session s call
  · exact .refl s

theorem popMessage_session (s : System) (rest : List Message) : SameSession s (s.popMessage rest) :=
  ⟨rfl, rfl, rfl, rfl, rfl, rfl, rfl, rfl, le_rfl, fun _ _ _ => id⟩

theorem eraseGate_session (s : System) (key : Key) : SameSession s (eraseGate s key) :=
  ⟨rfl, rfl, rfl, rfl, rfl, rfl, rfl, rfl, le_rfl, fun _ _ _ => id⟩

theorem Admitted.session {call : Call} (ht : Admitted s call t) : SameSession s t := by
  cases ht with
  | free _ _ => exact popMessage_session s _
  | authorized _ _ _ _ => exact (popMessage_session s _).trans (eraseGate_session _ _)

theorem dropAuthGates_session (s : System) (sender : Client) :
    SameSession s (dropAuthGates s sender) :=
  ⟨rfl, rfl, rfl, rfl, rfl, rfl, rfl, rfl, le_rfl, fun _ _ _ => (mem_dropAuthGates_log id).1⟩

/-! ### Doing the same to both states -/

theorem SameSession.storage_eq (h : SameSession s t) :
    ∃ fingerprints, t.storage = { s.storage with fingerprints := fingerprints } :=
  ⟨_, h.storage⟩

theorem SameSession.device_eq (h : SameSession s t) :
    ∃ pc messages authGates, t.device = { s.device with
      pc := pc, messages := messages, authGates := authGates } :=
  ⟨_, _, _, h.device⟩

theorem SameSession.unclaim (h : SameSession s t) : SameSession s.unclaim t.unclaim :=
  { h with
    device := by
      obtain ⟨pc, messages, authGates, hdevice⟩ := h.device_eq
      simp only [System.unclaim]
      rw [hdevice] }

theorem SameSession.putEvent (h : SameSession s t) (event : FPCEvent) :
    SameSession (s.putEvent event) (t.putEvent event) :=
  { h with eventQueue := by simp only [System.putEvent]; rw [h.eventQueue] }

theorem SameSession.resumeNameOwnerChanged (h : SameSession s t) :
    SameSession (resumeNameOwnerChanged s) (resumeNameOwnerChanged t) := by
  obtain ⟨pc, messages, authGates, hdevice⟩ := h.device_eq
  unfold Fpc.resumeNameOwnerChanged
  rw [show t.device.nameOwnerChangedTask = s.device.nameOwnerChangedTask by rw [hdevice]]
  cases s.device.nameOwnerChangedTask with
  | none => exact h
  | some id =>
      exact { h with
        device := by
          simp only [System.resumeListen]
          rw [hdevice]
        listens := by
          simp only [System.resumeListen]
          rw [h.listens] }

theorem SameSession.finalizeOperation (h : SameSession s t) (op : EnrollVerify) :
    SameSession (s.finalizeOperation op) (t.finalizeOperation op) := by
  obtain ⟨fingerprints, hstorage⟩ := h.storage_eq
  exact { h with
    storage := by
      show FingerprintStorage.SameFlags
        { s.storage with captureGeneration := _, operationActive := _ }
        { t.storage with captureGeneration := _, operationActive := _ }
      rw [hstorage]
      rfl
    operations := by
      show t.operations.filter _ = s.operations.filter _
      rw [h.operations] }

theorem SameSession.cancelEnrollVerify (h : SameSession s t) :
    SameSession (cancelEnrollVerify s) (cancelEnrollVerify t) := by
  obtain ⟨pc, messages, authGates, hdevice⟩ := h.device_eq
  unfold Fpc.cancelEnrollVerify
  rw [show t.device.enrollVerifyTask = s.device.enrollVerifyTask by rw [hdevice]]
  cases s.device.enrollVerifyTask with
  | none => exact h
  | some id =>
      have hcancelled : SameSession (s.cancelOperation id) (t.cancelOperation id) := by
        unfold System.cancelOperation
        rw [h.operations]
        split
        · exact h
        · exact h.finalizeOperation _
      obtain ⟨pc, messages, authGates, hdevice⟩ := hcancelled.device_eq
      exact { hcancelled with
        device := by
          dsimp only
          rw [hdevice] }

theorem SameSession.takeDown (h : SameSession s t) : SameSession s.takeDown t.takeDown :=
  h.resumeNameOwnerChanged.cancelEnrollVerify.unclaim

theorem SameSession.hangUp (h : SameSession s t) : SameSession s.hangUp t.hangUp := by
  refine (SameSession.unclaim ?_).putEvent _
  rw [show t.device.enrollVerifyTask = s.device.enrollVerifyTask by rw [h.device]]
  split
  · exact h
  · exact { h.cancelEnrollVerify with imageQueue := rfl }

theorem SameSession.startOperation (h : SameSession s t) (hnext : t.nextTask = s.nextTask)
    (call : Call) (name : Name) (isVerify : Bool) :
    SameSession (startOperation s call name isVerify) (startOperation t call name isVerify) := by
  obtain ⟨fingerprints, hstorage⟩ := h.storage_eq
  obtain ⟨pc, messages, authGates, hdevice⟩ := h.device_eq
  exact { h with
    storage := by
      show { t.storage with
        captureGeneration := t.storage.captureGeneration + 1, operationActive := true } =
          { s.storage with
            captureGeneration := s.storage.captureGeneration + 1, operationActive := true
            fingerprints := t.storage.fingerprints }
      rw [hstorage]
    device := by
      show { t.device with enrollVerifyTask := some t.nextTask } =
        { s.device with
          enrollVerifyTask := some s.nextTask
          pc := t.device.pc
          messages := t.device.messages
          authGates := t.device.authGates }
      rw [hdevice, hnext]
    operations := by
      show t.operations ++ [⟨t.nextTask, t.storage.captureGeneration + 1, t.device.claimedUser,
        name, isVerify, call.sender, .enroll⟩] = s.operations ++ [⟨s.nextTask,
          s.storage.captureGeneration + 1, s.device.claimedUser, name, isVerify, call.sender,
          .enroll⟩]
      rw [h.operations, hnext, hstorage, hdevice]
    nextTask := by
      show s.nextTask + 1 ≤ t.nextTask + 1
      rw [hnext] }

end Same

/-! ### Turns of the device -/

/-- What a turn of the device does to the claim and to operations. -/
inductive SessionTurn (s s' : System) : Prop
  | same : SameSession s s' → SessionTurn s s'
  | claimed {call : Call} {user : Name} : s.device.pc = .checkUid call →
      s.device.claimed = false → SameSession (s.claimBy call user) s' → SessionTurn s s'
  | stopLeft : s.device.pc = .sending .sendEnrollStop → SameSession s.leaveStop s' →
      SessionTurn s s'
  | started {call : Call} {name : Name} {isVerify : Bool} : s.device.pc = .run →
      s.device.claimed = true → s.device.claimedSender = call.sender →
        s.device.enrollVerifyTask = none →
          SameSession (startOperation s call name isVerify) s' → SessionTurn s s'
  | released {client : Client} : Releases s client → SameSession s.takeDown s' →
      SessionTurn s s'
  | disconnected {client : Client} : Disconnects s client → SameSession s.hangUp s' →
      SessionTurn s s'

/-- **A turn of the device makes one of these changes.** -/
theorem DeviceTurn.sessionTurn {env : Environment} {s s' : System} (hturn : DeviceTurn env s s') :
    SessionTurn s s' := by
  cases hturn with
  | sent _ ha | unchecked _ ha | unnamed _ _ ha => exact .same ha.toQuiet.session
  | stopSent hpc ha => exact .stopLeft hpc ha.toQuiet.session
  | skipped _ _ ha => exact .same ((popMessage_session s _).trans ha.toQuiet.session)
  | dropped _ _ _ _ ha =>
      exact .same ((popMessage_session s _).trans
        ((eraseGate_session _ _).trans ha.toQuiet.session))
  | gateCreated _ _ _ _ =>
      exact .same ⟨rfl, rfl, rfl, rfl, rfl, rfl, rfl, rfl, Nat.le_succ _, fun _ _ _ => id⟩
  | asked _ ht _ =>
      refine .same (ht.session.trans ?_)
      exact ⟨rfl, rfl, rfl, rfl, rfl, rfl, rfl, rfl, le_rfl, fun _ _ _ => id⟩
  | rejected _ ht ha => exact .same (ht.session.trans ha.toQuiet.session)
  | listed _ _ ha => exact .same ((access_session s _ _).trans ha.toQuiet.session)
  | deletedAll _ _ _ ha =>
      exact .same ((reach_session s _).trans ((access_session _ _ _).trans ha.toQuiet.session))
  | claimed hpc _ hfree ha => exact .claimed hpc hfree ha.toQuiet.session
  | @served call t _ _ ht _ _ _ ha =>
      have hreach := ht.session.trans (reachGated_session t call)
      rcases ha with ha | ha
      · exact .same (hreach.trans ha.toQuiet.session)
      · exact .same (hreach.trans ((access_session _ _ _).trans ha.toQuiet.session))
  | @started call t _ name isVerify hpc ht hclaimed hsender _ hnone ha =>
      have hreach := ht.session.trans ((reachGated_session t call).trans
        (access_session _ s.device.claimedUser call.sender))
      have hnext : ((t.reachGated call).access s.device.claimedUser call.sender).nextTask =
          s.nextTask := (reachGated_nextTask t call).trans (by rw [ht.eq])
      exact .started hpc hclaimed hsender hnone
        ((hreach.startOperation hnext call name isVerify).trans ha.toQuiet.session)
  | @released call t _ hpc ht hclaimed hsender hmethod ha =>
      have hnextCall : s.nextCall = some call := by
        cases ht with
        | free hmsg _ => exact nextCall_eq_some.2 ⟨_, hmsg⟩
        | authorized hmsg _ _ _ => exact nextCall_eq_some.2 ⟨_, hmsg⟩
      refine .released ⟨hpc, hclaimed, hsender, call, hnextCall, hmethod, rfl⟩
        (ht.session.takeDown.trans (SameSession.trans ?_ ha.toQuiet.session))
      exact (dropAuthGates_session _ call.sender).unclaim.trans (.refl _)
  | @disconnected name old more rest _ hpc hmsg ha =>
      have hends : Disconnects s old :=
        ⟨hpc, _, by rw [hmsg]; rfl, Message.tellsEnd_iff.2 ⟨name, more, rfl⟩⟩
      refine .disconnected hends
        ((popMessage_session s rest).hangUp.trans (SameSession.trans ?_ ha.toQuiet.session))
      exact ((dropAuthGates_session _ old).unclaim.putEvent _).trans (.refl _)

/-! ### Ends of a claim -/

section TakeDown

variable (s : System)

theorem cancelOperation_fields (id : ℕ) :
    (s.cancelOperation id).listens = s.listens ∧
      ∀ op ∈ (s.cancelOperation id).operations, op.id ≠ id := by
  unfold System.cancelOperation
  split
  · rename_i hnone
    exact ⟨rfl, fun op hmem => by simpa using List.find?_eq_none.1 hnone op hmem⟩
  · rename_i found hfind
    have hid : found.id = id := by simpa using List.find?_some hfind
    refine ⟨rfl, fun op hmem => ?_⟩
    have hkept := (List.mem_filter.1 hmem).2
    rw [hid] at hkept
    simpa using hkept

/-- The operation is cancelled and forgotten. -/
theorem cancelEnrollVerify_fields :
    (cancelEnrollVerify s).listens = s.listens ∧
      (cancelEnrollVerify s).device.enrollVerifyTask = none ∧
        ∀ op ∈ (cancelEnrollVerify s).operations, s.device.enrollVerifyTask ≠ some op.id := by
  unfold cancelEnrollVerify
  cases htask : s.device.enrollVerifyTask with
  | none => exact ⟨rfl, htask, nofun⟩
  | some id =>
      obtain ⟨hlistens, hgone⟩ := cancelOperation_fields s id
      refine ⟨hlistens, rfl, fun op hmem heq => hgone op hmem ?_⟩
      exact (Option.some.inj heq).symm

theorem takeDown_task : s.takeDown.device.enrollVerifyTask = none :=
  (cancelEnrollVerify_fields _).2.1

theorem hangUp_task : s.hangUp.device.enrollVerifyTask = none := by
  unfold System.hangUp
  split
  · assumption
  · exact (cancelEnrollVerify_fields s).2.1

/-- A release leaves the queues, the reader and the log alone. -/
theorem takeDown_eq : s.takeDown = { s with
    store := s.takeDown.store
    device := s.takeDown.device
    listens := s.takeDown.listens
    operations := s.takeDown.operations } := by
  unfold System.takeDown System.unclaim cancelEnrollVerify System.cancelOperation
    resumeNameOwnerChanged
  repeat' split
  all_goals rfl

/-- The end of a connection leaves the listeners, the reader and the log alone. -/
theorem hangUp_eq : s.hangUp = { s with
    store := s.hangUp.store
    device := s.hangUp.device
    operations := s.hangUp.operations
    imageQueue := if s.device.enrollVerifyTask = none then s.imageQueue else []
    eventQueue := s.eventQueue ++ [.stopSensor] } := by
  unfold System.hangUp cancelEnrollVerify System.cancelOperation
  repeat' split
  all_goals rfl

end TakeDown

section Ends

variable {env : Environment} {s s' : System} {client : Client} {input : DeviceInput}

/-- What a release by the claimer leaves. -/
theorem stepDevice_released (hreleases : Releases s client)
    (hstep : stepDevice env s input = some s') : SameSession s.takeDown s' := by
  obtain ⟨call, rest, -, ha⟩ := stepDevice_releases hreleases hstep
  refine (popMessage_session s rest).takeDown.trans (SameSession.trans ?_ ha.toQuiet.session)
  exact (dropAuthGates_session _ client).unclaim

/-- What the end of a connection leaves. -/
theorem stepDevice_hungUp (hends : Disconnects s client)
    (hstep : stepDevice env s input = some s') : SameSession s.hangUp s' := by
  obtain ⟨message, rest, -, ha⟩ := stepDevice_disconnects hends hstep
  refine (popMessage_session s rest).hangUp.trans (SameSession.trans ?_ ha.toQuiet.session)
  exact (dropAuthGates_session _ client).unclaim.putEvent _

/-- A release is no signal. -/
theorem Releases.not_disconnects {other : Client} (hreleases : Releases s client) :
    ¬Disconnects s other := by
  obtain ⟨-, -, -, call, hcall, -, -⟩ := hreleases
  rintro ⟨-, message, hhead, htells⟩
  obtain ⟨rest, hmsg⟩ := nextCall_eq_some.1 hcall
  rw [hmsg] at hhead
  obtain rfl := Option.some.inj hhead
  simp [Message.tellsEnd] at htells

/-- Only one client can have disconnected. -/
theorem Disconnects.eq {other : Client} (h : Disconnects s client) (h' : Disconnects s other) :
    client = other := by
  obtain ⟨-, message, hhead, htells⟩ := h
  obtain ⟨-, message', hhead', htells'⟩ := h'
  obtain rfl : message = message' := Option.some.inj (hhead.symm.trans hhead')
  obtain ⟨name, more, rfl⟩ := Message.tellsEnd_iff.1 htells
  obtain ⟨name', more', heq⟩ := Message.tellsEnd_iff.1 htells'
  have hargs := Message.nameOwnerChanged.inj heq
  simp only [List.cons.injEq] at hargs
  exact hargs.2.1

/-- Whose claim or connection the next turn of the device can end. -/
def System.enders (s : System) : List Client :=
  s.device.claimedSender :: match s.device.messages.head? with
    | some (.nameOwnerChanged args) => args
    | _ => []

theorem Disconnects.mem_enders (h : Disconnects s client) : client ∈ s.enders := by
  obtain ⟨-, message, hhead, htells⟩ := h
  obtain ⟨name, more, rfl⟩ := Message.tellsEnd_iff.1 htells
  refine List.mem_cons_of_mem _ ?_
  rw [Option.mem_def.1 hhead]
  simp

end Ends

/-! ### Queues -/

section Queues

variable {s s' : System}

/-- The device hands over no images. -/
theorem SessionTurn.imageQueue (hturn : SessionTurn s s') :
    s'.imageQueue = s.imageQueue ∨ s'.imageQueue = [] ∨
      s'.imageQueue = s.imageQueue ++ [.enrollVerifyStop] := by
  cases hturn with
  | same hs | claimed _ _ hs | started _ _ _ _ hs => exact Or.inl hs.imageQueue
  | stopLeft _ hs => exact Or.inr (Or.inr hs.imageQueue)
  | released _ hs => exact Or.inl (hs.imageQueue.trans (by rw [takeDown_eq]))
  | disconnected _ hs =>
      rw [hs.imageQueue, hangUp_eq]
      dsimp only
      split
      · exact Or.inl rfl
      · exact Or.inr (Or.inl rfl)

/-- The device leaves the reader alone, and accepts no images. -/
theorem SessionTurn.events (hturn : SessionTurn s s') :
    (s'.eventQueue = s.eventQueue ∨ s'.eventQueue = s.eventQueue ++ [.stopSensor]) ∧
      s'.control = s.control ∧ s'.outstanding = s.outstanding ∧
        ∀ operation generation requested, .accepted operation generation requested ∈ s'.log →
          .accepted operation generation requested ∈ s.log := by
  cases hturn with
  | same hs | claimed _ _ hs | started _ _ _ _ hs | stopLeft _ hs =>
      exact ⟨Or.inl hs.eventQueue, hs.control, hs.outstanding, hs.accepted⟩
  | released _ hs =>
      have haccepted := hs.accepted
      rw [takeDown_eq] at haccepted
      exact ⟨Or.inl (hs.eventQueue.trans (by rw [takeDown_eq])),
        hs.control.trans (by rw [takeDown_eq]), hs.outstanding.trans (by rw [takeDown_eq]),
        haccepted⟩
  | disconnected _ hs =>
      have haccepted := hs.accepted
      rw [hangUp_eq] at haccepted
      exact ⟨Or.inr (hs.eventQueue.trans (by rw [hangUp_eq])),
        hs.control.trans (by rw [hangUp_eq]), hs.outstanding.trans (by rw [hangUp_eq]),
        haccepted⟩

end Queues

/-! ### Steps -/

/-- A step is a turn of the device, or at most its authorizations change and its queue gets longer,
or the device is gone or new. -/
theorem step_session {env : Environment} {s s' : System} {action : Action}
    (hstep : step env s action = some s') :
    (∃ input, action = .device input ∧ s.device.alive = true ∧
      stepDevice env s input = some s') ∨
      (s'.device = { s.device with
        messages := s'.device.messages, authGates := s'.device.authGates } ∧
          ∃ more, s'.device.messages = s.device.messages ++ more) ∨
      s'.device = .initial ∨
      (s.device.alive = false ∧ s'.device = { Device.initial with alive := true }) := by
  cases step_turn hstep with
  | arrived _ _ | forwarded _ _ _ => exact Or.inr (Or.inl ⟨rfl, _, rfl⟩)
  | @device input _ _ _ =>
      exact Or.inl ⟨input, rfl, step_device hstep⟩
  | @gate id reply gate _ _ =>
      refine Or.inr (Or.inl ?_)
      unfold stepGate checkDone
      repeat' split
      all_goals first
        | exact ⟨rfl, [], (List.append_nil _).symm⟩
        | exact ⟨rfl, _, rfl⟩
  | listen _ hturn =>
      rw [stepListen_fields hturn]
      exact Or.inr (Or.inl ⟨rfl, [], (List.append_nil _).symm⟩)
  | operation _ hturn =>
      rw [hturn.calls.1]
      exact Or.inr (Or.inl ⟨rfl, [], (List.append_nil _).symm⟩)
  | control _ hturn =>
      rcases hturn.calls with hsame | ⟨u, hsame, rfl⟩ | ⟨hdead, hdevice, -⟩
      · rw [hsame.device]
        exact Or.inr (Or.inl ⟨rfl, [], (List.append_nil _).symm⟩)
      · rw [finishControl_device u, hsame.device]
        split
        · exact Or.inr (Or.inr (Or.inl rfl))
        · exact Or.inr (Or.inl ⟨rfl, [], (List.append_nil _).symm⟩)
      · exact Or.inr (Or.inr (Or.inr ⟨hdead, hdevice⟩))
  | _ => exact Or.inr (Or.inl ⟨rfl, [], (List.append_nil _).symm⟩)

/-! ### An operation that waits for a finger -/

/-- A client verifies a finger, and the sensor is armed. -/
def verifyArmed : List Action :=
  bootActions ++ callActions ":1.1" 1 .claim (some "") ++
    callActions ":1.1" 2 .verifyStart (some "any") ++
      [.operation 1 .unprepared (Disk.sound (Vector.replicate 12 1)),
        .operation 1 .unprepared (Disk.sound (Vector.replicate 12 1)), smoothControl,
        smoothControl]

end Fpc
