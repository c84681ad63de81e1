/-
**Recovering from suspend.**

A session that is suspended is closed, and the control task waits for an event.  The queue it waits
at has been emptied, so a signal that the system has woken up could be lost with it; but the flag
that tells the task to wait is read after that, and a later signal finds the queue in place.

Main definitions:

* `Fpc.ControlPc.recovers` — the control task has still to close the session;
* `Fpc.System.Rests` — a suspended session is closed, and the signal that ends the sleep not lost;
* `Fpc.Waking` — what holds of the control task wherever it stands.

Main results:

* `Fpc.stepControl_waking` — every turn of the control task keeps this;
* `Fpc.waking_of_reachable` — **a suspended session is closed and will be woken up**, in every run.
-/

import FpcReader.Daemon.SessionTurns

set_option relaxedAutoImplicit false
set_option autoImplicit false

namespace Fpc

variable {env : Environment} {s s' t u : System}

/-! ### Where the control task stands -/

/-- The control task is about to close the session, or has ended. -/
def ControlPc.recovers (pc : ControlPc) : Prop :=
  pc = .finished ∨ pc.next = some .yieldRecovery ∨ pc.next = some .resumeRecovery

/-- The reader is being opened. -/
def ControlPc.opening (pc : ControlPc) : Prop :=
  pc.next = some .init ∨ pc.next = some .getState ∨ pc.next = some .parseState ∨
    pc.next = some .spawn

/-- The reader is to be opened again. -/
def ControlPc.reopening (pc : ControlPc) : Prop :=
  pc.next = some .reopen ∨ pc.next = some .scheduleRecovery

/-- There is no session, and no handle. -/
def System.TornDown (s : System) : Prop := s.control.handle = false ∧ s.control.session = .closed

/-- A suspended session is closed, and the system sleeps or has told that it woke up. -/
def System.Rests (s : System) : Prop :=
  s.control.suspended = true →
    s.TornDown ∧ (s.storage.sleeping = true ∨ .resume ∈ s.eventQueue)

/-- A suspended session will be woken up, and the reader is opened only when there is no session. -/
structure Waking (s : System) : Prop where
  rests : ¬s.control.pc.recovers → s.Rests
  reopening : s.control.pc.reopening → s.TornDown ∧ s.control.suspended = false
  opening : s.control.pc.opening → s.control.session = .closed ∧ s.control.suspended = false

/-- The reader is neither opened nor recovered while the control task waits for an event. -/
theorem getEvent_idle : ¬ControlPc.getEvent.recovers ∧ ¬ControlPc.getEvent.reopening ∧
    ¬ControlPc.getEvent.opening := by
  simp [ControlPc.recovers, ControlPc.reopening, ControlPc.opening, ControlPc.next]

theorem sleep_reopen_not_opening : ¬(ControlPc.sleep .reopen).opening := by
  simp [ControlPc.opening, ControlPc.next]

theorem Waking.rests_getEvent (h : Waking s) (hpc : s.control.pc = .getEvent) : s.Rests :=
  h.rests (hpc ▸ getEvent_idle.1)

/-- A session that is not suspended has only to be opened the right way. -/
theorem Waking.of_awake (hawake : s.control.suspended = false)
    (hreopening : s.control.pc.reopening → s.TornDown)
    (hopening : s.control.pc.opening → s.control.session = .closed) : Waking s where
  rests _ hsuspended := by
    rw [hawake] at hsuspended
    cases hsuspended
  reopening hpc := ⟨hreopening hpc, hawake⟩
  opening hpc := ⟨hopening hpc, hawake⟩

/-! ### What other tasks do -/

/-- The control task stands where it stood, events may have been added, and the system sleeps as
before. -/
structure Beside (s s' : System) : Prop where
  pc : s'.control.pc = s.control.pc
  suspended : s'.control.suspended = s.control.suspended
  handle : s'.control.handle = s.control.handle
  session : s.control.session = .closed → s'.control.session = .closed
  sleeping : s'.storage.sleeping = s.storage.sleeping
  events : ∀ event ∈ s.eventQueue, event ∈ s'.eventQueue

theorem Waking.beside (h : Waking s) (hb : Beside s s') : Waking s' where
  rests hpc hsuspended := by
    rw [hb.pc] at hpc
    rw [hb.suspended] at hsuspended
    obtain ⟨⟨hhandle, hsession⟩, hwoken⟩ := h.rests hpc hsuspended
    rw [hb.sleeping]
    exact ⟨⟨hb.handle.trans hhandle, hb.session hsession⟩, hwoken.imp_right (hb.events _)⟩
  reopening hpc := by
    rw [hb.pc] at hpc
    obtain ⟨⟨hhandle, hsession⟩, hsuspended⟩ := h.reopening hpc
    exact ⟨⟨hb.handle.trans hhandle, hb.session hsession⟩, hb.suspended.trans hsuspended⟩
  opening hpc := by
    rw [hb.pc] at hpc
    obtain ⟨hsession, hsuspended⟩ := h.opening hpc
    exact ⟨hb.session hsession, hb.suspended.trans hsuspended⟩

theorem Beside.of_eq (hcontrol : s'.control = s.control)
    (hsleeping : s'.storage.sleeping = s.storage.sleeping) {more : List FPCEvent}
    (hevents : s'.eventQueue = s.eventQueue ++ more) : Beside s s' := by
  refine ⟨by rw [hcontrol], by rw [hcontrol], by rw [hcontrol], fun h => hcontrol ▸ h, hsleeping,
    fun event hmem => ?_⟩
  rw [hevents]
  exact List.mem_append_left _ hmem

theorem cancelEnrollVerify_sleeping (s : System) :
    (cancelEnrollVerify s).storage.sleeping = s.storage.sleeping := by
  unfold cancelEnrollVerify
  cases s.device.enrollVerifyTask with
  | none => rfl
  | some id =>
      show (s.cancelOperation id).storage.sleeping = _
      unfold System.cancelOperation
      cases s.operations.find? fun o => o.id = id <;> rfl

theorem SessionTurn.sleeping (hturn : SessionTurn s s') :
    s'.storage.sleeping = s.storage.sleeping := by
  have hflags : ∀ a b : System, a.storage.SameFlags b.storage →
      b.storage.sleeping = a.storage.sleeping := fun a b h => by rw [h]
  cases hturn with
  | same hs => exact hflags _ _ hs.storage
  | claimed _ _ hs => exact hflags _ _ hs.storage
  | stopLeft _ hs => exact hflags _ _ hs.storage
  | started _ _ _ _ hs => exact (hflags _ _ hs.storage).trans rfl
  | released _ hs =>
      refine (hflags _ _ hs.storage).trans ?_
      refine (cancelEnrollVerify_sleeping (resumeNameOwnerChanged s)).trans ?_
      unfold resumeNameOwnerChanged
      cases s.device.nameOwnerChangedTask <;> rfl
  | disconnected _ hs =>
      refine (hflags _ _ hs.storage).trans ?_
      unfold System.hangUp
      split_ifs
      · rfl
      · exact cancelEnrollVerify_sleeping s

/-- A turn of the device goes on beside the control task. -/
theorem DeviceTurn.beside (hturn : DeviceTurn env s s') : Beside s s' := by
  obtain ⟨hevents, hcontrol, -⟩ := hturn.sessionTurn.events
  rcases hevents with hevents | hevents
  · exact .of_eq hcontrol hturn.sessionTurn.sleeping (hevents.trans (List.append_nil _).symm)
  · exact .of_eq hcontrol hturn.sessionTurn.sleeping hevents

theorem OperationTurn.beside {op : EnrollVerify} (hturn : OperationTurn s op s') :
    Beside s s' := by
  have hsame : ∀ t : System, t.control = s.control → t.storage.sleeping = s.storage.sleeping →
      t.eventQueue = s.eventQueue → Beside s t := fun t hcontrol hsleeping hevents =>
    .of_eq hcontrol hsleeping (hevents.trans (List.append_nil _).symm)
  cases hturn with
  | entered => exact .of_eq rfl rfl rfl
  | armed => exact hsame _ rfl rfl rfl
  | skipped => exact hsame _ rfl rfl rfl
  | accepted _ _ _ huses =>
      rcases huses with ⟨heq, hflags⟩ | ⟨heq, hflags⟩
      · have hsleeping := congrArg FingerprintStorage.sleeping hflags
        rw [heq]
        exact hsame _ rfl hsleeping rfl
      · have hsleeping := congrArg FingerprintStorage.sleeping hflags
        rw [heq]
        exact hsame _ rfl hsleeping rfl
  | stopped => exact .of_eq rfl rfl rfl
  | failed => exact hsame _ rfl rfl rfl
  | next => exact .of_eq rfl rfl rfl
  | ended => exact .of_eq rfl rfl rfl
  | finished => exact hsame _ rfl rfl rfl

/-! ### The control task -/

/-- Ways on that neither open the reader nor recover. -/
def ControlThen.plain : ControlThen → Bool
  | .getEvent | .parseTlsKey | .delayGetImage | .getImage | .submitArm | .endEnrollment
  | .endSession => true
  | _ => false

/-- The control task goes on with the same session. -/
structure Onward (s s' : System) : Prop where
  pc : s'.control.pc = .getEvent ∨ ∃ next, s'.control.pc.next = some next ∧ next.plain = true
  suspended : s'.control.suspended = s.control.suspended
  handle : s'.control.handle = s.control.handle
  session : s'.control.session = s.control.session
  sleeping : s'.storage.sleeping = s.storage.sleeping
  events : s'.eventQueue = s.eventQueue

/-- The control task stands at a wait from which it goes on with the same session. -/
theorem Waking.of_onward (h : t.Rests) (ho : Onward t u) : Waking u := by
  have hnot : ∀ next : ControlThen, u.control.pc.next = some next → next.plain = true := by
    intro next hnext
    rcases ho.pc with hpc | ⟨next', hnext', hplain⟩
    · rw [hpc] at hnext
      cases hnext
    · rw [hnext] at hnext'
      exact Option.some.inj hnext' ▸ hplain
  refine ⟨fun _ hsuspended => ?_, fun hreopening => ?_, fun hopening => ?_⟩
  · rw [ho.suspended] at hsuspended
    obtain ⟨⟨hhandle, hsession⟩, hwoken⟩ := h hsuspended
    rw [ho.sleeping, ho.events]
    exact ⟨⟨ho.handle.trans hhandle, ho.session.trans hsession⟩, hwoken⟩
  · rcases hreopening with hnext | hnext <;> exact absurd (hnot _ hnext) (by decide)
  · rcases hopening with hnext | hnext | hnext | hnext <;>
      exact absurd (hnot _ hnext) (by decide)

theorem onward_getEvent (s : System) : Onward s s.getEvent := ⟨Or.inl rfl, rfl, rfl, rfl, rfl, rfl⟩

/-- Waiting for a transfer, for time to pass or for a put. -/
theorem onward_waits (s : System) {pc : ControlPc} {next : ControlThen}
    (hpc : pc.next = some next) (hplain : next.plain = true) : Onward s (s.setControl pc) :=
  ⟨Or.inr ⟨next, hpc, hplain⟩, rfl, rfl, rfl, rfl, rfl⟩

theorem Onward.trans (h : Onward s t) (h' : Onward t u) : Onward s u :=
  ⟨h'.pc, h'.suspended.trans h.suspended, h'.handle.trans h.handle, h'.session.trans h.session,
    h'.sleeping.trans h.sleeping, h'.events.trans h.events⟩

/-- The changes before a wait, which leave the session and its events alone. -/
theorem Onward.after (h : Onward t u) (hsuspended : t.control.suspended = s.control.suspended)
    (hhandle : t.control.handle = s.control.handle)
    (hsession : t.control.session = s.control.session)
    (hsleeping : t.storage.sleeping = s.storage.sleeping)
    (hevents : t.eventQueue = s.eventQueue) : Onward s u :=
  ⟨h.pc, h.suspended.trans hsuspended, h.handle.trans hhandle, h.session.trans hsession,
    h.sleeping.trans hsleeping, h.events.trans hevents⟩

theorem submitArm_onward (s : System) : Onward s (submitArm s) := by
  unfold submitArm
  split_ifs
  · exact onward_getEvent s
  · exact onward_waits s rfl rfl

theorem startSensor_onward (input : ControlInput) (s : System) :
    Onward s (startSensor input s) := by
  unfold startSensor
  dsimp only
  split_ifs
  · exact (onward_waits _ rfl rfl).after rfl rfl rfl rfl rfl
  · exact (submitArm_onward _).after rfl rfl rfl rfl rfl

theorem getImage_onward (s : System) : Onward s (getImage s) := by
  unfold getImage
  split_ifs
  · exact onward_getEvent s
  · exact (onward_waits _ rfl rfl).after rfl rfl rfl rfl rfl

theorem delayGetImage_onward (input : ControlInput) (s : System) :
    Onward s (delayGetImage input s) := by
  unfold delayGetImage
  split_ifs
  · exact onward_getEvent s
  · exact getImage_onward s
  · exact onward_waits s rfl rfl

theorem handleFingerDown_onward (input : ControlInput) (s : System) :
    Onward s (handleFingerDown input s) := by
  unfold handleFingerDown
  dsimp only
  split_ifs
  · exact (delayGetImage_onward input _).after rfl rfl rfl rfl rfl
  · exact (onward_waits _ rfl rfl).after rfl rfl rfl rfl rfl
  · exact onward_getEvent s

theorem handleImage_onward (input : ControlInput) (s : System) (origin : Origin)
    (requested : Option ℕ) : Onward s (handleImage input s origin requested) := by
  unfold handleImage
  split_ifs
  · exact onward_getEvent s
  · exact (startSensor_onward input _).after rfl rfl rfl rfl rfl
  · exact (onward_waits _ rfl rfl).after rfl rfl rfl rfl rfl

/-! ### Recovering -/

/-- As long as the task recovers, nothing is asked of it. -/
theorem recovers_waking (s : System) {pc : ControlPc} (hpc : pc.recovers) :
    Waking (s.setControl pc) := by
  have hnot : ∀ next : ControlThen, pc.next = some next → next = .yieldRecovery ∨
      next = .resumeRecovery := by
    intro next hnext
    rcases hpc with hpc | hpc | hpc
    · rw [hpc] at hnext
      cases hnext
    · exact Or.inl (Option.some.inj (hnext.symm.trans hpc))
    · exact Or.inr (Option.some.inj (hnext.symm.trans hpc))
  refine ⟨fun hrests => absurd hpc hrests, fun hreopening => ?_, fun hopening => ?_⟩
  · rcases hreopening with hnext | hnext <;> exact absurd (hnot _ hnext) (by decide)
  · rcases hopening with hnext | hnext | hnext | hnext <;>
      exact absurd (hnot _ hnext) (by decide)

/-- A task that has ended is not woken up any more. -/
theorem finishControl_waking (s : System) : Waking (finishControl s) :=
  recovers_waking _ (Or.inl rfl)

theorem scheduleRecovery_waking (htorn : s.TornDown) (hawake : s.control.suspended = false) :
    Waking (scheduleRecovery s) := by
  unfold scheduleRecovery
  split_ifs
  · exact finishControl_waking s
  · exact .of_awake hawake (fun _ => htorn) fun hpc => absurd hpc sleep_reopen_not_opening

/-- **Recovering closes the session, and waits only while the system sleeps.** -/
theorem beginRecovery_waking (s : System) : Waking (beginRecovery s) := by
  have htorn : (cleanupDevice s false).TornDown := ⟨rfl, rfl⟩
  -- the queue is empty now, so the signal that ends the sleep must be still to come
  unfold beginRecovery
  generalize cleanupDevice s false = t at htorn ⊢
  dsimp only
  split_ifs with hsleeping
  · exact ⟨fun _ _ => ⟨htorn, Or.inl hsleeping⟩, fun hpc => absurd hpc getEvent_idle.2.1,
      fun hpc => absurd hpc getEvent_idle.2.2⟩
  · exact scheduleRecovery_waking htorn (Bool.not_eq_true _ ▸ hsleeping)

/-- An operation that is told first delays the recovery. -/
theorem notifyOperationFailed_waking (s : System) : Waking (notifyOperationFailed s) := by
  unfold notifyOperationFailed
  dsimp only
  split_ifs
  · exact beginRecovery_waking _
  · exact recovers_waking _ (Or.inr (Or.inl rfl))

theorem initReader_waking (input : ControlInput) (hsession : s.control.session = .closed)
    (hawake : s.control.suspended = false) : Waking (initReader input s) := by
  unfold initReader
  split_ifs
  · exact notifyOperationFailed_waking s
  · exact .of_awake hawake (fun hpc => hpc.elim nofun nofun) fun _ => hsession

theorem reopen_waking (input : ControlInput) (htorn : s.TornDown)
    (hawake : s.control.suspended = false) : Waking (reopen input s) := by
  unfold reopen
  cases input.reopened with
  | deferred =>
      exact .of_awake hawake (fun _ => htorn) fun hpc => absurd hpc sleep_reopen_not_opening
  | missing => exact scheduleRecovery_waking htorn hawake
  | unusable => exact initReader_waking input htorn.2 hawake
  | opened => exact initReader_waking input htorn.2 hawake

/-! ### Turns of the control task -/

theorem handleWireEvent_waking (input : ControlInput) (h : s.Rests) (origin : Origin)
    (event : WireEvent) : Waking (handleWireEvent input s origin event) := by
  have hgoes : Waking s.getEvent := .of_onward h (onward_getEvent s)
  cases event with
  | initResult result =>
      cases result with
      | none => exact notifyOperationFailed_waking s
      | some result =>
          show Waking (handleInitResult s (some result))
          unfold handleInitResult
          dsimp only
          split_ifs
          · exact notifyOperationFailed_waking _
          · exact .of_onward h ((onward_waits _ rfl rfl).after rfl rfl rfl rfl rfl)
  | armResult success =>
      show Waking (if !success then notifyOperationFailed s else s.getEvent)
      split_ifs
      · exact notifyOperationFailed_waking s
      · exact hgoes
  | deadPixelReport defects =>
      cases defects with
      | none => exact notifyOperationFailed_waking s
      | some defects =>
          exact .of_onward h ((onward_getEvent
            (s.setStorage { s.storage with deadPixels := defects })).after rfl rfl rfl rfl rfl)
  | tls => exact notifyOperationFailed_waking s
  | unknown => exact notifyOperationFailed_waking s
  | fingerDown => exact .of_onward h (handleFingerDown_onward input s)
  | image requested => exact .of_onward h (handleImage_onward input s origin requested)
  | hello => exact hgoes
  | fingerUp => exact hgoes
  | usbLogs => exact hgoes
  | tlsKey => exact hgoes
  | refreshSensor => exact hgoes

theorem tlsReady_waking (h : s.Rests) (hready : tlsReady env s = some s') : Waking s' := by
  unfold tlsReady at hready
  cases hinit : s.store.init env.cipher env.database s.control.tlsKey s.store.file with
  | error e => simp [hinit] at hready
  | ok store =>
      rw [hinit] at hready
      obtain rfl := Option.some.inj hready
      have hsleeping : store.storage.sleeping = s.storage.sleeping := by
        unfold Store.init at hinit
        by_cases hlength : s.control.tlsKey.length ≠ 32
        · rw [if_pos hlength] at hinit
          cases hinit
        rw [if_neg hlength] at hinit
        dsimp only at hinit
        split at hinit
        · cases hinit
        · exact Except.ok.inj hinit ▸ rfl
      exact .of_onward h ((onward_waits _ rfl rfl).after rfl rfl rfl hsleeping rfl)

/-- An event is taken from the queue: all but the one that wakes the reader up leave it waiting. -/
theorem handleEvent_waking {input : ControlInput} {event : FPCEvent} {rest : List FPCEvent}
    (h : s.Rests) (hqueue : s.eventQueue = event :: rest)
    (hturn : handleEvent env input { s with eventQueue := rest } event = some s') : Waking s' := by
  -- the signal stays in the queue when the event taken is another one
  have hrest : event ≠ .resume → System.Rests { s with eventQueue := rest } := by
    intro hother hsuspended
    obtain ⟨htorn, hwoken⟩ := h hsuspended
    refine ⟨htorn, hwoken.imp_right fun hmem => ?_⟩
    rw [hqueue] at hmem
    exact (List.mem_cons.1 hmem).resolve_left (Ne.symm hother)
  cases event with
  | tlsReady => exact tlsReady_waking (hrest nofun) hturn
  | fpcEvent event origin =>
      obtain rfl := Option.some.inj hturn
      exact handleWireEvent_waking input (hrest nofun) origin event
  | startSensor =>
      obtain rfl := Option.some.inj hturn
      refine .of_onward (hrest nofun) ?_
      split_ifs
      · exact onward_getEvent _
      · exact startSensor_onward input _
  | stopSensor =>
      obtain rfl := Option.some.inj hturn
      refine .of_onward (hrest nofun) ?_
      split_ifs
      · exact (onward_getEvent _).after rfl rfl rfl rfl rfl
      · exact (onward_waits _ rfl rfl).after rfl rfl rfl rfl rfl
  | transportFailed =>
      obtain rfl := Option.some.inj hturn
      exact notifyOperationFailed_waking _
  | suspend =>
      obtain rfl := Option.some.inj hturn
      exact notifyOperationFailed_waking _
  | resume =>
      obtain rfl := Option.some.inj hturn
      split_ifs with hawake
      · rw [Bool.not_eq_true'] at hawake
        exact .of_awake hawake (fun hpc => absurd hpc getEvent_idle.2.1)
          fun hpc => absurd hpc getEvent_idle.2.2
      · -- the signal is used up, and so is the suspension
        rw [Bool.not_eq_true', Bool.not_eq_false] at hawake
        obtain ⟨htorn, -⟩ := h hawake
        exact reopen_waking input htorn rfl
  | fingerDown generation =>
      obtain rfl := Option.some.inj hturn
      exact .of_onward (hrest nofun) (onward_getEvent _)
  | image generation origin requested =>
      obtain rfl := Option.some.inj hturn
      exact .of_onward (hrest nofun) (onward_getEvent _)
  | enrollVerifyStop =>
      obtain rfl := Option.some.inj hturn
      exact .of_onward (hrest nofun) (onward_getEvent _)

/-- The reader answers with the version of its firmware. -/
theorem parseState_waking (input : ControlInput) (hsession : s.control.session = .closed)
    (hawake : s.control.suspended = false) : Waking (parseState input s) := by
  unfold parseState
  cases input.state with
  | incomplete => exact notifyOperationFailed_waking s
  | mismatch => exact finishControl_waking s
  | supported => exact .of_awake hawake (fun hpc => hpc.elim nofun nofun) fun _ => hsession

/-- What follows a wait. -/
theorem controlThen_waking (input : ControlInput) (h : Waking s) {next : ControlThen}
    (hnext : s.control.pc.next = some next) : Waking (controlThen input s next) := by
  -- unless the task recovers, a suspended session is closed already
  have hrests : next ≠ .yieldRecovery → next ≠ .resumeRecovery → s.Rests := by
    intro hyields hresumes
    refine h.rests ?_
    rintro (hpc | hpc | hpc)
    · rw [hpc] at hnext
      cases hnext
    · exact hyields (Option.some.inj (hnext.symm.trans hpc))
    · exact hresumes (Option.some.inj (hnext.symm.trans hpc))
  cases next with
  | init =>
      obtain ⟨hsession, hawake⟩ := h.opening (Or.inl hnext)
      exact initReader_waking input hsession hawake
  | scheduleRecovery =>
      obtain ⟨htorn, hawake⟩ := h.reopening (Or.inr hnext)
      exact scheduleRecovery_waking htorn hawake
  | reopen =>
      obtain ⟨htorn, hawake⟩ := h.reopening (Or.inl hnext)
      exact reopen_waking input htorn hawake
  | getState =>
      obtain ⟨hsession, hawake⟩ := h.opening (Or.inr (Or.inl hnext))
      exact .of_awake hawake (fun hpc => hpc.elim nofun nofun) fun _ => hsession
  | parseState =>
      obtain ⟨hsession, hawake⟩ := h.opening (Or.inr (Or.inr (Or.inl hnext)))
      exact parseState_waking input hsession hawake
  | spawn =>
      obtain ⟨-, hawake⟩ := h.opening (Or.inr (Or.inr (Or.inr hnext)))
      exact .of_awake hawake (fun hpc => absurd hpc getEvent_idle.2.1)
        fun hpc => absurd hpc getEvent_idle.2.2
  | getEvent => exact .of_onward (hrests nofun nofun) (onward_getEvent s)
  | parseTlsKey =>
      show Waking (parseTlsKey input s)
      unfold parseTlsKey
      cases input.tlsKey with
      | none => exact notifyOperationFailed_waking s
      | some key =>
          exact .of_onward (hrests nofun nofun)
            ((onward_waits { s with control := { s.control with tlsKey := key } } rfl rfl).after
              rfl rfl rfl rfl rfl)
  | delayGetImage => exact .of_onward (hrests nofun nofun) (delayGetImage_onward input s)
  | getImage => exact .of_onward (hrests nofun nofun) (getImage_onward s)
  | submitArm => exact .of_onward (hrests nofun nofun) (submitArm_onward s)
  | endEnrollment => exact .of_onward (hrests nofun nofun) (onward_waits s rfl rfl)
  | endSession => exact .of_onward (hrests nofun nofun) (onward_waits s rfl rfl)
  | yieldRecovery => exact recovers_waking s (Or.inr (Or.inr rfl))
  | resumeRecovery =>
      show Waking (resumeRecovery input s)
      unfold resumeRecovery
      split_ifs
      · exact recovers_waking s (Or.inr (Or.inr rfl))
      · exact beginRecovery_waking s

/-- **Every turn of the control task.** -/
theorem stepControl_waking {input : ControlInput} (h : Waking s)
    (hturn : stepControl env s input = some s') : Waking s' := by
  cases stepControl_runs hturn with
  | resumed hnext _ => exact controlThen_waking input h hnext
  | failed _ _ => exact notifyOperationFailed_waking s
  | event hpc hqueue hevent => exact handleEvent_waking (h.rests_getEvent hpc) hqueue hevent

/-! ### Steps -/

/-- A turn of a gate goes on beside the control task. -/
theorem stepGate_beside (s : System) (gate : PolkitGate) (reply : PolkitReply) :
    Beside s (stepGate s gate reply) := by
  rw [stepGate_eq]
  exact .of_eq rfl rfl (List.append_nil _).symm

/-- The flag is set, and the event that tells so is queued. -/
theorem slept_waking (h : Waking s) :
    Waking ((s.setStorage { s.storage with sleeping := true }).bumpGeneration.putEvent .suspend) :=
  ⟨fun hpc hsuspended => ⟨(h.rests hpc hsuspended).1, Or.inl rfl⟩, h.reopening, h.opening⟩

/-- The flag is cleared, and the event that wakes the reader up is in the queue. -/
theorem woke_waking (h : Waking s) :
    Waking ((s.setStorage { s.storage with sleeping := false }).putEvent .resume) :=
  ⟨fun hpc hsuspended => ⟨(h.rests hpc hsuspended).1,
    Or.inr (List.mem_append_right _ List.mem_cons_self)⟩, h.reopening, h.opening⟩

/-- A step is a turn of the control task, or the system goes to sleep or wakes up, or it goes on
beside the control task. -/
theorem step_beside {action : Action} (hstep : step env s action = some s') :
    (∃ input, action = .control input ∧ stepControl env s input = some s') ∨
      (s' = (s.setStorage { s.storage with sleeping := true }).bumpGeneration.putEvent .suspend ∨
        s' = (s.setStorage { s.storage with sleeping := false }).putEvent .resume) ∨
      Beside s s' := by
  cases step_turn hstep with
  | @control input _ _ _ => exact Or.inl ⟨input, rfl, hstep⟩
  | slept _ => exact Or.inr (Or.inl (Or.inl rfl))
  | woke _ => exact Or.inr (Or.inl (Or.inr rfl))
  | established hsession =>
      -- a session whose handshake goes on is not closed
      refine Or.inr (Or.inr ⟨rfl, rfl, rfl, fun hclosed => ?_, rfl,
        fun event hmem => List.mem_append_left _ hmem⟩)
      rw [hclosed] at hsession
      cases hsession
  | device _ hturn => exact Or.inr (Or.inr hturn.beside)
  | operation _ hturn => exact Or.inr (Or.inr hturn.beside)
  | gate _ _ => exact Or.inr (Or.inr (stepGate_beside s _ _))
  | listen _ hturn =>
      rw [stepListen_fields hturn]
      exact Or.inr (Or.inr (.of_eq rfl rfl (List.append_nil _).symm))
  | arrived _ _ => exact Or.inr (Or.inr (.of_eq rfl rfl (List.append_nil _).symm))
  | forwarded _ _ _ => exact Or.inr (Or.inr (.of_eq rfl rfl (List.append_nil _).symm))
  | rawDropped _ => exact Or.inr (Or.inr (.of_eq rfl rfl (List.append_nil _).symm))
  | rawQueued _ _ => exact Or.inr (Or.inr (.of_eq rfl rfl rfl))
  | tlsQueued _ _ => exact Or.inr (Or.inr (.of_eq rfl rfl rfl))
  | answered _ _ => exact Or.inr (Or.inr (.of_eq rfl rfl rfl))
  | failed _ => exact Or.inr (Or.inr (.of_eq rfl rfl rfl))

/-- **What one step keeps.** -/
theorem step_waking {action : Action} (h : Waking s) (hstep : step env s action = some s') :
    Waking s' := by
  rcases step_beside hstep with ⟨input, -, hturn⟩ | (rfl | rfl) | hbeside
  · exact stepControl_waking h hturn
  · exact slept_waking h
  · exact woke_waking h
  · exact h.beside hbeside

theorem started_waking (h : Started s) : Waking s := by
  obtain ⟨handle, file, rfl⟩ := h
  refine .of_awake rfl (fun hpc => ?_) fun _ => rfl
  cases handle with
  | false => exact ⟨rfl, rfl⟩
  | true => exact hpc.elim nofun nofun

/-- **A suspended session is closed and will be woken up.** -/
theorem waking_of_reachable (h : Transition.Reachable (step env) Started s) : Waking s :=
  Transition.Reaches.invariant (fun _ => started_waking)
    (fun _ hwaking _ hstep => step_waking hwaking hstep) h

end Fpc
