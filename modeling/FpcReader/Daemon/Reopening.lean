/-
**Opening the reader again.**

The daemon runs together with the transfers of its reader.  The end of a session releases the
transfers and closes the handle, or leaves that to the last callback; the reader is opened again
only when no handle is left to be closed.

Main definitions:

* `Fpc.RecoveryState` — the daemon, its transfers, and the handle of the control task;
* `Fpc.System.reopened` — what opening the reader again comes to in a turn;
* `Fpc.reopenUsb`, `Fpc.cleanupUsb` — what the control task asks of the library;
* `Fpc.recoveryStep` — what an action leads to.

Main results:

* `Fpc.step_handle` — the control task gets a handle only when the reader is opened;
* `Fpc.Tied.step` — **the handle of the control task is the only one that is not to be closed**;
* `Fpc.Tied.goes_on` — the library never stands in the way of the daemon;
* `Fpc.session_recovery` — a suspended session is woken up, and no handle is left when the reader is
  opened.
-/

import FpcReader.Daemon.Recovery
import FpcReader.Usb.TransferSound

set_option relaxedAutoImplicit false
set_option autoImplicit false

namespace Fpc

/-! ### The daemon with its transfers -/

/-- The handle is zero when there is none. -/
structure RecoveryState where
  system : System
  usb : UsbState
  handle : ℕ

/-- A step of the daemon comes with the handle that is given when the reader is opened, and with the
number of its interface. -/
inductive RecoveryAction where
  | daemon (action : Action) (handle : ℕ) (interfaceNumber : ℤ)
  | usb (action : UsbAction)

/-- Handles are opened by the control task, and given back when a session ends; everything else
happens at any time. -/
def UsbAction.unattended : UsbAction → Bool
  | .opens _ | .deferClose _ _ => false
  | _ => true

/-- The control task runs `reopen` in this turn. -/
def System.runsReopen (s : System) (input : ControlInput) : Bool :=
  match s.control.pc with
  | .start next | .sleep next | .put next => decide (next = .reopen)
  | .transfer next => input.transferred && decide (next = .reopen)
  | .getEvent => decide (s.eventQueue.head? = some .resume) && s.control.suspended
  | .finished => false

/-- What opening the reader again comes to, when a step does that. -/
def System.reopened (s : System) : Action → Option Reopen
  | .control input => if s.runsReopen input then some input.reopened else none
  | _ => none

/-- The reader is open, whether it can be used or not. -/
def Reopen.opens : Reopen → Bool
  | .unusable | .opened => true
  | .deferred | .missing => false

/-- The control task waits exactly as long as a handle is left to be closed; a handle that is given
is a new one. -/
def Reopen.fits (reopened : Reopen) (s : UsbState) (handle : ℕ) : Bool :=
  decide (hasDeferredUsbCloses s = true ↔ reopened = .deferred) &&
    (!reopened.opens || decide (handle ≠ 0 ∧ handle ∉ s.opened))

/-- `reopen` -/
def reopenUsb (r : RecoveryState) (reopened : Reopen) (handle : ℕ) : Option RecoveryState :=
  (drainUsbCloses r.usb).toOption.bind fun usb =>
    if !reopened.fits usb handle then none
    else if reopened.opens then
      some { r with usb := { usb with opened := handle :: usb.opened }, handle := handle }
    else some { r with usb := usb }

/-- What a step asks of the library before the control task has its handle, or none. -/
def reopenWhenAsked (r : RecoveryState) (action : Action) (handle : ℕ) : Option RecoveryState :=
  match r.system.reopened action with
  | none => some r
  | some reopened => reopenUsb r reopened handle

/-- The tasks of a session are cancelled. -/
def releaseTransfers (s : UsbState) : Except Misuse UsbState :=
  (List.range s.objects.length).foldlM USBTransfer.finalize s

/-- `cleanup_device`, once the session has lost its handle. -/
def cleanupUsb (r : RecoveryState) (interfaceNumber : ℤ) : Option RecoveryState :=
  if r.system.control.handle = true ∨ r.handle = 0 then some r
  else
    (releaseTransfers r.usb).toOption.bind fun usb =>
      (deferUsbClose usb r.handle interfaceNumber).toOption.map fun usb =>
        { r with usb := usb, handle := 0 }

def recoveryStep (env : Environment) (r : RecoveryState) : RecoveryAction → Option RecoveryState
  | .daemon action handle interfaceNumber =>
      (step env r.system action).bind fun system =>
        (reopenWhenAsked r action handle).bind fun r =>
          cleanupUsb { r with system := system } interfaceNumber
  | .usb action =>
      if action.unattended then (usbStep r.usb action).map fun usb => { r with usb := usb }
      else none

/-- The daemon starts with an open reader, or without one. -/
def RecoveryStarted (r : RecoveryState) : Prop :=
  ∃ file, r = ⟨.start false file, .initial, 0⟩ ∨
    ∃ handle, handle ≠ 0 ∧
      r = ⟨.start true file, { UsbState.initial with opened := [handle] }, handle⟩

/-! ### The handle of the control task -/

section Control

variable {env : Environment} {s s' : System}

theorem scheduleRecovery_handle (h : (scheduleRecovery s).control.handle = true) :
    s.control.handle = true := by
  unfold scheduleRecovery at h
  split_ifs at h
  · cases h
  · exact h

theorem beginRecovery_handle (s : System) : (beginRecovery s).control.handle = false := by
  have hclosed : (cleanupDevice s false).control.handle = false := rfl
  unfold beginRecovery
  generalize cleanupDevice s false = t at hclosed ⊢
  dsimp only
  split_ifs
  · exact hclosed
  · rw [← Bool.not_eq_true]
    intro hopen
    have hbefore := scheduleRecovery_handle hopen
    exact Bool.false_ne_true (hclosed.symm.trans hbefore)

theorem notifyOperationFailed_handle (h : (notifyOperationFailed s).control.handle = true) :
    s.control.handle = true := by
  unfold notifyOperationFailed at h
  dsimp only at h
  split_ifs at h
  · exact absurd (h.symm.trans (beginRecovery_handle _)) Bool.true_eq_false_eq_False
  · exact h

theorem initReader_handle {input : ControlInput}
    (h : (initReader input s).control.handle = true) : s.control.handle = true := by
  unfold initReader at h
  split_ifs at h
  · exact notifyOperationFailed_handle h
  · exact h

/-- A handle is there after opening the reader, unless it had to be given up again. -/
theorem reopen_handle {input : ControlInput} (h : (reopen input s).control.handle = true) :
    s.control.handle = true ∨ input.reopened.opens = true := by
  unfold reopen at h
  cases hreopened : input.reopened with
  | deferred =>
      rw [hreopened] at h
      exact Or.inl h
  | missing =>
      rw [hreopened] at h
      exact Or.inl (scheduleRecovery_handle h)
  | unusable => exact Or.inr rfl
  | opened => exact Or.inr rfl

theorem handleWireEvent_handle {input : ControlInput} {origin : Origin} {event : WireEvent}
    (h : (handleWireEvent input s origin event).control.handle = true) :
    s.control.handle = true := by
  cases event with
  | initResult result =>
      cases result with
      | none => exact notifyOperationFailed_handle h
      | some result =>
          have hchecked : (handleInitResult s (some result)).control.handle = true := h
          unfold handleInitResult at hchecked
          dsimp only at hchecked
          split_ifs at hchecked
          · have hbefore := notifyOperationFailed_handle hchecked
            exact hbefore
          · exact hchecked
  | armResult success =>
      have harmed : (if !success then notifyOperationFailed s else s.getEvent).control.handle =
        true := h
      split_ifs at harmed
      · exact notifyOperationFailed_handle harmed
      · exact harmed
  | deadPixelReport defects =>
      cases defects with
      | none => exact notifyOperationFailed_handle h
      | some defects => exact h
  | tls => exact notifyOperationFailed_handle h
  | unknown => exact notifyOperationFailed_handle h
  | fingerDown => exact (handleFingerDown_onward input s).handle.symm.trans h
  | image requested => exact (handleImage_onward input s origin requested).handle.symm.trans h
  | hello => exact h
  | fingerUp => exact h
  | usbLogs => exact h
  | tlsKey => exact h
  | refreshSensor => exact h

/-- An event gives the control task a handle only when it wakes the reader up. -/
theorem handleEvent_handle {input : ControlInput} {event : FPCEvent}
    (hturn : handleEvent env input s event = some s') (h : s'.control.handle = true) :
    s.control.handle = true ∨
      (event = .resume ∧ s.control.suspended = true ∧ input.reopened.opens = true) := by
  cases event with
  | tlsReady =>
      have hready : tlsReady env s = some s' := hturn
      unfold tlsReady at hready
      cases hinit : s.store.init env.cipher env.database s.control.tlsKey s.store.file with
      | error e => simp [hinit] at hready
      | ok store =>
          rw [hinit] at hready
          obtain rfl := Option.some.inj hready
          exact Or.inl h
  | fpcEvent event origin =>
      obtain rfl := Option.some.inj hturn
      exact Or.inl (handleWireEvent_handle h)
  | startSensor =>
      obtain rfl := Option.some.inj hturn
      split_ifs at h
      · exact Or.inl h
      · exact Or.inl ((startSensor_onward input s).handle.symm.trans h)
  | stopSensor =>
      obtain rfl := Option.some.inj hturn
      split_ifs at h <;> exact Or.inl h
  | transportFailed =>
      obtain rfl := Option.some.inj hturn
      exact Or.inl (notifyOperationFailed_handle h)
  | suspend =>
      obtain rfl := Option.some.inj hturn
      have hbefore := notifyOperationFailed_handle h
      exact Or.inl hbefore
  | resume =>
      obtain rfl := Option.some.inj hturn
      split_ifs at h with hawake
      · exact Or.inl h
      · rw [Bool.not_eq_true', Bool.not_eq_false] at hawake
        exact (reopen_handle h).imp_right fun hopens => ⟨rfl, hawake, hopens⟩
  | fingerDown generation =>
      obtain rfl := Option.some.inj hturn
      exact Or.inl h
  | image generation origin requested =>
      obtain rfl := Option.some.inj hturn
      exact Or.inl h
  | enrollVerifyStop =>
      obtain rfl := Option.some.inj hturn
      exact Or.inl h

/-- What follows a wait gives the control task a handle only by opening the reader. -/
theorem controlThen_handle {input : ControlInput} {next : ControlThen}
    (h : (controlThen input s next).control.handle = true) :
    s.control.handle = true ∨ (next = .reopen ∧ input.reopened.opens = true) := by
  cases next with
  | init => exact Or.inl (initReader_handle h)
  | scheduleRecovery => exact Or.inl (scheduleRecovery_handle h)
  | reopen => exact (reopen_handle h).imp_right fun hopens => ⟨rfl, hopens⟩
  | getState => exact Or.inl h
  | parseState =>
      have hparsed : (parseState input s).control.handle = true := h
      unfold parseState at hparsed
      cases hstate : input.state with
      | incomplete =>
          rw [hstate] at hparsed
          exact Or.inl (notifyOperationFailed_handle hparsed)
      | mismatch =>
          rw [hstate] at hparsed
          cases hparsed
      | supported =>
          rw [hstate] at hparsed
          exact Or.inl hparsed
  | spawn => exact Or.inl h
  | getEvent => exact Or.inl h
  | parseTlsKey =>
      have hparsed : (parseTlsKey input s).control.handle = true := h
      unfold parseTlsKey at hparsed
      cases hkey : input.tlsKey with
      | none =>
          rw [hkey] at hparsed
          exact Or.inl (notifyOperationFailed_handle hparsed)
      | some key =>
          rw [hkey] at hparsed
          exact Or.inl hparsed
  | delayGetImage => exact Or.inl ((delayGetImage_onward input s).handle.symm.trans h)
  | getImage => exact Or.inl ((getImage_onward s).handle.symm.trans h)
  | submitArm => exact Or.inl ((submitArm_onward s).handle.symm.trans h)
  | endEnrollment => exact Or.inl h
  | endSession => exact Or.inl h
  | yieldRecovery => exact Or.inl h
  | resumeRecovery =>
      have hresumed : (resumeRecovery input s).control.handle = true := h
      unfold resumeRecovery at hresumed
      split_ifs at hresumed
      · exact Or.inl hresumed
      · rw [beginRecovery_handle] at hresumed
        cases hresumed

/-- The control task has waited to open the reader again. -/
theorem runsReopen_of_next {input : ControlInput} (hnext : s.control.pc.next = some .reopen)
    (htransferred : ∀ after, s.control.pc = .transfer after → input.transferred = true) :
    s.runsReopen input = true := by
  unfold System.runsReopen
  cases hpc : s.control.pc with
  | start next | sleep next | put next =>
      rw [hpc] at hnext
      exact decide_eq_true (Option.some.inj hnext)
  | transfer next =>
      rw [hpc] at hnext
      exact Bool.and_eq_true_iff.2 ⟨htransferred next hpc, decide_eq_true (Option.some.inj hnext)⟩
  | getEvent | finished =>
      rw [hpc] at hnext
      cases hnext

/-- **The control task gets a handle only when the reader is opened.** -/
theorem step_handle {action : Action} (hstep : step env s action = some s')
    (h : s'.control.handle = true) : s.control.handle = true ∨
      ∃ reopened, s.reopened action = some reopened ∧ reopened.opens = true := by
  rcases step_beside hstep with ⟨input, rfl, hturn⟩ | (rfl | rfl) | hbeside
  · have hopens : s.runsReopen input = true → input.reopened.opens = true →
        ∃ reopened, s.reopened (.control input) = some reopened ∧ reopened.opens = true :=
      fun hruns hopens => ⟨input.reopened, if_pos hruns, hopens⟩
    cases stepControl_runs hturn with
    | resumed hnext htransferred =>
        rcases controlThen_handle h with hbefore | ⟨rfl, hreopens⟩
        · exact Or.inl hbefore
        · exact Or.inr (hopens (runsReopen_of_next hnext htransferred) hreopens)
    | failed _ _ => exact Or.inl (notifyOperationFailed_handle h)
    | event hpc hqueue hevent =>
        rcases handleEvent_handle hevent h with hbefore | ⟨rfl, hsuspended, hreopens⟩
        · exact Or.inl hbefore
        · have hsuspended : s.control.suspended = true := hsuspended
          refine Or.inr (hopens ?_ hreopens)
          rw [System.runsReopen, hpc, hqueue, List.head?_cons, hsuspended]
          rfl
  · exact Or.inl h
  · exact Or.inl h
  · exact Or.inl (hbeside.handle.symm.trans h)

end Control

/-! ### Handles while nothing is opened or closed -/

section Handles

variable {s s' : UsbState}

/-- A call that is no misuse leaves the handles as they are. -/
def Keeps (s : UsbState) (call : Except Misuse UsbState) : Prop :=
  ∀ s', call = .ok s' → s'.opened = s.opened ∧ s'.requested = s.requested

theorem Keeps.ok (hopened : s'.opened = s.opened) (hrequested : s'.requested = s.requested) :
    Keeps s (.ok s') := by
  intro r hr
  obtain rfl := Except.ok.inj hr
  exact ⟨hopened, hrequested⟩

theorem Keeps.error (misuse : Misuse) : Keeps s (.error misuse) := nofun

theorem Keeps.bind {β : Type} {call : Except Misuse β} {f : β → Except Misuse UsbState}
    (h : ∀ b, call = .ok b → Keeps s (f b)) : Keeps s (call >>= f) := by
  intro r hr
  cases hcall : call with
  | error misuse =>
      rw [hcall] at hr
      cases hr
  | ok b =>
      rw [hcall] at hr
      exact h b hcall r hr

theorem Keeps.congr {t : UsbState} {call : Except Misuse UsbState}
    (hopened : t.opened = s.opened) (hrequested : t.requested = s.requested)
    (h : Keeps t call) : Keeps s call := by
  intro r hr
  obtain ⟨ho, hreq⟩ := h r hr
  exact ⟨ho.trans hopened, hreq.trans hrequested⟩

/-- One call after another. -/
theorem Keeps.seq {call : Except Misuse UsbState} {f : UsbState → Except Misuse UsbState}
    (h : Keeps s call) (hnext : ∀ t, Keeps t (f t)) : Keeps s (call >>= f) :=
  .bind fun t ht => (hnext t).congr (h t ht).1 (h t ht).2

theorem free_keeps (s : UsbState) (t : ℕ) : Keeps s (libusbFreeTransfer s t) := by
  refine .bind fun transfer _ => ?_
  split_ifs
  · exact .error _
  · exact .ok rfl rfl

theorem submitTransfer_keeps (s : UsbState) (t : ℕ) (accepted : Bool) :
    Keeps s (libusbSubmitTransfer s t accepted) := by
  refine .bind fun transfer _ => ?_
  split_ifs
  all_goals first
    | exact .error _
    | exact .ok rfl rfl

theorem rest_keeps (s : UsbState) (o : ℕ) : Keeps s (USBTransfer.rest s o) :=
  .bind fun _ _ => .ok rfl rfl

theorem release_keeps (s : UsbState) (o : ℕ) : Keeps s (USBTransfer.release s o) := by
  refine .bind fun object _ => ?_
  cases object.transfer with
  | none => exact .ok rfl rfl
  | some t =>
      refine Keeps.seq ?_ fun _ => .ok rfl rfl
      split_ifs
      · exact .bind fun _ _ => .ok rfl rfl
      · exact free_keeps s t

theorem start_keeps (s : UsbState) (o handle : ℕ) (allocated buffered : Bool) :
    Keeps s (USBTransfer.start s o handle allocated buffered) := by
  refine (release_keeps s o).seq fun r => ?_
  split_ifs
  · exact rest_keeps r o
  · exact Keeps.congr rfl rfl ((free_keeps _ _).seq fun _ => rest_keeps _ o)
  · exact .bind fun _ _ => .ok rfl rfl

theorem submit_keeps (s : UsbState) (o : ℕ) (accepted : Bool) :
    Keeps s (USBTransfer.submit s o accepted) := by
  refine .bind fun object _ => ?_
  cases object.transfer with
  | none => exact .error _
  | some t =>
      refine .bind fun transfer _ => ?_
      dsimp only
      split_ifs
      · exact rest_keeps s o
      all_goals exact (submitTransfer_keeps s t accepted).seq fun _ => .ok rfl rfl

theorem resume_keeps (s : UsbState) (t : ℕ) : Keeps s (USBTransfer.resume s t) := by
  refine .bind fun transfer _ => ?_
  dsimp only
  rw [finishUsbTransfer_eq]
  cases transfer.userData with
  | none => exact Keeps.congr rfl rfl (free_keeps _ t)
  | some o =>
      refine .bind fun object _ => ?_
      split_ifs
      · exact .error _
      · exact .ok rfl rfl

theorem completed_keeps (s : UsbState) (o : ℕ) : Keeps s (USBTransfer.completed s o) := by
  refine .bind fun object _ => ?_
  cases object.transfer with
  | none => exact .error _
  | some t => exact .bind fun _ _ => rest_keeps s o

/-- **Without the control task handles are closed only when that was requested.** -/
theorem unattended_shrinks {action : UsbAction} (h : s.Sound s.requested)
    (hfree : action.unattended = true) (hstep : usbStep s action = some s') :
    s'.Sound s'.requested ∧ Shrinks s s' := by
  unfold usbStep at hstep
  split_ifs at hstep with henabled
  obtain ⟨r, hperform, hsound⟩ := h.perform (fun _ hmem => hmem) henabled
  rw [hperform] at hstep
  obtain rfl := Option.some.inj hstep
  have hkeeps : ∀ {call : Except Misuse UsbState}, Keeps s call → call = .ok r → Shrinks s r :=
    fun hk hcall => .of_eq (hk r hcall).1 (hk r hcall).2
  suffices hshrinks : Shrinks s r from ⟨hsound.mono hshrinks.requested, hshrinks⟩
  cases action with
  | opens handle => cases hfree
  | deferClose handle interfaceNumber => cases hfree
  | construct =>
      have hconstruct : Keeps s (.ok { s with objects := s.objects ++ [⟨none, false, .idle⟩] }) :=
        .ok rfl rfl
      exact hkeeps hconstruct hperform
  | start o handle allocated buffered => exact hkeeps (start_keeps s o _ _ _) hperform
  | submit o accepted => exact hkeeps (submit_keeps s o accepted) hperform
  | callback t => exact hkeeps (resume_keeps s t) hperform
  | completed o => exact hkeeps (completed_keeps s o) hperform
  | release o =>
      exact hkeeps ((release_keeps s o).seq fun t => rest_keeps t o) hperform
  | drain =>
      obtain ⟨r', hdrain, -, hshrinks⟩ := drain_ok h fun _ hmem => hmem
      obtain rfl := Except.ok.inj (hdrain.symm.trans hperform)
      exact hshrinks

/-! ### The end of a session -/

/-- **Cancelling the tasks of a session** leaves no object that is about to submit. -/
theorem releaseTransfers_ok {quiet : List ℕ} (h : s.Sound quiet) :
    ∃ s', releaseTransfers s = .ok s' ∧ s'.Sound quiet ∧ s'.opened = s.opened ∧
      s'.requested = s.requested ∧ ∀ handle, Unarmed s' handle := by
  -- an object is idle once its turn has come, and was left alone before
  have hloop : ∀ (os : List ℕ) (r : UsbState), r.Sound quiet → (∀ o ∈ os, o < r.objects.length) →
      ∃ r', os.foldlM USBTransfer.finalize r = .ok r' ∧ r'.Sound quiet ∧ r'.opened = r.opened ∧
        r'.requested = r.requested ∧ ∀ (o : ℕ) (object : USBTransfer),
          r'.objects[o]? = some object →
            object = ⟨none, false, .idle⟩ ∨ (o ∉ os ∧ r.objects[o]? = some object) := by
    intro os
    induction os with
    | nil =>
        exact fun r hr _ => ⟨r, rfl, hr, rfl, rfl, fun o object ho => Or.inr ⟨nofun, ho⟩⟩
    | cons o os ih =>
        intro r hr hin
        obtain ⟨t, hfinalize, ht⟩ :=
          finalize_ok hr (List.getElem?_eq_getElem (hin o List.mem_cons_self))
        have hin' : ∀ o' ∈ os, o' < t.objects.length := by
          intro o' ho'
          rw [ht.objects, List.length_set]
          exact hin o' (List.mem_cons_of_mem _ ho')
        obtain ⟨r', hr', hsound, hopened, hrequested, hidle⟩ := ih t ht.sound hin'
        rw [List.foldlM_cons, hfinalize, Fallible.ok_bind]
        refine ⟨r', hr', hsound, hopened.trans ht.opened, hrequested.trans ht.requested,
          fun o' object ho' => ?_⟩
        rcases hidle o' object ho' with hnone | ⟨hnot, hbefore⟩
        · exact Or.inl hnone
        rw [ht.objects] at hbefore
        by_cases heq : o = o'
        · rw [← heq, List.getElem?_set_self (hin o List.mem_cons_self)] at hbefore
          exact Or.inl (Option.some.inj hbefore).symm
        · rw [List.getElem?_set_ne heq] at hbefore
          exact Or.inr ⟨fun hmem => (List.mem_cons.1 hmem).elim (Ne.symm heq) hnot, hbefore⟩
  obtain ⟨s', hs', hsound, hopened, hrequested, hidle⟩ :=
    hloop (List.range s.objects.length) s h fun o ho => List.mem_range.1 ho
  refine ⟨s', hs', hsound, hopened, hrequested, fun handle o object ho => ?_⟩
  rcases hidle o object ho with rfl | ⟨hnot, hbefore⟩
  · rfl
  · exact absurd (List.mem_range.2 (List.getElem?_eq_some_iff.1 hbefore).1) hnot

/-- A handle that is given back is closed, or its close has been requested. -/
theorem deferUsbClose_requested {handle : ℕ} {interfaceNumber : ℤ} (hnonnull : handle ≠ 0)
    (hclose : deferUsbClose s handle interfaceNumber = .ok s') :
    (∀ other ∈ s'.requested, other ∈ handle :: s.requested) ∧ ∀ other ∈ s'.opened,
      other ∈ s.opened ∧ (other = handle ∨ other ∈ s.requested → other ∈ s'.requested) := by
  rw [deferUsbClose, if_neg hnonnull] at hclose
  dsimp only at hclose
  cases hfind : s.handles.find? handle with
  | none =>
      rw [hfind] at hclose
      dsimp only [libusbClose] at hclose
      split_ifs at hclose
      obtain rfl := Except.ok.inj hclose
      refine ⟨fun other hmem => (List.mem_filter.1 hmem).1, fun other hmem => ?_⟩
      obtain ⟨hopen, hother⟩ := List.mem_filter.1 hmem
      refine ⟨hopen, fun hrequested => List.mem_filter.2 ⟨?_, hother⟩⟩
      exact List.mem_cons.2 hrequested
  | some entry =>
      rw [hfind] at hclose
      obtain rfl := Except.ok.inj hclose
      exact ⟨fun other hmem => hmem, fun other hopen =>
        ⟨hopen, fun hrequested => List.mem_cons.2 hrequested⟩⟩

/-- No close is left to be done, so none has been requested. -/
theorem UsbState.Sound.none_requested {quiet : List ℕ} (h : s.Sound quiet)
    (hnone : hasDeferredUsbCloses s = false) (handle : ℕ) : handle ∉ s.requested := by
  cases hfind : s.handles.find? handle with
  | none => exact (h.accounts.untracked handle hfind).2
  | some entry =>
      have hclosing : ¬entry.closing = true := by
        rw [hasDeferredUsbCloses, List.any_eq_false] at hnone
        exact hnone (handle, entry) (SortedMap.mem_entries.2 hfind)
      exact fun hmem => hclosing ((h.accounts.tracked handle entry hfind).2.2.1.2 hmem)

end Handles

/-! ### Steps -/

/-- The control task holds the only handle that is not to be closed, and none between sessions. -/
structure Tied (r : RecoveryState) : Prop where
  sound : r.usb.Sound r.usb.requested
  waking : Waking r.system
  handle : r.system.control.handle = true ↔ r.handle ≠ 0
  held : r.handle ≠ 0 → r.handle ∈ r.usb.opened ∧ r.handle ∉ r.usb.requested
  closing : ∀ handle ∈ r.usb.opened, handle = r.handle ∨ handle ∈ r.usb.requested

section Tie

variable {env : Environment} {r r' : RecoveryState}

/-- Handles have been closed that the control task does not hold. -/
theorem Tied.shrink (h : Tied r) {usb : UsbState} (hsound : usb.Sound usb.requested)
    (hshrinks : Shrinks r.usb usb) : Tied { r with usb := usb } where
  sound := hsound
  waking := h.waking
  handle := h.handle
  held hheld := by
    obtain ⟨hopen, hnot⟩ := h.held hheld
    exact ⟨hshrinks.kept _ hopen hnot, fun hmem => hnot (hshrinks.requested _ hmem)⟩
  closing handle hmem := (h.closing handle (hshrinks.opened handle hmem)).imp_right
    (hshrinks.closing handle hmem)

/-- **No handle is left when the reader is opened again.** -/
theorem Tied.nothing_left (h : Tied r) (hnull : r.handle = 0)
    (hnone : hasDeferredUsbCloses r.usb = false) : r.usb.opened = [] := by
  refine List.eq_nil_iff_forall_not_mem.2 fun handle hmem => ?_
  rcases h.closing handle hmem with heq | hrequested
  · rw [heq, hnull] at hmem
    exact h.sound.accounts.nonnull hmem
  · exact h.sound.none_requested hnone handle hrequested

/-- **Opening the reader** when the control task has no handle. -/
theorem Tied.reopen (h : Tied r) (hnull : r.handle = 0) {reopened : Reopen} {handle : ℕ}
    (hopens : reopenUsb r reopened handle = some r') :
    (reopened.opens = true → r'.handle ≠ 0) ∧ r'.usb.Sound r'.usb.requested ∧
      (r'.handle ≠ 0 → r'.handle ∈ r'.usb.opened ∧ r'.handle ∉ r'.usb.requested) ∧
      (∀ other ∈ r'.usb.opened, other = r'.handle ∨ other ∈ r'.usb.requested) ∧
      (reopened.opens = true → ∃ usb, drainUsbCloses r.usb = .ok usb ∧
        hasDeferredUsbCloses usb = false ∧ usb.opened = []) := by
  obtain ⟨usb, hdrain, hquiet, hshrinks⟩ := drain_ok h.sound fun _ hmem => hmem
  have hsound := hquiet.mono hshrinks.requested
  have htied := h.shrink hsound hshrinks
  rw [reopenUsb, hdrain] at hopens
  dsimp only [Except.toOption, Option.bind_some] at hopens
  split_ifs at hopens with hunfit hopening
  · obtain rfl := Option.some.inj hopens
    rw [Bool.not_eq_true', Bool.not_eq_false, Reopen.fits, Bool.and_eq_true, decide_eq_true_eq,
      hopening, Bool.not_true, Bool.false_or, decide_eq_true_eq] at hunfit
    obtain ⟨hwaits, hnonnull, hnew⟩ := hunfit
    -- the control task does not wait, so nothing is left to be closed
    have hnone : hasDeferredUsbCloses usb = false := by
      rw [← Bool.not_eq_true, hwaits]
      rintro rfl
      cases hopening
    have hempty : usb.opened = [] := htied.nothing_left hnull hnone
    have hopened : UsbAction.enabled usb (.opens handle) = true :=
      decide_eq_true ⟨hnonnull, hnew⟩
    obtain ⟨usb', hperform, hsound'⟩ := hsound.perform (fun _ hmem => hmem) hopened
    obtain rfl := Except.ok.inj hperform
    refine ⟨fun _ => hnonnull, hsound',
      fun _ => ⟨List.mem_cons_self, hsound.none_requested hnone handle⟩, fun other hmem => ?_,
      fun _ => ⟨usb, hdrain, hnone, hempty⟩⟩
    rw [hempty] at hmem
    exact Or.inl (List.mem_singleton.1 hmem)
  · obtain rfl := Option.some.inj hopens
    exact ⟨fun hopen => absurd hopen hopening, hsound, htied.held, htied.closing,
      fun hopen => absurd hopen hopening⟩

/-- **The end of a session** gives the handle back. -/
theorem cleanupUsb_tied (interfaceNumber : ℤ) (hsound : r.usb.Sound r.usb.requested)
    (hwaking : Waking r.system)
    (hgiven : r.system.control.handle = true → r.handle ≠ 0)
    (hheld : r.handle ≠ 0 → r.handle ∈ r.usb.opened ∧ r.handle ∉ r.usb.requested)
    (hclosing : ∀ other ∈ r.usb.opened, other = r.handle ∨ other ∈ r.usb.requested) :
    ∃ r', cleanupUsb r interfaceNumber = some r' ∧ r'.system = r.system ∧ Tied r' := by
  unfold cleanupUsb
  split_ifs with hkept
  · -- the session goes on, or had no handle
    exact ⟨r, rfl, rfl, hsound, hwaking, ⟨hgiven, hkept.resolve_right⟩, hheld, hclosing⟩
  obtain ⟨hreleased, hnonnull⟩ := not_or.1 hkept
  obtain ⟨usb, hrelease, hidle, hopened, hrequested, hunarmed⟩ := releaseTransfers_ok hsound
  obtain ⟨hopen, hfresh⟩ := hheld hnonnull
  rw [← hopened] at hopen
  rw [← hrequested] at hfresh
  -- nothing submits on any handle now, so also not on the one that is given back
  have hquiet : usb.Sound (r.handle :: usb.requested) :=
    hidle.hush fun other _ => Or.inr (hunarmed other)
  obtain ⟨usb', hclose, hclosed⟩ :=
    deferUsbClose_ok hquiet interfaceNumber (Or.inr ⟨hopen, hfresh⟩) fun _ => hunarmed _
  obtain ⟨hless, hgone⟩ := deferUsbClose_requested hnonnull hclose
  rw [hrelease]
  dsimp only [Except.toOption, Option.bind_some]
  rw [hclose]
  -- every handle that is still open was the one given back, or its close was requested before
  refine ⟨_, rfl, rfl, hclosed.mono hless, hwaking, iff_of_false hreleased (not_not.2 rfl),
    fun hheld => absurd rfl hheld, fun other hmem => Or.inr ?_⟩
  obtain ⟨hbefore, hrequests⟩ := hgone other hmem
  rw [hopened] at hbefore
  rw [hrequested] at hrequests
  exact hrequests (hclosing other hbefore)

/-- The reader is opened again only when the session is closed. -/
theorem reopened_torn {s : System} (h : Waking s) {action : Action} {reopened : Reopen}
    (hreopened : s.reopened action = some reopened) : s.TornDown := by
  cases action with
  | control input =>
      unfold System.reopened System.runsReopen at hreopened
      dsimp only at hreopened
      split_ifs at hreopened with hruns
      cases hpc : s.control.pc with
      | start next | sleep next | put next =>
          rw [hpc] at hruns
          exact (h.reopening (Or.inl (hpc ▸ congrArg some (of_decide_eq_true hruns)))).1
      | transfer next =>
          rw [hpc] at hruns
          obtain ⟨-, hnext⟩ := Bool.and_eq_true_iff.1 hruns
          exact (h.reopening (Or.inl (hpc ▸ congrArg some (of_decide_eq_true hnext)))).1
      | getEvent =>
          rw [hpc] at hruns
          obtain ⟨-, hsuspended⟩ := Bool.and_eq_true_iff.1 hruns
          exact (h.rests_getEvent hpc hsuspended).1
      | finished =>
          rw [hpc] at hruns
          cases hruns
  | _ => cases hreopened

/-- What opening the reader finds. -/
def FindsNothing (r : RecoveryState) : Prop :=
  ∃ usb, drainUsbCloses r.usb = .ok usb ∧ hasDeferredUsbCloses usb = false ∧ usb.opened = []

/-- What is asked of the library keeps the handles tied. -/
theorem Tied.cleanup (h : Tied r) {action : Action} {system : System}
    (hsystem : step env r.system action = some system) {handle : ℕ} {t : RecoveryState}
    (hasked : reopenWhenAsked r action handle = some t) (interfaceNumber : ℤ) :
    (∃ r', cleanupUsb { t with system := system } interfaceNumber = some r' ∧
      r'.system = system ∧ Tied r') ∧
    ∀ reopened, r.system.reopened action = some reopened →
      r.system.TornDown ∧ r.handle = 0 ∧ (reopened.opens = true → FindsNothing r) := by
  have hwaking := step_waking h.waking hsystem
  have hgains := step_handle hsystem
  unfold reopenWhenAsked at hasked
  cases hreopened : r.system.reopened action with
  | none =>
      rw [hreopened] at hasked
      obtain rfl := Option.some.inj hasked
      have hgiven : system.control.handle = true → r.handle ≠ 0 := by
        intro hopen
        rcases hgains hopen with hbefore | ⟨reopened, hsome, -⟩
        · exact h.handle.1 hbefore
        · rw [hreopened] at hsome
          cases hsome
      exact ⟨cleanupUsb_tied interfaceNumber h.sound hwaking hgiven h.held h.closing, nofun⟩
  | some reopened =>
      rw [hreopened] at hasked
      have htorn := reopened_torn h.waking hreopened
      have hnull : r.handle = 0 := by
        by_contra hheld
        exact Bool.false_ne_true (htorn.1.symm.trans (h.handle.2 hheld))
      obtain ⟨hgives, hsound, hheld, hclosing, hfinds⟩ := h.reopen hnull hasked
      -- there was no handle before, so one that is there now was just opened
      have hgiven : system.control.handle = true → t.handle ≠ 0 := by
        intro hopen
        rcases hgains hopen with hbefore | ⟨other, hsome, hopens⟩
        · exact absurd (htorn.1.symm.trans hbefore) Bool.false_ne_true
        · rw [hreopened] at hsome
          exact hgives (Option.some.inj hsome ▸ hopens)
      refine ⟨cleanupUsb_tied interfaceNumber hsound hwaking hgiven hheld hclosing,
        fun other hother => ⟨htorn, hnull, fun hopens => ?_⟩⟩
      obtain rfl := Option.some.inj hother
      exact hfinds hopens

/-- **A step of the daemon** keeps the handles tied, and opens the reader only when nothing is
left. -/
theorem Tied.daemon (h : Tied r) {action : Action} {handle : ℕ} {interfaceNumber : ℤ}
    (hstep : recoveryStep env r (.daemon action handle interfaceNumber) = some r') :
    Tied r' ∧ ∀ reopened, r.system.reopened action = some reopened →
      r.system.TornDown ∧ r.handle = 0 ∧ (reopened.opens = true → FindsNothing r) := by
  obtain ⟨system, hsystem, hrest⟩ := Option.bind_eq_some_iff.1 hstep
  obtain ⟨t, hasked, hcleanup⟩ := Option.bind_eq_some_iff.1 hrest
  obtain ⟨⟨r₂, hr₂, -, htied⟩, hfinds⟩ := h.cleanup hsystem hasked interfaceNumber
  obtain rfl := Option.some.inj (hr₂.symm.trans hcleanup)
  exact ⟨htied, hfinds⟩

/-- **The library never stands in the way of the daemon**, as long as opening the reader comes to
what it can come to. -/
theorem Tied.goes_on (h : Tied r) {action : Action} {system : System}
    (hsystem : step env r.system action = some system) (handle : ℕ) (interfaceNumber : ℤ)
    (hfits : ∀ reopened usb, r.system.reopened action = some reopened →
      drainUsbCloses r.usb = .ok usb → reopened.fits usb handle = true) :
    ∃ r', recoveryStep env r (.daemon action handle interfaceNumber) = some r' ∧
      r'.system = system := by
  obtain ⟨t, hasked⟩ : ∃ t, reopenWhenAsked r action handle = some t := by
    unfold reopenWhenAsked
    cases hreopened : r.system.reopened action with
    | none => exact ⟨r, rfl⟩
    | some reopened =>
        obtain ⟨usb, hdrain, -, -⟩ := drain_ok h.sound fun _ hmem => hmem
        have hfit := hfits reopened usb hreopened hdrain
        dsimp only
        rw [reopenUsb, hdrain]
        dsimp only [Except.toOption, Option.bind_some]
        rw [hfit, Bool.not_true, if_neg Bool.false_ne_true]
        split_ifs <;> exact ⟨_, rfl⟩
  obtain ⟨⟨r', hcleanup, hsystem', -⟩, -⟩ := h.cleanup hsystem hasked interfaceNumber
  refine ⟨r', ?_, hsystem'⟩
  rw [recoveryStep, hsystem, Option.bind_some, hasked, Option.bind_some, hcleanup]

/-- **What one step keeps.** -/
theorem Tied.step (h : Tied r) {action : RecoveryAction}
    (hstep : recoveryStep env r action = some r') : Tied r' := by
  cases action with
  | daemon action handle interfaceNumber => exact (h.daemon hstep).1
  | usb action =>
      rw [recoveryStep] at hstep
      split_ifs at hstep with hfree
      obtain ⟨usb, husb, rfl⟩ := Option.map_eq_some_iff.1 hstep
      obtain ⟨hsound, hshrinks⟩ := unattended_shrinks h.sound hfree husb
      exact h.shrink hsound hshrinks

theorem recoveryStarted_tied (h : RecoveryStarted r) : Tied r := by
  obtain ⟨file, rfl | ⟨handle, hnonnull, rfl⟩⟩ := h
  · exact ⟨UsbState.initial_sound, started_waking ⟨false, file, rfl⟩,
      iff_of_false Bool.false_ne_true (not_not.2 rfl), fun hheld => absurd rfl hheld, nofun⟩
  · have hopens : UsbAction.enabled .initial (.opens handle) = true :=
      decide_eq_true ⟨hnonnull, nofun⟩
    obtain ⟨usb, hperform, hsound⟩ := UsbState.initial_sound.perform (fun _ hmem => hmem) hopens
    obtain rfl := Except.ok.inj hperform
    refine ⟨hsound, started_waking ⟨true, file, rfl⟩, iff_of_true rfl hnonnull,
      fun _ => ⟨List.mem_cons_self, nofun⟩, fun other hmem => Or.inl ?_⟩
    exact List.mem_singleton.1 hmem

theorem tied_of_reachable
    (h : Transition.Reachable (recoveryStep env) RecoveryStarted r) : Tied r :=
  Transition.Reaches.invariant (fun _ => recoveryStarted_tied)
    (fun _ htied _ hstep => htied.step hstep) h

end Tie

/-- **Recovery loses no wake-up and leaves no handle behind.**  In every run a suspended session
that waits for an event is closed, and the system sleeps or the event that wakes the reader up is in
the queue.  Whenever the reader is opened again, there is no session and no handle, and no earlier
handle is left to be closed. -/
theorem session_recovery {env : Environment} {r : RecoveryState}
    (h : Transition.Reachable (recoveryStep env) RecoveryStarted r) :
    (r.system.control.pc = .getEvent → r.system.control.suspended = true →
      r.system.TornDown ∧
        (r.system.storage.sleeping = true ∨ .resume ∈ r.system.eventQueue)) ∧
    ∀ (action : Action) (handle : ℕ) (interfaceNumber : ℤ) (r' : RecoveryState)
      (reopened : Reopen), r.system.reopened action = some reopened → reopened.opens = true →
        recoveryStep env r (.daemon action handle interfaceNumber) = some r' →
          r.system.TornDown ∧ r.handle = 0 ∧ ∃ usb, drainUsbCloses r.usb = .ok usb ∧
            hasDeferredUsbCloses usb = false ∧ usb.opened = [] := by
  have htied := tied_of_reachable h
  refine ⟨fun hpc => htied.waking.rests_getEvent hpc, fun action handle interfaceNumber r'
    reopened hreopened hopens hstep => ?_⟩
  obtain ⟨htorn, hnull, hfinds⟩ := (htied.daemon hstep).2 reopened hreopened
  exact ⟨htorn, hnull, hfinds hopens⟩

/-- The system goes to sleep while a transfer is in flight, and wakes up. -/
def sleptThrough : List RecoveryAction :=
  List.replicate 4 (.daemon smoothControl 0 0) ++
    [.usb .construct, .usb (.start 0 7 true true), .usb (.submit 0 true),
      .daemon (.prepareForSleep true) 0 0, .daemon smoothControl 0 0,
      .daemon (.prepareForSleep false) 0 0, .usb (.callback 0)]

/-- The reader that slept is opened again with a new handle. -/
theorem session_recovery_slept :
    ∃ r r', Transition.run (recoveryStep homeEnvironment)
        ⟨.start true none, { UsbState.initial with opened := [7] }, 7⟩ sleptThrough = some r ∧
      recoveryStep homeEnvironment r (.daemon smoothControl 8 0) = some r' ∧ r'.handle = 8 ∧
      (r.system.storage.sleeping = true ∨ .resume ∈ r.system.eventQueue) ∧
      ∃ usb, drainUsbCloses r.usb = .ok usb ∧ hasDeferredUsbCloses usb = false ∧
        usb.opened = [] := by
  obtain ⟨r, r', hrun, hstep, hhandle, hpc, hsuspended, hreopened⟩ : ∃ r r',
      Transition.run (recoveryStep homeEnvironment)
          ⟨.start true none, { UsbState.initial with opened := [7] }, 7⟩ sleptThrough = some r ∧
        recoveryStep homeEnvironment r (.daemon smoothControl 8 0) = some r' ∧ r'.handle = 8 ∧
        r.system.control.pc = .getEvent ∧ r.system.control.suspended = true ∧
        r.system.reopened smoothControl = some .opened :=
    ⟨_, _, rfl, rfl, rfl, rfl, rfl, rfl⟩
  have hreach : Transition.Reachable (recoveryStep homeEnvironment) RecoveryStarted r :=
    Transition.reaches_of_run ⟨none, Or.inr ⟨7, by decide, rfl⟩⟩ hrun
  obtain ⟨hwakes, hopens⟩ := session_recovery hreach
  exact ⟨r, r', hrun, hstep, hhandle, (hwakes hpc hsuspended).2,
    (hopens smoothControl 8 0 r' .opened hreopened rfl hstep).2.2⟩

end Fpc
