/-
**What a turn of an operation or of the control task can do.**

As for the device, every function of the two tasks is read once, here, and the changes it makes to
what the tasks share are listed.

Main definitions:

* `Fpc.OperationTurn` — the changes of an enroll or verify task;
* `Fpc.Steady` — nothing that is shared has changed;
* `Fpc.Fetched`, `Fpc.ControlTurn` — the changes of the control task, with the event it took;
* `Fpc.StepTurn` — what a step of the whole daemon does.

Main results:

* `Fpc.stepControl_runs` — what a turn of the control task runs;
* `Fpc.stepOperation_turn`, `Fpc.stepControl_turn`, `Fpc.step_turn` — **a turn makes one of the
  changes**.
-/

import FpcReader.Daemon.DeviceTurn

set_option relaxedAutoImplicit false
set_option autoImplicit false

namespace Fpc

/-! ### Operations -/

/-- The events that end an operation. -/
def FPCEvent.ends : FPCEvent → Bool
  | .enrollVerifyStop | .transportFailed => true
  | _ => false

/-- Nothing has changed but records. -/
def Stored (s t : System) : Prop := t = { s with store := t.store } ∧ s.storage.SameFlags t.storage

theorem Stored.refl (s : System) : Stored s s := ⟨rfl, rfl⟩

theorem Stored.quiet {s t : System} (h : Stored s t) : Quiet s t := by
  obtain ⟨heq, hflags⟩ := h
  rw [heq]
  exact ⟨hflags, rfl, rfl, rfl, rfl, rfl, rfl, rfl, rfl, rfl, rfl, rfl, [], rfl, by simp⟩

/-- An operation has used the records of its user, or has not. -/
def Uses (s : System) (op : EnrollVerify) (t : System) : Prop :=
  Stored s t ∨ Stored (s.access op.user op.client) t

/-- The changes a turn of an operation makes. -/
inductive OperationTurn (s : System) (op : EnrollVerify) : System → Prop
  | entered : op.pc = .enroll → OperationTurn s op
      ((System.putEvent { s with imageQueue := [] } .startSensor).setOperation
        { op with pc := .arming })
  | armed : op.pc = .arming → OperationTurn s op (s.setOperation { op with pc := .waitImage })
  | skipped {event : FPCEvent} {rest : List FPCEvent} : op.pc = .waitImage →
      s.imageQueue = event :: rest → event.ends = false →
        OperationTurn s op { s with imageQueue := rest }
  | accepted {generation : ℕ} {origin : Origin} {requested : Option ℕ} {rest : List FPCEvent}
      {t : System} {status : String} {terminal : Bool} : op.pc = .waitImage →
      s.imageQueue = .image generation origin requested :: rest → generation = op.generation →
        Uses (System.record { s with imageQueue := rest }
          (.accepted op.id op.generation requested)) op t →
          OperationTurn s op (sendSignal t op status terminal)
  | stopped {rest : List FPCEvent} : op.pc = .waitImage →
      s.imageQueue = .enrollVerifyStop :: rest →
        OperationTurn s op (stopOperation { s with imageQueue := rest } op)
  | failed {rest : List FPCEvent} {status : String} : op.pc = .waitImage →
      s.imageQueue = .transportFailed :: rest →
        OperationTurn s op (sendSignal { s with imageQueue := rest } op status true)
  | next : op.pc = .sending false → OperationTurn s op (nextCapture s op)
  | ended : op.pc = .sending true → OperationTurn s op (stopOperation s op)
  | finished : op.pc = .stopping → OperationTurn s op (s.finalizeOperation op)

/-- An accepted image leads to a signal, after the records have been used or not. -/
theorem acceptImage_cases (env : Environment) (disk : Disk) (s : System) (op : EnrollVerify)
    (requested : Option ℕ) (scan : Scan) :
    ∃ t status terminal, acceptImage env disk s op requested scan =
        sendSignal t op status terminal ∧
      Uses (s.record (.accepted op.id op.generation requested)) op t := by
  set base := s.record (.accepted op.id op.generation requested) with hbase
  have hplain : ∀ status terminal, ∃ t status' terminal',
      sendSignal base op status terminal = sendSignal t op status' terminal' ∧
        Uses base op t := fun status terminal =>
    ⟨base, status, terminal, rfl, Or.inl (.refl base)⟩
  unfold acceptImage
  rw [← hbase]
  cases scan with
  | unprepared => exact hplain _ _
  | prepared query enrollment =>
      dsimp only
      split
      · have hstored : Stored (base.access op.user op.client)
            (base.callStorage env disk op.client (.verify op.user op.name query)).2 :=
          ⟨rfl, base.store.call_storage env.cipher disk (.verify op.user op.name query)⟩
        unfold verifyScan
        dsimp only
        split <;> exact ⟨_, _, _, rfl, Or.inr hstored⟩
      · cases enrollment with
        | missing => exact hplain _ _
        | status code =>
            dsimp only [enrollScan]
            split <;> exact hplain _ _
        | rejected => exact hplain _ _
        | accepted => exact hplain _ _
        | unfinished => exact hplain _ _
        | complete native =>
            have hstored : Stored (base.access op.user op.client)
                (base.callStorage env disk op.client
                  (.insertOrUpdate ⟨op.user, op.name, native, 0⟩)).2 :=
              ⟨rfl, base.store.call_storage env.cipher disk
                (.insertOrUpdate ⟨op.user, op.name, native, 0⟩)⟩
            dsimp only [enrollScan]
            split <;> exact ⟨_, _, _, rfl, Or.inr hstored⟩

/-- **A turn of an operation makes one of the changes.** -/
theorem stepOperation_turn {env : Environment} {disk : Disk} {s s' : System} {op : EnrollVerify}
    {scan : Scan} (h : stepOperation env disk s op scan = some s') : OperationTurn s op s' := by
  unfold stepOperation at h
  cases hpc : op.pc with
  | enroll =>
      rw [hpc] at h
      obtain rfl := Option.some.inj h
      exact .entered hpc
  | arming =>
      rw [hpc] at h
      obtain rfl := Option.some.inj h
      exact .armed hpc
  | waitImage =>
      rw [hpc] at h
      cases hqueue : s.imageQueue with
      | nil => simp [hqueue] at h
      | cons event rest =>
          rw [hqueue] at h
          obtain rfl := Option.some.inj h
          unfold parseImage
          cases event with
          | image generation origin requested =>
              dsimp only
              by_cases hgen : generation = op.generation
              · rw [if_neg (not_not.2 hgen)]
                obtain ⟨t, status, terminal, heq, hquiet⟩ :=
                  acceptImage_cases env disk { s with imageQueue := rest } op requested scan
                rw [heq]
                exact .accepted hpc hqueue hgen hquiet
              · rw [if_pos hgen]
                exact .skipped hpc hqueue rfl
          | enrollVerifyStop => exact .stopped hpc hqueue
          | transportFailed => exact .failed hpc hqueue
          | _ => exact .skipped hpc hqueue rfl
  | sending terminal =>
      rw [hpc] at h
      obtain rfl := Option.some.inj h
      cases terminal with
      | true => exact .ended hpc
      | false => exact .next hpc
  | stopping =>
      rw [hpc] at h
      obtain rfl := Option.some.inj h
      exact .finished hpc

/-! ### The control task -/

/-- Nothing the other tasks see has changed, nor has the generation the sensor was armed for. -/
structure Shared (s s' : System) : Prop where
  captureGeneration : s'.storage.captureGeneration = s.storage.captureGeneration
  operationActive : s'.storage.operationActive = s.storage.operationActive
  sleeping : s'.storage.sleeping = s.storage.sleeping
  eventQueue : s'.eventQueue = s.eventQueue
  imageQueue : s'.imageQueue = s.imageQueue
  device : s'.device = s.device
  gates : s'.gates = s.gates
  listens : s'.listens = s.listens
  operations : s'.operations = s.operations
  armed : s'.control.captureGeneration = s.control.captureGeneration
  power : s'.power = s.power
  outstanding : s'.outstanding = s.outstanding
  nextTask : s'.nextTask = s.nextTask
  calls : s'.calls = s.calls
  log : s'.log = s.log

/-- The same, with the control task still running. -/
structure Steady (s s' : System) : Prop extends Shared s s' where
  running : s'.control.pc ≠ .finished

/-- The control task has taken an event, or it does not wait for one. -/
inductive Fetched (s : System) : Option FPCEvent → System → Prop
  | waited : s.control.pc ≠ .getEvent → Fetched s none s
  | event {event : FPCEvent} {rest : List FPCEvent} : s.control.pc = .getEvent →
      s.eventQueue = event :: rest → Fetched s (some event) { s with eventQueue := rest }

/-- What the control task goes on with. -/
def ControlPc.next : ControlPc → Option ControlThen
  | .start next | .transfer next | .sleep next | .put next => some next
  | _ => none

/-- The control task has waited long enough for an operation to end. -/
def Expires (s : System) (input : ControlInput) : Prop :=
  s.control.pc.next = some .resumeRecovery ∧ input.expired = true

/-- The control task gives up: the firmware is not supported, or the reader did not come back. -/
def GivesUp (s : System) (input : ControlInput) : Prop :=
  (s.control.pc.next = some .parseState ∧ input.state = .mismatch) ∨
    (s.control.pc.next = some .reopen ∧ input.reopened = .missing ∧
      6 ≤ s.control.recoveryAttempt) ∨
    (s.control.pc.next = some .scheduleRecovery ∧ 6 ≤ s.control.recoveryAttempt)

/-- The generation the sensor is armed for becomes the current one. -/
def System.arm (t : System) : System :=
  { t with control := { t.control with captureGeneration := t.storage.captureGeneration } }

/-- The changes a turn of the control task makes. -/
inductive ControlTurn (s : System) (input : ControlInput) : System → Prop
  | steady {event : Option FPCEvent} {t s' : System} : Fetched s event t →
      event ≠ some .suspend → event ≠ some .transportFailed → event ≠ some .startSensor →
        event ≠ some .tlsReady → Steady t s' → ControlTurn s input s'
  | asked {event : Option FPCEvent} {t s' : System} : Fetched s event t →
      event ≠ some .suspend → event ≠ some .transportFailed → event ≠ some .startSensor →
        t.captureCurrent = true →
          Steady { t with outstanding := t.outstanding ++ [t.storage.captureGeneration] } s' →
            ControlTurn s input s'
  | ignored {t s' : System} : Fetched s (some .startSensor) t → Steady t s' → ControlTurn s input s'
  | armed {t s' : System} : Fetched s (some .startSensor) t → t.control.ready = true →
      t.control.handle = true → t.storage.sleeping = false →
        Steady t.arm s' → ControlTurn s input s'
  | touched {event : WireEvent} {origin : Origin} {t s' : System} :
      Fetched s (some (.fpcEvent event origin)) t →
        Steady (t.putImage (.fingerDown t.control.captureGeneration)) s' → ControlTurn s input s'
  | handed {origin : Origin} {requested : Option ℕ} {t s' : System} :
      Fetched s (some (.fpcEvent (.image requested) origin)) t → t.captureCurrent = true →
        t.control.staleCapture = false →
          Steady (t.putImage (.image t.control.captureGeneration origin requested)) s' →
            ControlTurn s input s'
  | told {event : Option FPCEvent} {t s' : System} : Fetched s event t → t.device.alive = true →
      t.storage.operationActive = true → Steady (t.putImage .transportFailed) s' →
        ControlTurn s input s'
  | cleaned {event : Option FPCEvent} {t s' : System} : Fetched s event t →
      t.device.alive = false ∨ t.storage.operationActive = false ∨ Expires s input →
        Steady (cleanupDevice t false) s' → ControlTurn s input s'
  | cleanedUp {event : Option FPCEvent} {t u : System} : Fetched s event t →
      t.device.alive = false ∨ t.storage.operationActive = false ∨ Expires s input →
        Shared (cleanupDevice t false) u → ControlTurn s input (finishControl u)
  | gaveUp {t : System} : Fetched s none t → GivesUp s input →
      ControlTurn s input (finishControl t)
  | ready {env : Environment} {t s' : System} : Fetched s (some .tlsReady) t →
      tlsReady env t = some s' → ControlTurn s input s'

theorem Shared.refl (s : System) : Shared s s :=
  ⟨rfl, rfl, rfl, rfl, rfl, rfl, rfl, rfl, rfl, rfl, rfl, rfl, rfl, rfl, rfl⟩

theorem Shared.trans {a b c : System} (h : Shared a b) (h' : Shared b c) : Shared a c where
  captureGeneration := h'.captureGeneration.trans h.captureGeneration
  operationActive := h'.operationActive.trans h.operationActive
  sleeping := h'.sleeping.trans h.sleeping
  eventQueue := h'.eventQueue.trans h.eventQueue
  imageQueue := h'.imageQueue.trans h.imageQueue
  device := h'.device.trans h.device
  gates := h'.gates.trans h.gates
  listens := h'.listens.trans h.listens
  operations := h'.operations.trans h.operations
  armed := h'.armed.trans h.armed
  power := h'.power.trans h.power
  outstanding := h'.outstanding.trans h.outstanding
  nextTask := h'.nextTask.trans h.nextTask
  calls := h'.calls.trans h.calls
  log := h'.log.trans h.log

/-- Fields of the control task that only it looks at may change. -/
theorem shared_control {s : System} {c : Control}
    (h : c.captureGeneration = s.control.captureGeneration) : Shared s { s with control := c } :=
  ⟨rfl, rfl, rfl, rfl, rfl, rfl, rfl, rfl, rfl, h, rfl, rfl, rfl, rfl, rfl⟩

theorem Shared.setControl {s t : System} (h : Shared s t) {pc : ControlPc}
    (hpc : pc ≠ .finished) : Steady s (t.setControl pc) :=
  ⟨h.trans (shared_control rfl), hpc⟩

theorem Shared.getEvent {s t : System} (h : Shared s t) : Steady s t.getEvent :=
  h.setControl nofun

theorem Shared.transferThen {s t : System} (h : Shared s t) (next : ControlThen) :
    Steady s (t.transferThen next) :=
  h.setControl nofun

theorem Shared.sleepThen {s t : System} (h : Shared s t) (next : ControlThen) :
    Steady s (t.sleepThen next) :=
  h.setControl nofun

theorem Shared.putThen {s t : System} (h : Shared s t) (next : ControlThen) :
    Steady s (t.setControl (.put next)) :=
  h.setControl nofun

theorem Shared.steady {a b c : System} (h : Shared a b) (h' : Steady b c) : Steady a c :=
  ⟨h.trans h'.toShared, h'.running⟩

theorem Shared.putImage {s t : System} (h : Shared s t) (event : FPCEvent) :
    Shared (s.putImage event) (t.putImage event) :=
  { h with imageQueue := by simp only [System.putImage]; rw [h.imageQueue] }

theorem Shared.cleanupDevice {s t : System} (h : Shared s t) :
    Shared (cleanupDevice s false) (cleanupDevice t false) :=
  { h with
    captureGeneration := by
      show t.storage.captureGeneration + 1 = s.storage.captureGeneration + 1
      rw [h.captureGeneration]
    operationActive := h.operationActive
    sleeping := h.sleeping
    eventQueue := rfl
    imageQueue := rfl
    armed := h.armed
    outstanding := rfl }

section Control

variable {input : ControlInput} {s t u : System} {event : Option FPCEvent}

theorem scheduleRecovery_cases (t : System) :
    (6 ≤ t.control.recoveryAttempt ∧ scheduleRecovery t = finishControl t) ∨
      Steady t (scheduleRecovery t) := by
  unfold scheduleRecovery
  split
  · rename_i hattempt
    exact Or.inl ⟨hattempt, rfl⟩
  · refine Or.inr (Shared.sleepThen ?_ _)
    exact shared_control rfl

/-- The session is taken down, and perhaps the whole device. -/
theorem beginRecovery_turn (hf : Fetched s event t) (hshared : Shared t u)
    (hwhy : t.device.alive = false ∨ t.storage.operationActive = false ∨ Expires s input) :
    ControlTurn s input (beginRecovery u) := by
  have hclean := hshared.cleanupDevice
  set v := { cleanupDevice u false with control := { (cleanupDevice u false).control with
    suspended := (cleanupDevice u false).storage.sleeping } } with hv
  have hshared' : Shared (cleanupDevice t false) v := hclean.trans (shared_control rfl)
  show ControlTurn s input (if v.control.suspended then v.getEvent else scheduleRecovery v)
  split
  · exact .cleaned hf hwhy hshared'.getEvent
  · rcases scheduleRecovery_cases v with ⟨-, heq⟩ | hsteady
    · rw [heq]
      exact .cleanedUp hf hwhy hshared'
    · exact .cleaned hf hwhy (hshared'.steady hsteady)

theorem notifyOperationFailed_turn (hf : Fetched s event t) (hshared : Shared t u) :
    ControlTurn s input (notifyOperationFailed u) := by
  set v := ({ u with control := { u.control with ready := false } } : System).setStorage
    { u.storage with readerReady := false } with hv
  have hshared' : Shared t v :=
    hshared.trans ⟨rfl, rfl, rfl, rfl, rfl, rfl, rfl, rfl, rfl, rfl, rfl, rfl, rfl, rfl, rfl⟩
  show ControlTurn s input (if !v.device.alive || !v.storage.operationActive then beginRecovery v
    else (v.putImage .transportFailed).setControl (.put .yieldRecovery))
  rw [hshared'.device, hshared'.operationActive]
  cases halive : t.device.alive with
  | false => exact beginRecovery_turn hf hshared' (Or.inl halive)
  | true =>
      cases hactive : t.storage.operationActive with
      | false => exact beginRecovery_turn hf hshared' (Or.inr (Or.inl hactive))
      | true => exact .told hf halive hactive ((hshared'.putImage _).putThen _)

/-- The event the control task took does not call for anything but a change of its own. -/
def Harmless (event : Option FPCEvent) : Prop :=
  event ≠ some .suspend ∧ event ≠ some .transportFailed ∧ event ≠ some .startSensor ∧
    event ≠ some .tlsReady

theorem harmless_none : Harmless none := ⟨nofun, nofun, nofun, nofun⟩

theorem harmless_wire (event : WireEvent) (origin : Origin) :
    Harmless (some (.fpcEvent event origin)) := ⟨nofun, nofun, nofun, nofun⟩

theorem ControlTurn.of_steady (hf : Fetched s event t) (he : Harmless event) (h : Steady t u) :
    ControlTurn s input u :=
  .steady hf he.1 he.2.1 he.2.2.1 he.2.2.2 h

theorem initReader_turn (hf : Fetched s event t) (he : Harmless event) (h : Shared t u) :
    ControlTurn s input (initReader input u) := by
  unfold initReader
  split
  · exact notifyOperationFailed_turn hf h
  · exact .of_steady hf he (h.transferThen _)

/-- Opening the reader again; giving up needs six attempts. -/
theorem reopen_turn (hf : Fetched s event t) (he : Harmless event) (h : Shared t u)
    (hmissing : input.reopened = .missing → ControlTurn s input (scheduleRecovery u)) :
    ControlTurn s input (reopen input u) := by
  have hopened : Shared t { u with control := { u.control with handle := true } } :=
    h.trans (shared_control rfl)
  unfold reopen
  cases hreopened : input.reopened with
  | deferred => exact .of_steady hf he (h.sleepThen _)
  | missing => exact hmissing hreopened
  | unusable => exact initReader_turn hf he hopened
  | opened => exact initReader_turn hf he hopened

theorem captureCurrent_eq (h : Shared t u) (hactive : u.control.captureActive =
    t.control.captureActive) : u.captureCurrent = t.captureCurrent := by
  rw [System.captureCurrent, System.captureCurrent, hactive, h.armed, h.captureGeneration]

theorem getImage_turn (hf : Fetched s event t) (he : Harmless event) (h : Shared t u)
    (hactive : u.control.captureActive = t.control.captureActive) :
    ControlTurn s input (getImage u) := by
  unfold getImage
  rw [captureCurrent_eq h hactive]
  cases hcurrent : t.captureCurrent with
  | false => exact .of_steady hf he h.getEvent
  | true =>
      refine .asked hf he.1 he.2.1 he.2.2.1 hcurrent (Shared.transferThen ?_ _)
      exact { h with outstanding := by rw [h.outstanding, h.captureGeneration] }

theorem delayGetImage_turn (hf : Fetched s event t) (he : Harmless event) (h : Shared t u)
    (hactive : u.control.captureActive = t.control.captureActive) :
    ControlTurn s input (delayGetImage input u) := by
  unfold delayGetImage
  split
  · exact .of_steady hf he h.getEvent
  · split
    · exact getImage_turn hf he h hactive
    · exact .of_steady hf he (h.sleepThen _)

theorem submitArm_steady (t : System) : Steady t (submitArm t) := by
  unfold submitArm
  split
  · exact (Shared.refl t).getEvent
  · exact (Shared.refl t).transferThen _

theorem startSensor_steady (input : ControlInput) (t : System) :
    Steady t.arm (startSensor input t) := by
  set u := { t with control := { t.control with
    captureActive := true, captureGeneration := t.storage.captureGeneration } } with hu
  have hshared : Shared t.arm u := shared_control rfl
  show Steady t.arm (if input.recent then u.sleepThen .submitArm else submitArm u)
  split
  · exact hshared.sleepThen _
  · exact hshared.steady (submitArm_steady u)

/-! ### Events -/

theorem handleFingerDown_turn {wire : WireEvent} {origin : Origin}
    (hf : Fetched s (some (.fpcEvent wire origin)) t) :
    ControlTurn s input (handleFingerDown input t) := by
  unfold handleFingerDown
  split
  · dsimp only
    split
    · exact delayGetImage_turn hf (harmless_wire _ _) (shared_control rfl) rfl
    · refine .touched hf (Shared.putThen (Shared.putImage ?_ _) _)
      exact shared_control rfl
  · exact .of_steady hf (harmless_wire _ _) (Shared.refl t).getEvent

theorem handleImage_turn {origin : Origin} {requested : Option ℕ}
    (hf : Fetched s (some (.fpcEvent (.image requested) origin)) t) :
    ControlTurn s input (handleImage input t origin requested) := by
  have he := harmless_wire (.image requested) origin
  unfold handleImage
  cases hcurrent : t.captureCurrent with
  | false => exact .of_steady hf he (Shared.refl t).getEvent
  | true =>
      cases hstale : t.control.staleCapture with
      | true =>
          -- the sensor is armed again for the generation it is armed for
          have hsame : t.control.captureGeneration = t.storage.captureGeneration := by
            simpa [System.captureCurrent] using (Bool.and_eq_true_iff.1 hcurrent).2
          set u := { t with control := { t.control with staleCapture := false } } with hu
          have hshared : Shared t u.arm := shared_control hsame.symm
          exact .of_steady hf he (hshared.steady (startSensor_steady input u))
      | false =>
          refine .handed hf hcurrent hstale (Shared.putThen (Shared.putImage ?_ _) _)
          exact shared_control rfl

theorem handleWireEvent_turn {wire : WireEvent} {origin : Origin}
    (hf : Fetched s (some (.fpcEvent wire origin)) t) :
    ControlTurn s input (handleWireEvent input t origin wire) := by
  have he := harmless_wire wire origin
  have hget : ControlTurn s input t.getEvent := .of_steady hf he (Shared.refl t).getEvent
  have hfail : ControlTurn s input (notifyOperationFailed t) :=
    notifyOperationFailed_turn hf (.refl t)
  cases wire with
  | initResult result =>
      cases result with
      | none => exact hfail
      | some result =>
          have hshared : Shared t (t.setStorage
              { t.storage with hardwareId := result.hardwareId }) :=
            ⟨rfl, rfl, rfl, rfl, rfl, rfl, rfl, rfl, rfl, rfl, rfl, rfl, rfl, rfl, rfl⟩
          show ControlTurn s input (handleInitResult t (some result))
          unfold handleInitResult
          dsimp only
          split
          · exact notifyOperationFailed_turn hf hshared
          · exact .of_steady hf he (hshared.transferThen _)
  | armResult success =>
      show ControlTurn s input (if !success then notifyOperationFailed t else t.getEvent)
      split
      · exact hfail
      · exact hget
  | deadPixelReport defects =>
      cases defects with
      | none => exact hfail
      | some defects =>
          have hshared : Shared t (t.setStorage { t.storage with deadPixels := defects }) :=
            ⟨rfl, rfl, rfl, rfl, rfl, rfl, rfl, rfl, rfl, rfl, rfl, rfl, rfl, rfl, rfl⟩
          exact .of_steady hf he hshared.getEvent
  | tls => exact hfail
  | unknown => exact hfail
  | fingerDown => exact handleFingerDown_turn hf
  | image requested => exact handleImage_turn hf
  | _ => exact hget

theorem handleEvent_turn {env : Environment} {s' : System} {e : FPCEvent}
    (hf : Fetched s (some e) t) (h : handleEvent env input t e = some s') :
    ControlTurn s input s' := by
  cases e with
  | tlsReady => exact .ready hf h
  | fpcEvent wire origin =>
      obtain rfl := Option.some.inj h
      exact handleWireEvent_turn hf
  | startSensor =>
      obtain rfl := Option.some.inj h
      split
      · exact .ignored hf (Shared.refl t).getEvent
      · rename_i hready
        simp only [Bool.or_eq_true, Bool.not_eq_true', not_or, Bool.not_eq_false,
          Bool.not_eq_true] at hready
        exact .armed hf hready.1.1 hready.1.2 hready.2 (startSensor_steady input t)
  | stopSensor =>
      obtain rfl := Option.some.inj h
      have hshared : Shared t { t with control := { t.control with captureActive := false } } :=
        shared_control rfl
      have hstop : Shared t { t with control := { t.control with captureActive := false } } :=
        hshared
      split
      · exact .of_steady hf ⟨nofun, nofun, nofun, nofun⟩ hshared.getEvent
      · exact .of_steady hf ⟨nofun, nofun, nofun, nofun⟩ (hstop.transferThen _)
  | transportFailed =>
      obtain rfl := Option.some.inj h
      exact notifyOperationFailed_turn hf (.refl t)
  | suspend =>
      obtain rfl := Option.some.inj h
      exact notifyOperationFailed_turn hf (shared_control rfl)
  | resume =>
      obtain rfl := Option.some.inj h
      have he : Harmless (some .resume) := ⟨nofun, nofun, nofun, nofun⟩
      split
      · exact .of_steady hf he (Shared.refl t).getEvent
      · refine reopen_turn hf he (shared_control rfl) fun _ => ?_
        unfold scheduleRecovery
        rw [if_neg (by simp)]
        refine .of_steady hf he (Shared.sleepThen ?_ _)
        exact shared_control rfl
  | fingerDown generation =>
      obtain rfl := Option.some.inj h
      exact .of_steady hf ⟨nofun, nofun, nofun, nofun⟩ (Shared.refl t).getEvent
  | image generation origin requested =>
      obtain rfl := Option.some.inj h
      exact .of_steady hf ⟨nofun, nofun, nofun, nofun⟩ (Shared.refl t).getEvent
  | enrollVerifyStop =>
      obtain rfl := Option.some.inj h
      exact .of_steady hf ⟨nofun, nofun, nofun, nofun⟩ (Shared.refl t).getEvent

/-! ### Turns -/

theorem controlThen_turn {next : ControlThen} (hf : Fetched s none s)
    (hnext : s.control.pc.next = some next) : ControlTurn s input (controlThen input s next) := by
  have he := harmless_none
  have htransfer : ∀ next, ControlTurn s input (s.transferThen next) := fun next =>
    .of_steady hf he ((Shared.refl s).transferThen next)
  have hsleep : ∀ next, ControlTurn s input (s.sleepThen next) := fun next =>
    .of_steady hf he ((Shared.refl s).sleepThen next)
  have hschedule : (6 ≤ s.control.recoveryAttempt → GivesUp s input) →
      ControlTurn s input (scheduleRecovery s) := by
    intro hgive
    rcases scheduleRecovery_cases s with ⟨hattempt, heq⟩ | hsteady
    · rw [heq]
      exact .gaveUp hf (hgive hattempt)
    · exact .steady hf nofun nofun nofun nofun hsteady
  cases next with
  | init => exact initReader_turn hf he (.refl s)
  | scheduleRecovery => exact hschedule fun h => Or.inr (Or.inr ⟨hnext, h⟩)
  | reopen =>
      exact reopen_turn hf he (.refl s) fun hmissing =>
        hschedule fun h => Or.inr (Or.inl ⟨hnext, hmissing, h⟩)
  | getState => exact htransfer _
  | parseState =>
      show ControlTurn s input (parseState input s)
      unfold parseState
      cases hstate : input.state with
      | incomplete => exact notifyOperationFailed_turn hf (.refl s)
      | mismatch => exact .gaveUp hf (Or.inl ⟨hnext, hstate⟩)
      | supported => exact htransfer _
  | spawn =>
      refine .of_steady hf he (Shared.getEvent ?_)
      exact shared_control rfl
  | getEvent => exact .of_steady hf he (Shared.refl s).getEvent
  | parseTlsKey =>
      show ControlTurn s input (parseTlsKey input s)
      unfold parseTlsKey
      cases input.tlsKey with
      | none => exact notifyOperationFailed_turn hf (.refl s)
      | some key =>
          refine .of_steady hf he (Shared.transferThen ?_ _)
          exact shared_control rfl
  | delayGetImage => exact delayGetImage_turn hf he (.refl s) rfl
  | getImage => exact getImage_turn hf he (.refl s) rfl
  | submitArm => exact .steady hf nofun nofun nofun nofun (submitArm_steady s)
  | endEnrollment => exact htransfer _
  | endSession => exact htransfer _
  | yieldRecovery => exact hsleep _
  | resumeRecovery =>
      show ControlTurn s input (resumeRecovery input s)
      unfold resumeRecovery
      cases hactive : s.storage.operationActive with
      | false => exact beginRecovery_turn hf (.refl s) (Or.inr (Or.inl hactive))
      | true =>
          cases hexpired : input.expired with
          | true => exact beginRecovery_turn hf (.refl s) (Or.inr (Or.inr ⟨hnext, hexpired⟩))
          | false => exact hsleep _

/-- What a turn of the control task runs: what follows its wait, the end of the session when a
transfer has failed, or an event. -/
inductive ControlRuns (env : Environment) (s : System) (input : ControlInput) : System → Prop
  | resumed {next : ControlThen} : s.control.pc.next = some next →
      (∀ after, s.control.pc = .transfer after → input.transferred = true) →
        ControlRuns env s input (controlThen input s next)
  | failed {next : ControlThen} : s.control.pc = .transfer next → input.transferred = false →
      ControlRuns env s input (notifyOperationFailed s)
  | event {event : FPCEvent} {rest : List FPCEvent} {s' : System} : s.control.pc = .getEvent →
      s.eventQueue = event :: rest →
        handleEvent env input { s with eventQueue := rest } event = some s' →
          ControlRuns env s input s'

theorem stepControl_runs {env : Environment} {s' : System}
    (h : stepControl env s input = some s') : ControlRuns env s input s' := by
  unfold stepControl at h
  cases hpc : s.control.pc with
  | start next =>
      rw [hpc] at h
      obtain rfl := Option.some.inj h
      exact .resumed (by rw [hpc]; rfl) (by rw [hpc]; nofun)
  | sleep next =>
      rw [hpc] at h
      obtain rfl := Option.some.inj h
      exact .resumed (by rw [hpc]; rfl) (by rw [hpc]; nofun)
  | put next =>
      rw [hpc] at h
      obtain rfl := Option.some.inj h
      exact .resumed (by rw [hpc]; rfl) (by rw [hpc]; nofun)
  | transfer next =>
      rw [hpc] at h
      obtain rfl := Option.some.inj h
      cases htransferred : input.transferred with
      | true => exact .resumed (by rw [hpc]; rfl) fun _ _ => htransferred
      | false => exact .failed hpc htransferred
  | getEvent =>
      rw [hpc] at h
      cases hqueue : s.eventQueue with
      | nil => simp [hqueue] at h
      | cons e rest =>
          rw [hqueue] at h
          exact .event hpc hqueue h
  | finished => simp [hpc] at h

/-- **A turn of the control task makes one of the changes.** -/
theorem stepControl_turn {env : Environment} {s' : System}
    (h : stepControl env s input = some s') : ControlTurn s input s' := by
  cases stepControl_runs h with
  | resumed hnext _ =>
      refine controlThen_turn (.waited fun hpc => ?_) hnext
      rw [hpc] at hnext
      cases hnext
  | failed hpc _ => exact notifyOperationFailed_turn (.waited (by rw [hpc]; nofun)) (.refl s)
  | event hpc hqueue hturn => exact handleEvent_turn (.event hpc hqueue) hturn

end Control

/-! ### Steps -/

/-- What a step of the daemon does. -/
inductive StepTurn (env : Environment) (s : System) : Action → System → Prop
  | arrived {call : Call} : s.device.alive = true → call.key ∉ s.calls →
      StepTurn env s (.call call)
        { s.putMessage (.call call) with calls := call.key :: s.calls }
  | device {input : DeviceInput} {s' : System} : s.device.alive = true → DeviceTurn env s s' →
      StepTurn env s (.device input) s'
  | gate {id : ℕ} {reply : PolkitReply} {gate : PolkitGate} : gate ∈ s.gates →
      s.device.alive = true → StepTurn env s (.gate id reply) (stepGate s gate reply)
  | listen {id : ℕ} {success : Bool} {listen : Listen} {s' : System} : listen ∈ s.listens →
      stepListen s listen success = some s' → StepTurn env s (.listen id success) s'
  | forwarded {id : ℕ} {args : List Name} {listen : Listen} : listen ∈ s.listens →
      s.device.alive = true → listen.forwards args = true →
        StepTurn env s (.nameOwnerChanged id args) (s.putMessage (.nameOwnerChanged args))
  | operation {id : ℕ} {scan : Scan} {disk : Disk} {op : EnrollVerify} {s' : System} :
      op ∈ s.operations → OperationTurn s op s' → StepTurn env s (.operation id scan disk) s'
  | control {input : ControlInput} {s' : System} : s.control.pc ≠ .finished →
      ControlTurn s input s' → StepTurn env s (.control input) s'
  | rawDropped : s.control.session ≠ .closed → StepTurn env s (.rawFrame .tls) s
  | rawQueued {event : WireEvent} : s.control.session ≠ .closed → event.unrequested = true →
      StepTurn env s (.rawFrame event) (s.putEvent (.fpcEvent event .raw))
  | tlsQueued {event : WireEvent} : s.control.session = .established →
      event.unrequested = true →
        StepTurn env s (.tlsFrame event) (s.putEvent (.fpcEvent event .tls))
  | answered {index generation : ℕ} : s.control.session = .established →
      s.outstanding[index]? = some generation →
        StepTurn env s (.answer index)
          (System.putEvent { s with outstanding := s.outstanding.eraseIdx index }
            (.fpcEvent (.image (some generation)) .tls))
  | established : s.control.session = .handshake →
      StepTurn env s .tlsReady
        (System.putEvent { s with control := { s.control with session := .established } }
          .tlsReady)
  | failed : s.control.session ≠ .closed →
      StepTurn env s .transportFailed (s.putEvent .transportFailed)
  | slept : s.power = true →
      StepTurn env s (.prepareForSleep true)
        ((s.setStorage { s.storage with sleeping := true }).bumpGeneration.putEvent .suspend)
  | woke : s.power = true →
      StepTurn env s (.prepareForSleep false)
        ((s.setStorage { s.storage with sleeping := false }).putEvent .resume)

/-- A signal is forwarded by a listener that waits for it. -/
theorem filterSignal_eq_some {s s' : System} {id : ℕ} {args : List Name}
    (h : filterSignal s id args = some s') :
    ∃ listen ∈ s.listens, s.device.alive = true ∧ listen.forwards args = true ∧
      s' = s.putMessage (.nameOwnerChanged args) := by
  unfold filterSignal at h
  split at h
  · cases h
  · rename_i listen hfind
    split at h
    · rename_i hforward
      obtain ⟨halive, hforward⟩ := Bool.and_eq_true_iff.1 hforward
      exact ⟨listen, List.mem_of_find?_eq_some hfind, halive, hforward, (Option.some.inj h).symm⟩
    · cases h

/-- **A step is a turn of a task or something from outside.** -/
theorem step_turn {env : Environment} {s s' : System} {action : Action}
    (h : step env s action = some s') : StepTurn env s action s' := by
  cases action with
  | call call =>
      simp only [step, arrive] at h
      split at h
      · rename_i hnew
        obtain rfl := Option.some.inj h
        exact .arrived hnew.1 hnew.2
      · exact absurd h nofun
  | device input =>
      simp only [step] at h
      split at h
      · rename_i halive
        exact .device halive (stepDevice_turn h)
      · exact absurd h nofun
  | gate id reply =>
      simp only [step, gateTurn] at h
      split at h
      · exact absurd h nofun
      · rename_i gate hfind
        split at h
        · rename_i halive
          obtain rfl := Option.some.inj h
          exact .gate (List.mem_of_find?_eq_some hfind) halive
        · exact absurd h nofun
  | listen id success =>
      simp only [step, listenTurn] at h
      split at h
      · exact absurd h nofun
      · rename_i listen hfind
        exact .listen (List.mem_of_find?_eq_some hfind) h
  | nameOwnerChanged id args =>
      obtain ⟨listen, hmem, halive, hforward, rfl⟩ := filterSignal_eq_some h
      exact .forwarded hmem halive hforward
  | operation id scan disk =>
      simp only [step, operationTurn] at h
      split at h
      · exact absurd h nofun
      · rename_i op hfind
        exact .operation (List.mem_of_find?_eq_some hfind) (stepOperation_turn h)
  | control input =>
      refine .control (fun hpc => ?_) (stepControl_turn h)
      simp [step, stepControl, hpc] at h
  | rawFrame event =>
      simp only [step, rawFrame] at h
      split at h
      · rename_i hopen
        obtain rfl := Option.some.inj h
        split
        · rename_i htls
          subst htls
          exact .rawDropped hopen.1
        · exact .rawQueued hopen.1 hopen.2
      · exact absurd h nofun
  | tlsFrame event =>
      simp only [step, tlsFrame] at h
      split at h
      · rename_i hopen
        obtain rfl := Option.some.inj h
        exact .tlsQueued hopen.1 hopen.2
      · exact absurd h nofun
  | answer index =>
      simp only [step, answer] at h
      split at h
      · exact absurd h nofun
      · rename_i generation hget
        split at h
        · rename_i hopen
          obtain rfl := Option.some.inj h
          exact .answered hopen hget
        · exact absurd h nofun
  | tlsReady =>
      simp only [step, establish] at h
      split at h
      · rename_i hopen
        obtain rfl := Option.some.inj h
        exact .established hopen
      · exact absurd h nofun
  | transportFailed =>
      simp only [step, failTransport] at h
      split at h
      · rename_i hopen
        obtain rfl := Option.some.inj h
        exact .failed hopen
      · exact absurd h nofun
  | prepareForSleep sleeping =>
      simp only [step, powerChanged] at h
      split at h
      · rename_i hpower
        obtain rfl := Option.some.inj h
        cases sleeping with
        | true => exact .slept hpower
        | false => exact .woke hpower
      · exact absurd h nofun

theorem step_device {env : Environment} {s s' : System} {input : DeviceInput}
    (h : step env s (.device input) = some s') :
    s.device.alive = true ∧ stepDevice env s input = some s' := by
  have hstep : (if s.device.alive then stepDevice env s input else none) = some s' := h
  split_ifs at hstep with halive
  exact ⟨halive, hstep⟩

/-- A turn of a gate changes the queue and the authorizations of the device, the gates and the
log. -/
theorem stepGate_eq (s : System) (gate : PolkitGate) (reply : PolkitReply) :
    stepGate s gate reply = { s with
      device := { s.device with
        messages := (stepGate s gate reply).device.messages
        authGates := (stepGate s gate reply).device.authGates }
      gates := (stepGate s gate reply).gates
      log := (stepGate s gate reply).log } := by
  unfold stepGate checkDone
  repeat' split
  all_goals rfl

end Fpc
