/-
**The control task.**

It opens the reader, hands events of the reader to the operations, arms and stops the sensor, and
recovers a session that failed: an active operation is told first, then the session is closed and
the reader opened again after some time.

Main definitions:

* `Fpc.cleanupDevice`, `Fpc.notifyOperationFailed` — the end of a session;
* `Fpc.handleWireEvent`, `Fpc.handleEvent` — one event of the event queue;
* `Fpc.stepControl` — one turn of the control task.

The generation of an image is the one the sensor was last armed for when the image arrives.
-/

import FpcReader.Daemon.Device

set_option relaxedAutoImplicit false
set_option autoImplicit false

namespace Fpc

/-! ### What a turn depends on -/

/-- What opening the reader again comes to: the old handle is still being closed, the reader cannot
be opened, its endpoint or interface cannot be used, or it is open. -/
inductive Reopen where
  | deferred
  | missing
  | unusable
  | opened
  deriving DecidableEq, Repr

/-- The firmware version a reader reports, as far as it is checked. -/
inductive ReaderState where
  | incomplete
  | mismatch
  | supported
  deriving DecidableEq, Repr

/-- What a turn of the control task depends on: whether a transfer succeeded, whether the sensor was
armed less than a second ago, whether the last arming or image is too recent, whether recovery has
waited five seconds, and what the reader answers. -/
structure ControlInput where
  transferred : Bool
  early : Bool
  recent : Bool
  expired : Bool
  reopened : Reopen
  state : ReaderState
  tlsKey : Option (List UInt8)
  deriving DecidableEq

/-! ### Waiting -/

def System.setControl (s : System) (pc : ControlPc) : System :=
  { s with control := { s.control with pc := pc } }

def System.getEvent (s : System) : System := s.setControl .getEvent

def System.transferThen (s : System) (next : ControlThen) : System := s.setControl (.transfer next)

def System.sleepThen (s : System) (next : ControlThen) : System := s.setControl (.sleep next)

/-! ### The end of a session -/

/-- Cancel the device task. -/
def cancelDevice (s : System) : System :=
  { resumeNameOwnerChanged (cancelEnrollVerify s) with device := .initial }

def cleanupDevice (s : System) (removeDevice : Bool) : System :=
  let s := s.setStorage { s.storage with readerReady := false }
  let s := if removeDevice && s.device.alive then cancelDevice s else s
  let s := s.bumpGeneration
  { s with
    eventQueue := []
    imageQueue := []
    outstanding := []
    control := { s.control with
      ready := false
      captureActive := false
      handle := false
      tlsKey := []
      session := .closed } }

/-- `async_finalize` of the control task. -/
def finishControl (s : System) : System :=
  (cleanupDevice { s with power := false } true).setControl .finished

def scheduleRecovery (s : System) : System :=
  if s.control.recoveryAttempt ≥ 6 then finishControl s
  else
    { s with control := { s.control with recoveryAttempt := s.control.recoveryAttempt + 1 } }
      |>.sleepThen .reopen

def beginRecovery (s : System) : System :=
  let s := cleanupDevice s false
  let s := { s with control := { s.control with suspended := s.storage.sleeping } }
  if s.control.suspended then s.getEvent else scheduleRecovery s

/-- Tell an active operation, then recover. -/
def notifyOperationFailed (s : System) : System :=
  let s := { s with control := { s.control with ready := false } }
  let s := s.setStorage { s.storage with readerReady := false }
  if !s.device.alive || !s.storage.operationActive then beginRecovery s
  else (s.putImage .transportFailed).setControl (.put .yieldRecovery)

def resumeRecovery (input : ControlInput) (s : System) : System :=
  if s.storage.operationActive && !input.expired then s.sleepThen .resumeRecovery
  else beginRecovery s

/-! ### Opening the reader -/

/-- `init`, where the endpoint is found and the interface claimed or not. -/
def initReader (input : ControlInput) (s : System) : System :=
  if input.reopened = .unusable then notifyOperationFailed s else s.transferThen .getState

def reopen (input : ControlInput) (s : System) : System :=
  match input.reopened with
  | .deferred => s.sleepThen .reopen
  | .missing => scheduleRecovery s
  | _ => initReader input { s with control := { s.control with handle := true } }

def parseState (input : ControlInput) (s : System) : System :=
  match input.state with
  | .incomplete => notifyOperationFailed s
  | .mismatch => finishControl s
  | .supported => s.transferThen .spawn

/-- Start the transport tasks. -/
def spawn (s : System) : System :=
  { s with control := { s.control with session := .handshake } }.getEvent

def parseTlsKey (input : ControlInput) (s : System) : System :=
  match input.tlsKey with
  | none => notifyOperationFailed s
  | some key => { s with control := { s.control with tlsKey := key } }.transferThen .getEvent

/-! ### The sensor -/

/-- The sensor is armed for the current generation. -/
def System.captureCurrent (s : System) : Bool :=
  s.control.captureActive && s.control.captureGeneration = s.storage.captureGeneration

/-- Ask for the image. -/
def getImage (s : System) : System :=
  if !s.captureCurrent then s.getEvent
  else
    { s with outstanding := s.outstanding ++ [s.storage.captureGeneration] }.transferThen .getEvent

def delayGetImage (input : ControlInput) (s : System) : System :=
  if !s.captureCurrent then s.getEvent
  else if !input.recent then getImage s
  else s.sleepThen .getImage

def submitArm (s : System) : System :=
  if !s.captureCurrent then s.getEvent else s.transferThen .getEvent

def startSensor (input : ControlInput) (s : System) : System :=
  let s := { s with control := { s.control with
    captureActive := true, captureGeneration := s.storage.captureGeneration } }
  if input.recent then s.sleepThen .submitArm else submitArm s

/-- `cmd_abort`, with the commands that end the enrollment and the session to follow. -/
def stopSensor (s : System) : System :=
  { s with control := { s.control with captureActive := false } }.transferThen .endEnrollment

/-! ### Events -/

/-- The checks of the answer to the initialization. -/
def InitResult.supported (result : InitResult) : Bool :=
  result.identity ≠ 0 && (result.hardwareId = 0x0111 || result.hardwareId = 0x0121) &&
    result.width = 112 && result.height = 88

def handleInitResult (s : System) : Option InitResult → System
  | none => notifyOperationFailed s
  | some result =>
      let s := s.setStorage { s.storage with hardwareId := result.hardwareId }
      if !result.supported then notifyOperationFailed s else s.transferThen .parseTlsKey

def handleFingerDown (input : ControlInput) (s : System) : System :=
  if s.control.ready && s.captureCurrent then
    let stale := s.control.awaitingFirstTouch && input.early
    let s := { s with control := { s.control with
      staleCapture := stale, awaitingFirstTouch := false } }
    if stale then delayGetImage input s
    else (s.putImage (.fingerDown s.control.captureGeneration)).setControl (.put .delayGetImage)
  else s.getEvent

def handleImage (input : ControlInput) (s : System) (origin : Origin) (requested : Option ℕ) :
    System :=
  if !s.captureCurrent then s.getEvent
  else if s.control.staleCapture then
    startSensor input { s with control := { s.control with staleCapture := false } }
  else
    let s := { s with control := { s.control with captureActive := false } }
    (s.putImage (.image s.control.captureGeneration origin requested)).setControl (.put .getEvent)

/-- An event of the reader. -/
def handleWireEvent (input : ControlInput) (s : System) (origin : Origin) : WireEvent → System
  | .initResult result => handleInitResult s result
  | .armResult success => if !success then notifyOperationFailed s else s.getEvent
  | .deadPixelReport none => notifyOperationFailed s
  | .deadPixelReport (some defects) =>
      (s.setStorage { s.storage with deadPixels := defects }).getEvent
  | .tls | .unknown => notifyOperationFailed s
  | .fingerDown => handleFingerDown input s
  | .image requested => handleImage input s origin requested
  | .hello | .fingerUp | .usbLogs | .tlsKey | .refreshSensor => s.getEvent

/-- The session is established: open the database and create the device.  Nothing follows when the
database cannot be opened. -/
def tlsReady (env : Environment) (s : System) : Option System :=
  match s.store.init env.cipher env.database s.control.tlsKey s.store.file with
  | .error _ => none
  | .ok store =>
      let s := { s with
        store := { store with storage := { store.storage with readerReady := true } }
        control := { s.control with
          ready := true
          recoveryAttempt := 0
          awaitingFirstTouch := true
          staleCapture := false }
        device := if s.device.alive then s.device else { Device.initial with alive := true } }
      some (s.transferThen .getEvent)

def handleEvent (env : Environment) (input : ControlInput) (s : System) : FPCEvent → Option System
  | .tlsReady => tlsReady env s
  | .fpcEvent event origin => some (handleWireEvent input s origin event)
  | .startSensor =>
      some (if !s.control.ready || !s.control.handle || s.storage.sleeping then s.getEvent
        else startSensor input s)
  | .stopSensor =>
      let s := { s with control := { s.control with captureActive := false } }
      some (if !s.control.ready || !s.control.handle then s.getEvent else stopSensor s)
  | .transportFailed => some (notifyOperationFailed s)
  | .suspend =>
      some (notifyOperationFailed { s with control := { s.control with
        suspended := true, captureActive := false } })
  | .resume =>
      some (if !s.control.suspended then s.getEvent
        else reopen input { s with control := { s.control with
          suspended := false, recoveryAttempt := 0 } })
  | .fingerDown _ | .image _ _ _ | .enrollVerifyStop => some s.getEvent

/-! ### Turns -/

/-- What follows a wait. -/
def controlThen (input : ControlInput) (s : System) : ControlThen → System
  | .init => initReader input s
  | .scheduleRecovery => scheduleRecovery s
  | .reopen => reopen input s
  | .getState => s.transferThen .parseState
  | .parseState => parseState input s
  | .spawn => spawn s
  | .getEvent => s.getEvent
  | .parseTlsKey => parseTlsKey input s
  | .delayGetImage => delayGetImage input s
  | .getImage => getImage s
  | .submitArm => submitArm s
  | .endEnrollment => s.transferThen .endSession
  | .endSession => s.transferThen .getEvent
  | .yieldRecovery => s.sleepThen .resumeRecovery
  | .resumeRecovery => resumeRecovery input s

/-- One turn of the control task; it takes an event only when there is one. -/
def stepControl (env : Environment) (s : System) (input : ControlInput) : Option System :=
  match s.control.pc with
  | .start next | .sleep next | .put next => some (controlThen input s next)
  | .transfer next =>
      some (if input.transferred then controlThen input s next else notifyOperationFailed s)
  | .getEvent =>
      match s.eventQueue with
      | [] => none
      | event :: rest => handleEvent env input { s with eventQueue := rest } event
  | .finished => none

end Fpc
