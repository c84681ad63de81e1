/-
**Runs of the daemon.**

A run interleaves the turns of the tasks with what comes from outside: calls, polkit and the bus,
frames of the reader, transport failures and the signal before and after sleep.  No client reuses a
serial.  The reader answers every request for an image once, at any later time of the session and in
any order; it may send any other frame at any time.

Main definitions:

* `Fpc.Action` — a turn of a task, or something from outside;
* `Fpc.step` — what an action leads to;
* `Fpc.System.start`, `Fpc.Started` — the daemon before its first turn.
-/

import FpcReader.Daemon.Control
import FpcReader.Lib.Transition

set_option relaxedAutoImplicit false
set_option autoImplicit false

namespace Fpc

/-! ### Actions -/

inductive Action where
  | call (call : Call)
  | device (input : DeviceInput)
  | gate (id : ℕ) (reply : PolkitReply)
  | listen (id : ℕ) (success : Bool)
  | nameOwnerChanged (id : ℕ) (args : List Name)
  | operation (id : ℕ) (scan : Scan) (disk : Disk)
  | control (input : ControlInput)
  | rawFrame (event : WireEvent)
  | tlsFrame (event : WireEvent)
  | answer (index : ℕ)
  | tlsReady
  | transportFailed
  | prepareForSleep (sleeping : Bool)
  deriving DecidableEq

/-! ### What comes from outside -/

/-- Put a message into the queue of the device. -/
def System.putMessage (s : System) (message : Message) : System :=
  { s with device := { s.device with messages := s.device.messages ++ [message] } }

def arrive (s : System) (call : Call) : Option System :=
  if s.device.alive ∧ call.key ∉ s.calls then
    some { s.putMessage (.call call) with calls := call.key :: s.calls }
  else none

/-- The filter of a listener; it is in place until the listener ends. -/
def Listen.forwards (listen : Listen) (args : List Name) : Bool :=
  (listen.pc = .installed || listen.pc = .removing) && args.head? = some listen.arg0

def filterSignal (s : System) (id : ℕ) (args : List Name) : Option System :=
  match s.listens.find? fun listen => listen.id = id with
  | none => none
  | some listen =>
      if s.device.alive && listen.forwards args then
        some (s.putMessage (.nameOwnerChanged args))
      else none

/-- A frame that is not an answer to a request. -/
def WireEvent.unrequested : WireEvent → Bool
  | .image (some _) => false
  | _ => true

/-- `USBInput::dispatch_frames`: TLS frames go to the TLS stream, any other one into the queue. -/
def rawFrame (s : System) (event : WireEvent) : Option System :=
  if s.control.session ≠ .closed ∧ event.unrequested then
    some (if event = .tls then s else s.putEvent (.fpcEvent event .raw))
  else none

/-- `TLSEventReader::dispatch_frames`. -/
def tlsFrame (s : System) (event : WireEvent) : Option System :=
  if s.control.session = .established ∧ event.unrequested then
    some (s.putEvent (.fpcEvent event .tls))
  else none

/-- The reader answers a request for an image. -/
def answer (s : System) (index : ℕ) : Option System :=
  match s.outstanding[index]? with
  | none => none
  | some generation =>
      if s.control.session = .established then
        some ({ s with outstanding := s.outstanding.eraseIdx index }.putEvent
          (.fpcEvent (.image (some generation)) .tls))
      else none

/-- The handshake of a session is over. -/
def establish (s : System) : Option System :=
  if s.control.session = .handshake then
    some ({ s with control := { s.control with session := .established } }.putEvent .tlsReady)
  else none

/-- A transport task fails. -/
def failTransport (s : System) : Option System :=
  if s.control.session ≠ .closed then some (s.putEvent .transportFailed) else none

def powerChanged (s : System) (sleeping : Bool) : Option System :=
  if s.power then
    let s := s.setStorage { s.storage with sleeping := sleeping }
    some (if sleeping then s.bumpGeneration.putEvent .suspend else s.putEvent .resume)
  else none

/-! ### Steps -/

/-- The turn of a gate, as long as there is a device. -/
def gateTurn (s : System) (id : ℕ) (reply : PolkitReply) : Option System :=
  match s.gates.find? fun gate => gate.id = id with
  | none => none
  | some gate => if s.device.alive then some (stepGate s gate reply) else none

def listenTurn (s : System) (id : ℕ) (success : Bool) : Option System :=
  match s.listens.find? fun listen => listen.id = id with
  | none => none
  | some listen => stepListen s listen success

def operationTurn (env : Environment) (s : System) (id : ℕ) (scan : Scan) (disk : Disk) :
    Option System :=
  match s.operations.find? fun op => op.id = id with
  | none => none
  | some op => stepOperation env disk s op scan

def step (env : Environment) (s : System) : Action → Option System
  | .call call => arrive s call
  | .device input => if s.device.alive then stepDevice env s input else none
  | .gate id reply => gateTurn s id reply
  | .listen id success => listenTurn s id success
  | .nameOwnerChanged id args => filterSignal s id args
  | .operation id scan disk => operationTurn env s id scan disk
  | .control input => stepControl env s input
  | .rawFrame event => rawFrame s event
  | .tlsFrame event => tlsFrame s event
  | .answer index => answer s index
  | .tlsReady => establish s
  | .transportFailed => failTransport s
  | .prepareForSleep sleeping => powerChanged s sleeping

/-! ### The start -/

def Control.initial (handle : Bool) : Control where
  pc := .start (if handle then .init else .scheduleRecovery)
  ready := false
  captureActive := false
  awaitingFirstTouch := false
  staleCapture := false
  captureGeneration := 0
  suspended := false
  handle := handle
  recoveryAttempt := 0
  tlsKey := []
  session := .closed

/-- The daemon at its start, with a reader that was opened or not and the database file there is. -/
def System.start (handle : Bool) (file : Option (List UInt8)) : System where
  store := ⟨.initial, file⟩
  eventQueue := []
  imageQueue := []
  device := .initial
  gates := []
  listens := []
  operations := []
  control := .initial handle
  power := true
  outstanding := []
  nextTask := 0
  calls := []
  log := []

def Started (s : System) : Prop := ∃ handle file, s = System.start handle file

end Fpc
