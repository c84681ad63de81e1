/-
**The tasks of the daemon and what they share.**

The control task owns the reader, the device task serves the bus, an enroll or verify task waits for
images, a polkit gate waits for an authorization and a listener for the end of a client.  One task
runs at a time, up to its next await; the tasks share the storage, the event queue of the control
task, the image queue and the message queue of the device task.

Main definitions:

* `Fpc.Call`, `Fpc.Message` — what arrives on the bus;
* `Fpc.FPCEvent` — the events of both queues;
* `Fpc.EnrollVerify`, `Fpc.PolkitGate`, `Fpc.Listen`, `Fpc.Device`, `Fpc.Control` — the tasks;
* `Fpc.System` — all tasks with the queues and the storage;
* `Fpc.Environment` — the fixed facts about users, and the cipher.

A task that awaits a put on a queue has put its value already: the queues are unbounded.  A task
that is cancelled is finalized at once and never runs again.  Every state carries a log of what has
happened so far, the latest entry first, and images carry the generation at which they were
requested; no task reads either.
-/

import FpcReader.Storage.Operations

set_option relaxedAutoImplicit false
set_option autoImplicit false

namespace Fpc

/-! ### Messages of the bus -/

/-- The unique name of a connection. -/
abbrev Client := Name

/-- The methods of a device; getting properties and the like is `other`. -/
inductive Method where
  | listEnrolledFingers
  | deleteEnrolledFingers
  | deleteEnrolledFingers2
  | deleteEnrolledFinger
  | claim
  | release
  | verifyStart
  | verifyStop
  | enrollStart
  | enrollStop
  | other
  deriving DecidableEq, Repr

/-- A method call: sender, serial, method, and the first argument when it is a string. -/
structure Call where
  sender : Client
  serial : ℕ
  method : Method
  argument : Option Name
  deriving DecidableEq

/-- Serials are counted by connection. -/
abbrev Key := Client × ℕ

def Call.key (call : Call) : Key := (call.sender, call.serial)

/-- What waits in the queue of the device: calls, and signals that the owner of a name changed. -/
inductive Message where
  | call (call : Call)
  | nameOwnerChanged (args : List Name)
  deriving DecidableEq

/-- The methods that need an authorization. -/
def Method.gated : Method → Bool
  | .enrollStart | .deleteEnrolledFinger | .deleteEnrolledFingers | .deleteEnrolledFingers2 => true
  | _ => false

/-- What a call is answered with. -/
inductive Reply where
  | methodReturn
  | fingers (names : List Name)
  | error (name text : String)
  deriving DecidableEq

/-! ### Events of the sensor -/

/-- The stream a frame was decoded from: the bulk endpoint in the clear, or TLS. -/
inductive Origin where
  | raw
  | tls
  deriving DecidableEq, Repr

/-- The answer to the initialization, as far as it is checked. -/
structure InitResult where
  identity : UInt16
  hardwareId : UInt16
  width : UInt16
  height : UInt16
  deriving DecidableEq, Repr

/-- A frame of the reader; malformed bodies are `none`.  An image carries the generation at which it
was requested. -/
inductive WireEvent where
  | hello
  | initResult (result : Option InitResult)
  | armResult (success : Bool)
  | deadPixelReport (defects : Option (List UInt16))
  | tls
  | fingerDown
  | fingerUp
  | image (requested : Option ℕ)
  | usbLogs
  | tlsKey
  | refreshSensor
  | unknown
  deriving DecidableEq, Repr

/-- The events of the event queue and of the image queue. -/
inductive FPCEvent where
  | tlsReady
  | fpcEvent (event : WireEvent) (origin : Origin)
  | startSensor
  | stopSensor
  | fingerDown (generation : ℕ)
  | image (generation : ℕ) (origin : Origin) (requested : Option ℕ)
  | enrollVerifyStop
  | transportFailed
  | suspend
  | resume
  deriving DecidableEq, Repr

/-! ### Tasks -/

/-- Where an enroll or verify task stands. -/
inductive OperationPc where
  | enroll
  | arming
  | waitImage
  | sending (terminal : Bool)
  | stopping
  deriving DecidableEq, Repr

/-- An enroll or verify task; `client` is the connection that started it. -/
structure EnrollVerify where
  id : ℕ
  generation : ℕ
  user : Name
  name : Name
  verify : Bool
  client : Client
  pc : OperationPc
  deriving DecidableEq

inductive GatePc where
  | sendCheck
  | waiting
  | denying
  deriving DecidableEq, Repr

/-- A task that asks polkit about a call. -/
structure PolkitGate where
  id : ℕ
  call : Call
  pc : GatePc
  deriving DecidableEq

inductive ListenPc where
  | addMatch
  | adding
  | installed
  | removing
  deriving DecidableEq, Repr

/-- A task that forwards the signals about one name; `told` is set once it has been resumed to
remove its filter. -/
structure Listen where
  id : ℕ
  arg0 : Client
  pc : ListenPc
  told : Bool
  deriving DecidableEq

inductive AuthState where
  | pending
  | authorized
  | finished
  deriving DecidableEq, Repr

/-- The state of an authorization, with its task. -/
structure AuthGate where
  task : ℕ
  sender : Client
  state : AuthState
  deriving DecidableEq

/-- What follows once a reply has been sent. -/
inductive DeviceThen where
  | run
  | sendVerifyFingerSelected
  | sendEnrollStop
  deriving DecidableEq, Repr

/-- Where the device task stands: waiting for a message, for the uid of a sender, or for a reply to
be sent. -/
inductive DevicePc where
  | run
  | checkUid (call : Call)
  | sending (next : DeviceThen)
  deriving DecidableEq

structure Device where
  alive : Bool
  pc : DevicePc
  messages : List Message
  claimed : Bool
  claimedSender : Client
  claimedUser : Name
  enrollVerifyTask : Option ℕ
  nameOwnerChangedTask : Option ℕ
  authGates : List (Key × AuthGate)
  deriving DecidableEq

/-- A device before it is created. -/
def Device.initial : Device := ⟨false, .run, [], false, [], [], none, none, []⟩

/-- What the control task runs next. -/
inductive ControlThen where
  | init
  | scheduleRecovery
  | reopen
  | getState
  | parseState
  | spawn
  | getEvent
  | parseTlsKey
  | delayGetImage
  | getImage
  | submitArm
  | endEnrollment
  | endSession
  | yieldRecovery
  | resumeRecovery
  deriving DecidableEq, Repr

/-- Where the control task stands: at its start, waiting for an event, for a transfer, for time to
pass, for a put; or it has finished. -/
inductive ControlPc where
  | start (next : ControlThen)
  | getEvent
  | transfer (next : ControlThen)
  | sleep (next : ControlThen)
  | put (next : ControlThen)
  | finished
  deriving DecidableEq, Repr

/-- The transport tasks of a session. -/
inductive Session where
  | closed
  | handshake
  | established
  deriving DecidableEq, Repr

structure Control where
  pc : ControlPc
  ready : Bool
  captureActive : Bool
  awaitingFirstTouch : Bool
  staleCapture : Bool
  captureGeneration : ℕ
  suspended : Bool
  handle : Bool
  recoveryAttempt : ℕ
  tlsKey : List UInt8
  session : Session
  deriving DecidableEq

/-! ### The whole daemon -/

/-- What has happened. -/
inductive LogEntry where
  | granted (key : Key)
  | withdrawn (key : Key)
  | handled (call : Call) (claimer : Option Client)
  | accessed (user : Name) (client : Client)
  | accepted (operation generation : ℕ) (requested : Option ℕ)
  | signalled (operation : ℕ) (status : String) (terminal : Bool)
  | replied (call : Call) (reply : Reply)
  deriving DecidableEq

structure System where
  store : Store
  eventQueue : List FPCEvent
  imageQueue : List FPCEvent
  device : Device
  gates : List PolkitGate
  listens : List Listen
  operations : List EnrollVerify
  control : Control
  power : Bool
  /-- The generations of the images the reader still owes. -/
  outstanding : List ℕ
  /-- The next task gets this number. -/
  nextTask : ℕ
  /-- The calls that have been made. -/
  calls : List Key
  log : List LogEntry
  deriving DecidableEq

/-- What stays the same while the daemon runs: the cipher, the path of the database, the uid of
every connection and the account name of every uid. -/
structure Environment where
  cipher : Cipher
  database : Name
  uidOf : Client → ℕ
  getpwuid : ℕ → Option Name

/-- A client may act for a user when it runs as that user or as root. -/
def Environment.MayAct (env : Environment) (client : Client) (user : Name) : Prop :=
  env.uidOf client = 0 ∨ env.getpwuid (env.uidOf client) = some user

/-! ### Access to the shared state -/

abbrev System.storage (s : System) : FingerprintStorage := s.store.storage

def System.setStorage (s : System) (storage : FingerprintStorage) : System :=
  { s with store := { s.store with storage := storage } }

/-- Advance the capture generation. -/
def System.bumpGeneration (s : System) : System :=
  s.setStorage { s.storage with captureGeneration := s.storage.captureGeneration + 1 }

def System.putEvent (s : System) (event : FPCEvent) : System :=
  { s with eventQueue := s.eventQueue ++ [event] }

def System.putImage (s : System) (event : FPCEvent) : System :=
  { s with imageQueue := s.imageQueue ++ [event] }

def System.record (s : System) (entry : LogEntry) : System := { s with log := entry :: s.log }

/-- Read or change records of a user for a client. -/
def System.access (s : System) (user : Name) (client : Client) : System :=
  s.record (.accessed user client)

/-- The user whose records a call is about. -/
def StorageCall.user : StorageCall → Name
  | .insertOrUpdate print => print.user
  | .deleteFingerprint username _ => username
  | .deleteAll user => user
  | .verify user _ _ => user

/-- A call of the storage for a client. -/
def System.callStorage (env : Environment) (disk : Disk) (s : System) (client : Client)
    (call : StorageCall) : Except String Bool × System :=
  let result := s.store.call env.cipher disk call
  (result.outcome, { s.access call.user client with store := result.store })

/-! ### Enroll and verify tasks -/

/-- Replace a task. -/
def System.setOperation (s : System) (op : EnrollVerify) : System :=
  { s with operations := s.operations.map fun o => if o.id = op.id then op else o }

/-- `async_finalize`: an operation whose generation is current ends it, and no operation is active
any more. -/
def System.finalizeOperation (s : System) (op : EnrollVerify) : System :=
  let current := s.storage.captureGeneration
  let s := s.setStorage { s.storage with
    captureGeneration := if op.generation = current then current + 1 else current
    operationActive := false }
  { s with operations := s.operations.filter fun o => o.id ≠ op.id }

/-- Cancel the task of the given number, if it is still there. -/
def System.cancelOperation (s : System) (id : ℕ) : System :=
  match s.operations.find? fun o => o.id = id with
  | none => s
  | some op => s.finalizeOperation op

/-- Resume a listener, which then removes its filter. -/
def System.resumeListen (s : System) (id : ℕ) : System :=
  { s with listens := s.listens.map fun l => if l.id = id then { l with told := true } else l }

end Fpc
