/-
**The device task.**

It takes one message after the other.  A call is checked first: listing and claiming ask for the uid
of the sender, changing records needs an authorization of polkit, the other methods are for the
claimer only.  A gate task asks polkit and puts the call back into the queue once it is authorized.

Main definitions:

* `Fpc.checkUid`, `Fpc.checkSender`, `Fpc.checkPolkit` — the checks;
* `Fpc.claimDevice`, `Fpc.releaseDevice`, `Fpc.nameOwnerChanged` — claiming and ways to end a claim;
* `Fpc.enrollVerifyStart`, `Fpc.sendEnrollStop` — starting and stopping an operation;
* `Fpc.stepDevice`, `Fpc.stepGate`, `Fpc.stepListen` — one turn of a task.
-/

import FpcReader.Daemon.Operation

set_option relaxedAutoImplicit false
set_option autoImplicit false

namespace Fpc

/-- What a turn of the device depends on: what the bus says about the uid, and the disk. -/
structure DeviceInput where
  uidKnown : Bool
  disk : Disk
  deriving DecidableEq

/-! ### Replies -/

/-- Go back to the message queue. -/
def System.runDevice (s : System) : System := { s with device := { s.device with pc := .run } }

/-- Send a reply, and go on with `next`. -/
def replyThen (s : System) (call : Call) (reply : Reply) (next : DeviceThen) : System :=
  { s.record (.replied call reply) with device := { s.device with pc := .sending next } }

/-- Send a reply, and take the next message. -/
def replyTo (s : System) (call : Call) (reply : Reply) : System := replyThen s call reply .run

/-- A gated call reaches its handler. -/
def System.reach (s : System) (call : Call) : System :=
  s.record (.handled call (if s.device.claimed then some s.device.claimedSender else none))

/-! ### Records -/

def listEnrolledFingers (s : System) (call : Call) (username : Name) : System :=
  let s := s.access username call.sender
  if s.storage.getEnrolledCount username = 0 then
    replyTo s call (.error "net.reactivated.Fprint.Error.NoEnrolledPrints" "NoEnrolledPrints")
  else replyTo s call (.fingers ((s.storage.ordered username).map fun entry => entry.2.name))

/-- Answer a call that has changed the records. -/
def replyChanged (s : System) (call : Call) (outcome : Except String Bool) (failure : Reply) :
    System :=
  match outcome with
  | .ok true => replyTo s call .methodReturn
  | _ => replyTo s call failure

def saveFailed : Reply := .error "net.reactivated.Fprint.Error.Internal" "database save failed"

def deleteEnrolledFingers (env : Environment) (disk : Disk) (s : System) (call : Call)
    (username : Name) : System :=
  let result := (s.reach call).callStorage env disk call.sender (.deleteAll username)
  replyChanged result.2 call result.1 saveFailed

def deleteEnrolledFingers2 (env : Environment) (disk : Disk) (s : System) (call : Call) : System :=
  let result := (s.reach call).callStorage env disk call.sender (.deleteAll s.device.claimedUser)
  replyChanged result.2 call result.1 saveFailed

def deleteEnrolledFinger (env : Environment) (disk : Disk) (s : System) (call : Call) : System :=
  let s := s.reach call
  match call.argument with
  | none =>
      replyTo s call (.error "org.freedesktop.DBus.Error.InvalidArgs" "invalid argument")
  | some name =>
      let result := s.callStorage env disk call.sender
        (.deleteFingerprint s.device.claimedUser name)
      replyChanged result.2 call result.1
        (.error "net.reactivated.Fprint.Error.InvalidFingername" "invalid finger name")

/-! ### Claiming -/

/-- Drop the authorizations of a sender: a pending check is cancelled, one that has been granted is
marked finished. -/
def dropAuthGates (s : System) (sender : Client) : System :=
  let dropped := s.device.authGates.filter fun entry =>
    entry.2.sender = sender ∧ entry.2.state ≠ .authorized
  let cancelled := s.gates.filter fun gate => dropped.any fun entry => entry.2.task = gate.id
  { s with
    device := { s.device with
      authGates := (s.device.authGates.filter fun entry =>
        ¬(entry.2.sender = sender ∧ entry.2.state ≠ .authorized)).map fun entry =>
          if entry.2.sender = sender then (entry.1, { entry.2 with state := .finished })
          else entry }
    gates := s.gates.filter fun gate => !dropped.any fun entry => entry.2.task = gate.id
    log := ((cancelled.filter fun gate => gate.pc = .waiting).map fun gate =>
      .withdrawn gate.call.key) ++ s.log }

/-- Nothing is claimed any more. -/
def System.unclaim (s : System) : System :=
  { s with device := { s.device with claimed := false, claimedSender := [], claimedUser := [] } }

/-- Cancel and forget the operation. -/
def cancelEnrollVerify (s : System) : System :=
  match s.device.enrollVerifyTask with
  | none => s
  | some id =>
      let s := s.cancelOperation id
      { s with device := { s.device with enrollVerifyTask := none } }

/-- Tell the listener to remove its filter, and forget it. -/
def resumeNameOwnerChanged (s : System) : System :=
  match s.device.nameOwnerChangedTask with
  | none => s
  | some id =>
      let s := s.resumeListen id
      { s with device := { s.device with nameOwnerChangedTask := none } }

def nameOwnerChanged (s : System) (args : List Name) : System :=
  match args with
  | _ :: oldOwner :: newOwner :: _ =>
      if newOwner = [] then
        let s :=
          if s.device.enrollVerifyTask = none then s
          else { cancelEnrollVerify s with imageQueue := [] }
        let s := ((dropAuthGates s oldOwner).unclaim).putEvent .stopSensor
        { s with device := { s.device with pc := .sending .run } }
      else s.runDevice
  | _ => s.runDevice

def claimDevice (s : System) (call : Call) (username : Name) : System :=
  if s.device.claimed then
    replyTo s call
      (.error "net.reactivated.Fprint.Error.AlreadyInUse" "device already claimed")
  else
    let s := { s with
      listens := s.listens ++ [⟨s.nextTask, call.sender, .addMatch, false⟩]
      nextTask := s.nextTask + 1
      device := { s.device with
        nameOwnerChangedTask := some s.nextTask
        claimed := true
        claimedSender := call.sender
        claimedUser := username } }
    replyTo s call .methodReturn

def releaseDevice (s : System) (call : Call) : System :=
  let s := cancelEnrollVerify (resumeNameOwnerChanged s)
  replyTo (dropAuthGates s call.sender).unclaim call .methodReturn

/-! ### Operations -/

/-- Start an enroll or verify task for the claimer. -/
def startOperation (s : System) (call : Call) (fingerName : Name) (isVerify : Bool) : System :=
  let s := s.bumpGeneration
  let s := s.setStorage { s.storage with operationActive := true }
  { s with
    operations := s.operations ++ [⟨s.nextTask, s.storage.captureGeneration, s.device.claimedUser,
      fingerName, isVerify, call.sender, .enroll⟩]
    nextTask := s.nextTask + 1
    device := { s.device with enrollVerifyTask := some s.nextTask } }

def enrollVerifyStart (s : System) (call : Call) : System :=
  let isVerify := decide (call.method = .verifyStart)
  let s := if call.method.gated then s.reach call else s
  if !s.storage.readerReady || s.storage.sleeping then
    replyTo s call
      (.error "net.reactivated.Fprint.Error.Internal" "reader session is recovering")
  else if s.device.enrollVerifyTask ≠ none then
    replyTo s call (.error "net.reactivated.Fprint.Error.AlreadyInUse" "device already in use")
  else
    match call.argument with
    | none => replyTo s call (.error "org.freedesktop.DBus.Error.InvalidArgs" "invalid argument")
    | some fingerName =>
        let s := s.access s.device.claimedUser call.sender
        if isVerify && !Fingerprint.isAny fingerName &&
            !s.storage.check s.device.claimedUser fingerName then
          replyTo s call
            (.error "net.reactivated.Fprint.Error.NoEnrolledPrints" "NoEnrolledPrints")
        else
          replyThen (startOperation s call fingerName isVerify) call .methodReturn
            (if isVerify then .sendVerifyFingerSelected else .run)

def enrollVerifyStop (s : System) (call : Call) : System :=
  if s.device.enrollVerifyTask = none then
    replyTo s call
      (.error "net.reactivated.Fprint.Error.NoActionInProgress" "invalid state")
  else replyThen s call .methodReturn .sendEnrollStop

/-- Forget the operation, and leave it a stop event. -/
def sendEnrollStop (s : System) : System :=
  { s.putImage .enrollVerifyStop with
    device := { s.device with enrollVerifyTask := none, pc := .sending .run } }

/-! ### Checks -/

def checkSender (env : Environment) (disk : Disk) (s : System) (call : Call) : System :=
  if !s.device.claimed then
    replyTo s call (.error "net.reactivated.Fprint.Error.ClaimDevice" "not claimed")
  else if s.device.claimedSender ≠ call.sender then
    replyTo s call (.error "net.reactivated.Fprint.Error.PermissionDenied"
      "this device claimed by another sender")
  else
    match call.method with
    | .deleteEnrolledFingers2 => deleteEnrolledFingers2 env disk s call
    | .deleteEnrolledFinger => deleteEnrolledFinger env disk s call
    | .enrollStart | .verifyStart => enrollVerifyStart s call
    | .enrollStop | .verifyStop => enrollVerifyStop s call
    | .release => releaseDevice s call
    | _ => s.runDevice

def getUid (s : System) (call : Call) : System :=
  { s with device := { s.device with pc := .checkUid call } }

def internalError (text : String) : Reply := .error "net.reactivated.Fprint.Error.Internal" text

/-- The handlers behind the uid check. -/
def uidChecked (env : Environment) (disk : Disk) (s : System) (call : Call) (username : Name) :
    System :=
  match call.method with
  | .listEnrolledFingers => listEnrolledFingers s call username
  | .claim => claimDevice s call username
  | .deleteEnrolledFingers => deleteEnrolledFingers env disk s call username
  | _ => s.runDevice

def checkUid (env : Environment) (input : DeviceInput) (s : System) (call : Call) : System :=
  if !input.uidKnown then replyTo s call (internalError "get sender uid failed")
  else
    match call.argument with
    | none =>
        replyTo s call (.error "org.freedesktop.DBus.Error.InvalidArgs" "missing username")
    | some argument =>
        match env.getpwuid (env.uidOf call.sender) with
        | none => replyTo s call (internalError "get peer uid failed")
        | some account =>
            let username := if argument = [] then account else argument
            if account ≠ username ∧ env.uidOf call.sender ≠ 0 then
              replyTo s call (.error "net.reactivated.Fprint.Error.PermissionDenied"
                "permission denied")
            else uidChecked env input.disk s call username

/-- Forget an authorization. -/
def eraseGate (s : System) (key : Key) : System :=
  { s with device := { s.device with
      authGates := s.device.authGates.filter fun entry => entry.1 ≠ key } }

/-- Create a gate task for a call. -/
def createGate (s : System) (call : Call) : System :=
  { s with
    gates := s.gates ++ [⟨s.nextTask, call, .sendCheck⟩]
    nextTask := s.nextTask + 1
    device := { s.device with
      pc := .run
      authGates := (s.device.authGates.filter fun entry => entry.2.state ≠ .finished) ++
        [(call.key, ⟨s.nextTask, call.sender, .pending⟩)] } }

def checkPolkit (env : Environment) (disk : Disk) (s : System) (call : Call) : System :=
  match s.device.authGates.find? fun entry => entry.1 = call.key with
  | some (_, gate) =>
      let s := eraseGate s call.key
      if gate.state ≠ .authorized then s.runDevice
      else if call.method = .deleteEnrolledFingers then getUid s call
      else checkSender env disk s call
  | none =>
      if s.device.claimed && s.device.claimedSender ≠ call.sender then
        replyTo s call
          (.error "net.reactivated.Fprint.Error.AlreadyInUse" "device already in use")
      else createGate s call

/-! ### Turns -/

def handleMessage (env : Environment) (disk : Disk) (s : System) : Message → System
  | .nameOwnerChanged args => nameOwnerChanged s args
  | .call call =>
      match call.method with
      | .listEnrolledFingers | .claim => getUid s call
      | .enrollStart | .deleteEnrolledFinger | .deleteEnrolledFingers | .deleteEnrolledFingers2 =>
          checkPolkit env disk s call
      | .enrollStop | .verifyStop | .verifyStart | .release => checkSender env disk s call
      | .other => replyTo s call .methodReturn

/-- What follows a reply. -/
def deviceThen (s : System) : DeviceThen → System
  | .run => s.runDevice
  | .sendVerifyFingerSelected => { s with device := { s.device with pc := .sending .run } }
  | .sendEnrollStop => sendEnrollStop s

/-- One turn of the device task; it takes a message only when there is one. -/
def stepDevice (env : Environment) (s : System) (input : DeviceInput) : Option System :=
  match s.device.pc with
  | .run =>
      match s.device.messages with
      | [] => none
      | message :: rest =>
          some (handleMessage env input.disk
            { s with device := { s.device with messages := rest } } message)
  | .checkUid call => some (checkUid env input s call)
  | .sending next => some (deviceThen s next)

/-- The answer of polkit: a method return with the first field of its struct, if it is a boolean,
or an error. -/
inductive PolkitReply where
  | methodReturn (authorized : Option Bool)
  | error
  deriving DecidableEq, Repr

/-- Note the result of a check at its authorization. -/
def resolveGate (s : System) (key : Key) (state : AuthState) : System :=
  { s with device := { s.device with
      authGates := s.device.authGates.map fun entry =>
        if entry.1 = key then (entry.1, { entry.2 with state := state }) else entry } }

/-- Replace a gate task. -/
def setGate (s : System) (gate : PolkitGate) : System :=
  { s with gates := s.gates.map fun g => if g.id = gate.id then gate else g }

/-- The task of a gate ends. -/
def finishGate (s : System) (gate : PolkitGate) : System :=
  { s with gates := s.gates.filter fun g => g.id ≠ gate.id }

/-- Put an authorized call back into the queue of the device. -/
def requeue (s : System) (call : Call) : System :=
  { s with device := { s.device with messages := s.device.messages ++ [.call call] } }

def checkDone (s : System) (gate : PolkitGate) (reply : PolkitReply) : System :=
  if reply = .methodReturn (some true) then
    finishGate (requeue (resolveGate (s.record (.granted gate.call.key)) gate.call.key .authorized)
      gate.call) gate
  else
    setGate ((resolveGate s gate.call.key .finished).record (.replied gate.call
      (.error "net.reactivated.Fprint.Error.PermissionDenied" "not authorized")))
      { gate with pc := .denying }

/-- One turn of a gate task; what it tells goes to the device. -/
def stepGate (s : System) (gate : PolkitGate) (reply : PolkitReply) : System :=
  match gate.pc with
  | .sendCheck => setGate s { gate with pc := .waiting }
  | .waiting => checkDone s gate reply
  | .denying => finishGate s gate

/-- Replace a listener. -/
def setListen (s : System) (listen : Listen) : System :=
  { s with listens := s.listens.map fun l => if l.id = listen.id then listen else l }

def finishListen (s : System) (listen : Listen) : System :=
  { s with listens := s.listens.filter fun l => l.id ≠ listen.id }

/-- One turn of a listener; `success` is the answer to adding its match rule.  It stays suspended
until it is told to remove its filter. -/
def stepListen (s : System) (listen : Listen) (success : Bool) : Option System :=
  match listen.pc with
  | .addMatch => some (setListen s { listen with pc := .adding })
  | .adding =>
      some (if success then setListen s { listen with pc := .installed }
        else finishListen s listen)
  | .installed => if listen.told then some (setListen s { listen with pc := .removing }) else none
  | .removing => some (finishListen s listen)

end Fpc
