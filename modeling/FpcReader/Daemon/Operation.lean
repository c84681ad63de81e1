/-
**The enroll and verify tasks.**

A task arms the sensor, waits on the image queue, and sends a signal for every image it accepts; the
signal of a terminal result ends it, any other one arms the sensor again under a new generation.
An image or a touch of another generation is skipped.

Main definitions:

* `Fpc.Scan` — what preparing and matching or enrolling an image comes to;
* `Fpc.parseImage` — one event of the image queue;
* `Fpc.stepOperation` — one turn of a task.
-/

import FpcReader.Daemon.State

set_option relaxedAutoImplicit false
set_option autoImplicit false

namespace Fpc

/-- What adding a prepared image to an enrollment leads to; a complete enrollment has a serialized
template. -/
inductive EnrollmentResult where
  | missing
  | status (code : ℤ)
  | rejected
  | accepted
  | unfinished
  | complete (native : List UInt8)
  deriving DecidableEq

/-- What becomes of the pixels of an image: they cannot be prepared, or they are matched against the
stored templates or added to the enrollment. -/
inductive Scan where
  | unprepared
  | prepared (query : PreparedCapture) (enrollment : EnrollmentResult)
  deriving DecidableEq

/-- Start sending a status signal. -/
def sendSignal (s : System) (op : EnrollVerify) (status : String) (terminal : Bool) : System :=
  (s.record (.signalled op.id status terminal)).setOperation { op with pc := .sending terminal }

/-- The signal for something unexpected. -/
def unknownError (verify : Bool) : String :=
  if verify then "verify-unknown-error" else "enroll-unknown-error"

/-- Match the query of a verify task. -/
def verifyScan (env : Environment) (disk : Disk) (s : System) (op : EnrollVerify)
    (query : PreparedCapture) : System :=
  let result := s.callStorage env disk op.client (.verify op.user op.name query)
  match result.1 with
  | .error _ => sendSignal result.2 op "verify-unknown-error" true
  | .ok true => sendSignal result.2 op "verify-match" true
  | .ok false => sendSignal result.2 op "verify-retry-scan" false

/-- Add the query of an enroll task, and store a complete template. -/
def enrollScan (env : Environment) (disk : Disk) (s : System) (op : EnrollVerify) :
    EnrollmentResult → System
  | .missing => sendSignal s op "enroll-unknown-error" true
  | .status code =>
      if code = 112 then sendSignal s op "enroll-failed" true
      else sendSignal s op "enroll-unknown-error" true
  | .rejected => sendSignal s op "enroll-remove-and-retry" false
  | .accepted => sendSignal s op "enroll-stage-passed" false
  | .unfinished => sendSignal s op "enroll-unknown-error" true
  | .complete native =>
      let result := s.callStorage env disk op.client
        (.insertOrUpdate ⟨op.user, op.name, native, 0⟩)
      match result.1 with
      | .error _ => sendSignal result.2 op "enroll-unknown-error" true
      | .ok false => sendSignal result.2 op "enroll-failed" true
      | .ok true => sendSignal result.2 op "enroll-completed" true

/-- An image of the generation of the task. -/
def acceptImage (env : Environment) (disk : Disk) (s : System) (op : EnrollVerify)
    (requested : Option ℕ) (scan : Scan) : System :=
  let s := s.record (.accepted op.id op.generation requested)
  match scan with
  | .unprepared => sendSignal s op (unknownError op.verify) true
  | .prepared query enrollment =>
      if op.verify then verifyScan env disk s op query else enrollScan env disk s op enrollment

/-- One event of the image queue. -/
def parseImage (env : Environment) (disk : Disk) (s : System) (op : EnrollVerify)
    (event : FPCEvent) (scan : Scan) : System :=
  match event with
  | .image generation _ requested =>
      if generation ≠ op.generation then s else acceptImage env disk s op requested scan
  | .enrollVerifyStop =>
      (s.bumpGeneration.putEvent .stopSensor).setOperation { op with pc := .stopping }
  | .transportFailed => sendSignal s op (unknownError op.verify) true
  | _ => s

/-- Arm the sensor for the next image. -/
def nextCapture (s : System) (op : EnrollVerify) : System :=
  (s.bumpGeneration.putEvent .startSensor).setOperation
    { op with pc := .arming, generation := s.storage.captureGeneration + 1 }

/-- Stop the sensor and end the task. -/
def stopOperation (s : System) (op : EnrollVerify) : System :=
  (s.bumpGeneration.putEvent .stopSensor).setOperation { op with pc := .stopping }

/-- One turn of a task; a waiting task needs an event. -/
def stepOperation (env : Environment) (disk : Disk) (s : System) (op : EnrollVerify)
    (scan : Scan) : Option System :=
  match op.pc with
  | .enroll =>
      some (({ s with imageQueue := [] }.putEvent .startSensor).setOperation
        { op with pc := .arming })
  | .arming => some (s.setOperation { op with pc := .waitImage })
  | .waitImage =>
      match s.imageQueue with
      | [] => none
      | event :: rest => some (parseImage env disk { s with imageQueue := rest } op event scan)
  | .sending terminal => some (if terminal then stopOperation s op else nextCapture s op)
  | .stopping => some (s.finalizeOperation op)

end Fpc
