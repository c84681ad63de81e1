/-
**Stored fingerprints.**

The storage keeps, for every user, one record for each enrolled finger: the names, the serialized
template and a registration number that orders the records by age.  Names are byte strings, as the
bus delivers them.

Main definitions:

* `Fpc.Fingerprint`, `Fpc.Records` — a record, and the records of all users;
* `Fpc.Fingerprint.validName`, `Fpc.Fingerprint.isAny` — the finger names;
* `Fpc.validateNative`, `Fpc.serializeNativeTemplate` — the checks on a serialized template, and
  its making;
* `Fpc.FingerprintStorage` — the storage with the flags the tasks share.
-/

import FpcReader.Lib.SortedMap
import FpcReader.Native.Update
import Mathlib.Data.List.Lex
import Mathlib.Data.List.Sort

set_option relaxedAutoImplicit false
set_option autoImplicit false

namespace Fpc

open Bytes

/-! ### Names -/

/-- A string of the bus or of the database. -/
abbrev Name := List UInt8

/-- Bytes compare by value, as characters do in an ordered map of strings. -/
instance byteLinearOrder : LinearOrder UInt8 :=
  LinearOrder.lift' UInt8.toNat fun _ _ h => UInt8.toNat_inj.1 h

/-- The bytes of an ASCII text. -/
def ascii (text : String) : Name := text.toList.map fun c => UInt8.ofNat c.toNat

/-- The record of one finger. -/
structure Fingerprint where
  user : Name
  name : Name
  native : List UInt8
  registration : UInt32
  deriving DecidableEq

/-- The ten finger names. -/
def fingerNames : List Name :=
  [ascii "left-thumb", ascii "left-index-finger", ascii "left-middle-finger",
    ascii "left-ring-finger", ascii "left-little-finger", ascii "right-thumb",
    ascii "right-index-finger", ascii "right-middle-finger", ascii "right-ring-finger",
    ascii "right-little-finger"]

def Fingerprint.validName (name : Name) : Bool := fingerNames.any (name == ·)

def Fingerprint.isAny (name : Name) : Bool := name == [] || name == ascii "any"

/-- The records, by user and finger name. -/
abbrev Records := SortedMap Name (SortedMap Name Fingerprint)

/-- The fingers of a user. -/
def Records.prints (records : Records) (user : Name) : SortedMap Name Fingerprint :=
  (records.find? user).getD .empty

/-- The record of a finger. -/
def Records.get? (records : Records) (user name : Name) : Option Fingerprint :=
  (records.prints user).find? name

/-- Put a record under the given names. -/
def Records.put (records : Records) (user name : Name) (print : Fingerprint) : Records :=
  records.insert user ((records.prints user).insert name print)

/-- All records, user by user. -/
def Records.all (records : Records) : List Fingerprint :=
  records.entries.flatMap fun user => user.2.entries.map (·.2)

/-- The users that have a record. -/
def Records.nonempty (records : Records) : Records :=
  records.filterMap fun _ prints => if prints.entries = [] then none else some prints

/-! ### Serialized templates -/

/-- Whether a retained order names each of the 32 slots once, given the slots seen so far. -/
def orderValid : List UInt16 → List ℕ → Bool
  | [], _ => true
  | slot :: rest, seen =>
      if 32 ≤ slot.toNat ∨ slot.toNat ∈ seen then false
      else orderValid rest (slot.toNat :: seen)

/-- A capture that a profile-300 matcher can use. -/
def captureCompatible (view : CapturePayloadView) : Bool :=
  decide (view.mode = 1 ∧ view.descriptorBytes = 16 ∧ view.levels = 1 ∧ view.count ≤ 300)

/-- The checks on a loaded template; the text says what is wrong. -/
def checkTemplate (t : LoadedTemplate) : Except String Unit :=
  if t.graph.capacity ≠ 32 ∨ t.collection.capacity ≠ 32 ∨ 32 < t.collection.captures.length then
    .error "incompatible native template"
  else if !orderValid ((t.graph.order.getD []).take 32) [] then .error "invalid retained order"
  else if 32 < t.graph.protectedCount.toNat ∨ 32 < t.graph.protectedLimit.toNat then
    .error "invalid retained protection"
  else if !t.collection.captures.all (fun c => captureCompatible c.view) then
    .error "incompatible profile300 capture"
  else .ok ()

/-- The checks on a serialized template. -/
def validateNative (bytes : List UInt8) : Except String Unit :=
  if 200000 < bytes.length then .error "incompatible native template"
  else
    match templateLoadDefault bytes 32 0 with
    | .error _ => .error "incompatible native template"
    | .ok t => checkTemplate t

/-- The bytes of a template. -/
def serializeNativeTemplate (t : LoadedTemplate) : Except String (List UInt8) :=
  let views := t.collection.captures.map LoadedCapture.view
  match templateSize t.graph views t.collection.capacity 32 with
  | .error _ => .error "native template size failed"
  | .ok size =>
      match templateSerializeDefault t.graph views t.collection.capacity t.metadata 32 size with
      | .error _ => .error "native template serialization failed"
      | .ok bytes => .ok bytes

/-! ### The storage -/

/-- The storage in memory, with the flags the tasks of the daemon share. -/
structure FingerprintStorage where
  filename : Name
  key : List UInt8
  fingerprints : Records
  deadPixels : List UInt16
  /-- The 64-bit capture counter; it is never reset, and no run is long enough to wrap it. -/
  captureGeneration : ℕ
  operationActive : Bool
  sleeping : Bool
  readerReady : Bool
  hardwareId : UInt16
  deriving DecidableEq

/-- The storage before any database is opened. -/
def FingerprintStorage.initial : FingerprintStorage :=
  ⟨[], [], .empty, [], 0, false, false, false, 0x0111⟩

/-- The records of a user, oldest registration first, each with the name it is kept under. -/
def FingerprintStorage.ordered (s : FingerprintStorage) (user : Name) :
    List (Name × Fingerprint) :=
  (s.fingerprints.prints user).entries.insertionSort fun a b =>
    a.2.registration.toNat ≤ b.2.registration.toNat

def FingerprintStorage.getEnrolledCount (s : FingerprintStorage) (user : Name) : ℕ :=
  (s.fingerprints.prints user).entries.length

def FingerprintStorage.check (s : FingerprintStorage) (user name : Name) : Bool :=
  (s.fingerprints.get? user name).isSome

end Fpc
