/-
**The database file.**

The file is a magic word, a nonce, the encrypted records and a tag.  Loading checks the size, the
magic word, the tag and every field of the plaintext, and validates every template.  Saving writes a
temporary file next to the database and renames it; everything that can go wrong on the way is an
outcome of the disk.

The cipher is not part of the sources: it is given as a structure with the one law the storage
relies on.

Main definitions:

* `Fpc.Cipher` — an authenticated cipher whose decryption inverts its encryption;
* `Fpc.parseDatabase`, `Fpc.loadDatabase` — loading;
* `Fpc.serializeDatabase`, `Fpc.Disk`, `Fpc.saveDatabase` — saving, and the ways it can fail.
-/

import FpcReader.Storage.Records

set_option relaxedAutoImplicit false
set_option autoImplicit false

namespace Fpc

open Bytes

/-! ### The cipher -/

/-- An authenticated stream cipher: key, associated data, nonce and text to text and tag. -/
structure Cipher where
  encrypt : List UInt8 → List UInt8 → List UInt8 → List UInt8 → List UInt8 × List UInt8
  decrypt : List UInt8 → List UInt8 → List UInt8 → List UInt8 → List UInt8 → Option (List UInt8)
  text_length : ∀ key aad nonce plain, (encrypt key aad nonce plain).1.length = plain.length
  tag_length : ∀ key aad nonce plain, (encrypt key aad nonce plain).2.length = 16
  decrypt_encrypt : ∀ key aad nonce plain,
    decrypt key aad nonce (encrypt key aad nonce plain).1 (encrypt key aad nonce plain).2 =
      some plain

/-- The magic word of a database. -/
def magic : List UInt8 := ascii "FPCNATV1"

def maximumFile : ℕ := 16 * 1024 * 1024

/-! ### Reading -/

/-- The next word. -/
def readWord (bytes : List UInt8) : Except String (ℕ × List UInt8) :=
  match cut 4 bytes with
  | none => .error "truncated native database"
  | some (word, rest) => .ok (leValue word, rest)

/-- The next `count` bytes. -/
def readTake (count : ℕ) (bytes : List UInt8) : Except String (List UInt8 × List UInt8) :=
  match cut count bytes with
  | none => .error "truncated native record"
  | some parts => .ok parts

/-- The next name: a length and that many bytes, none of them zero. -/
def readString (bytes : List UInt8) : Except String (Name × List UInt8) :=
  match readWord bytes with
  | .error e => .error e
  | .ok (count, rest) =>
      if count = 0 ∨ 256 < count then .error "invalid native name length"
      else
        match readTake count rest with
        | .error e => .error e
        | .ok (value, rest) =>
            if 0 ∈ value then .error "invalid native name" else .ok (value, rest)

/-- The words a database starts with: version, profile and hardware. -/
def profileWords (hardwareId : UInt16) : List ℕ := [1, 300, 112, 88, 26, hardwareId.toNat]

/-- Read the given words, one after the other. -/
def readProfile : List ℕ → List UInt8 → Except String (List UInt8)
  | [], bytes => .ok bytes
  | word :: words, bytes =>
      match readWord bytes with
      | .error e => .error e
      | .ok (found, rest) =>
          if found ≠ word then .error "native database profile mismatch"
          else readProfile words rest

/-- The template of a record: a length, bytes, and the checks on them. -/
def readNative (bytes : List UInt8) : Except String (List UInt8 × List UInt8) :=
  match readWord bytes with
  | .error e => .error e
  | .ok (length, rest) =>
      if 200000 < length then .error "native template too large"
      else
        match readTake length rest with
        | .error e => .error e
        | .ok (native, rest) =>
            match validateNative native with
            | .error e => .error e
            | .ok () => .ok (native, rest)

/-- The names and the template of a record. -/
def readPrint (registration : ℕ) (bytes : List UInt8) :
    Except String (Fingerprint × List UInt8) :=
  match readString bytes with
  | .error e => .error e
  | .ok (user, rest) =>
      match readString rest with
      | .error e => .error e
      | .ok (name, rest) =>
          if !Fingerprint.validName name then .error "invalid stored finger name"
          else
            match readNative rest with
            | .error e => .error e
            | .ok (native, rest) => .ok (⟨user, name, native, UInt32.ofNat registration⟩, rest)

/-- The next record; its registration is new and not zero. -/
def readRecord (registrations : List ℕ) (bytes : List UInt8) :
    Except String (Fingerprint × List UInt8) :=
  match readWord bytes with
  | .error e => .error e
  | .ok (registration, rest) =>
      if registration = 0 ∨ registration ∈ registrations then
        .error "invalid native registration"
      else readPrint registration rest

/-- The loop over the records. -/
def readRecords : ℕ → Records → List ℕ → List UInt8 → Except String (Records × List UInt8)
  | 0, parsed, _, bytes => .ok (parsed, bytes)
  | count + 1, parsed, registrations, bytes =>
      match readRecord registrations bytes with
      | .error e => .error e
      | .ok (print, rest) =>
          if (parsed.get? print.user print.name).isSome then .error "duplicate native record"
          else
            readRecords count (parsed.put print.user print.name print)
              (print.registration.toNat :: registrations) rest

/-- The records of a plaintext. -/
def parseDatabase (hardwareId : UInt16) (plain : List UInt8) : Except String Records :=
  match readProfile (profileWords hardwareId) plain with
  | .error e => .error e
  | .ok rest =>
      match readWord rest with
      | .error e => .error e
      | .ok (count, rest) =>
          if 1000 < count then .error "too many native records"
          else
            match readRecords count .empty [] rest with
            | .error e => .error e
            | .ok (parsed, rest) =>
                if rest ≠ [] then .error "trailing native database data" else .ok parsed

/-- The records of a database file, or of its absence. -/
def loadDatabase (cipher : Cipher) (key : List UInt8) (hardwareId : UInt16)
    (file : Option (List UInt8)) : Except String Records :=
  match file with
  | none => .ok .empty
  | some encrypted =>
      let size := encrypted.length
      if size < 36 ∨ maximumFile < size then .error "invalid native database size"
      else if encrypted.take 8 ≠ magic then .error "invalid native database header"
      else
        match cipher.decrypt key (encrypted.take 8) ((encrypted.drop 8).take 12)
            ((encrypted.drop 20).take (size - 36)) (encrypted.drop (size - 16)) with
        | none => .error "native database authentication failed"
        | some plain => parseDatabase hardwareId plain

/-! ### Writing -/

/-- The bytes of a name. -/
def appendString (value : Name) : Except String (List UInt8) :=
  if value = [] ∨ 256 < value.length ∨ 0 ∈ value then .error "invalid native record name"
  else .ok (storeLe32 value.length ++ value)

/-- The bytes of a record. -/
def appendRecord (print : Fingerprint) : Except String (List UInt8) :=
  match appendString print.user with
  | .error e => .error e
  | .ok user =>
      match appendString print.name with
      | .error e => .error e
      | .ok name =>
          .ok (storeLe32 print.registration.toNat ++ (user ++ (name ++
            (storeLe32 print.native.length ++ print.native))))

/-- The bytes of all records. -/
def appendRecords : List Fingerprint → Except String (List UInt8)
  | [] => .ok []
  | print :: prints =>
      match appendRecord print with
      | .error e => .error e
      | .ok bytes =>
          match appendRecords prints with
          | .error e => .error e
          | .ok rest => .ok (bytes ++ rest)

/-- The plaintext, unless there are too many records, a name is unfit or it is too large. -/
def serializeDatabase (hardwareId : UInt16) (records : Records) : Option (List UInt8) :=
  let prints := records.all
  let count := prints.length % 2 ^ 32
  if 1000 < count then none
  else
    match appendRecords prints with
    | .error _ => none
    | .ok bytes =>
        let plain := (profileWords hardwareId).flatMap storeLe32 ++
          (storeLe32 count ++ bytes)
        if maximumFile - 36 < plain.length then none else some plain

/-- The outcome of one call of `write`. -/
inductive WriteResult where
  | interrupted
  | wrote (count : ℕ)
  | failed
  deriving DecidableEq, Repr

/-- The outcomes of the calls a save makes: the random nonce, opening the directory, making the
temporary file and setting its mode, the writes, and so on.  After the listed writes the disk takes
what is left at once. -/
structure Disk where
  random : Option (Vector UInt8 12)
  openDirectory : Bool
  makeTemporary : Bool
  changeMode : Bool
  writes : List WriteResult
  syncFile : Bool
  closeFile : Bool
  rename : Bool
  syncDirectory : Bool
  deriving DecidableEq, Repr

/-- A disk on which everything goes well. -/
def Disk.sound (nonce : Vector UInt8 12) : Disk :=
  ⟨some nonce, true, true, true, [], true, true, true, true⟩

/-- The loop over the writes: what is left to write, and what the temporary file holds. -/
def writeAll : List WriteResult → List UInt8 → List UInt8 → Option (List UInt8)
  | [], data, file => some (file ++ data)
  | result :: results, data, file =>
      if data = [] then some file
      else
        match result with
        | .interrupted => writeAll results data file
        | .failed => none
        | .wrote count =>
            if count = 0 then none
            else writeAll results (data.drop count) (file ++ data.take count)

/-- Write the temporary file and rename it; the new contents of the database when it is renamed. -/
def commitFile (disk : Disk) (encrypted : List UInt8) : Option (List UInt8) :=
  if !disk.openDirectory || !disk.makeTemporary || !disk.changeMode then none
  else
    match writeAll disk.writes encrypted [] with
    | none => none
    | some written =>
        if disk.syncFile && disk.closeFile && disk.rename then some written else none

/-- The encrypted file for a plaintext. -/
def encryptDatabase (cipher : Cipher) (key nonce plain : List UInt8) : List UInt8 :=
  let sealed := cipher.encrypt key magic nonce plain
  magic ++ (nonce ++ (sealed.1 ++ sealed.2))

/-- The new contents of the database file, when saving succeeds.  Failing to sync the directory
after the rename is only logged. -/
def saveDatabase (cipher : Cipher) (disk : Disk) (s : FingerprintStorage) :
    Option (List UInt8) :=
  if s.key.length ≠ 32 ∨ s.filename = [] then none
  else
    match serializeDatabase s.hardwareId s.fingerprints with
    | none => none
    | some plain =>
        match disk.random with
        | none => none
        | some nonce => commitFile disk (encryptDatabase cipher s.key nonce.toList plain)

end Fpc
