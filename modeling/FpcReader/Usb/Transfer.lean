/-
**Transfers and handles.**

A transfer belongs to the object that started it until its callback has run; when the object is
released before, the callback frees the transfer.  Handles with transfers in flight are counted in a
map, and closing such a handle waits until the last callback.

The calls of the library check how they are used: what would be a use after free, a double free or a
close under a transfer is an error here, and so is a submission on a handle whose close has been
requested.  The library calls the callback of every transfer that it took once, at any later time.

Main definitions:

* `Fpc.UsbState` — transfers, the objects that own them, and the handles;
* `Fpc.USBTransfer.release`, `Fpc.USBTransfer.submit`, `Fpc.USBTransfer.resume` — the methods of an
  object, and the callback;
* `Fpc.deferUsbClose`, `Fpc.drainUsbCloses` — closing;
* `Fpc.usbStep` — what an action leads to.
-/

import FpcReader.Lib.SortedMap
import FpcReader.Lib.Transition

set_option relaxedAutoImplicit false
set_option autoImplicit false

namespace Fpc

/-! ### State -/

/-- What the library must not be asked to do. -/
inductive Misuse where
  | badTransfer
  | transferInFlight
  | handleClosed
  | closeRequested
  | handleBusy
  | objectReleased
  deriving DecidableEq, Repr

inductive TransferStatus where
  | allocated
  | inFlight
  | freed
  deriving DecidableEq, Repr

/-- A `libusb_transfer`; its user data is the object that started it, or null. -/
structure Transfer where
  devHandle : ℕ
  userData : Option ℕ
  status : TransferStatus
  deriving DecidableEq, Repr

/-- What an object runs next: nothing, `submit`, nothing until its callback, or `completed`. -/
inductive TransferPhase where
  | idle
  | armed
  | waiting
  | resumed
  deriving DecidableEq, Repr

structure USBTransfer where
  transfer : Option ℕ
  pending : Bool
  phase : TransferPhase
  deriving DecidableEq, Repr

/-- The entry of a handle in the map; the counter is a `size_t`, and there is never room for as many
transfers. -/
structure USBPendingHandle where
  transfers : ℕ
  closing : Bool
  interfaceNumber : ℤ
  deriving DecidableEq, Repr

/-- All transfers that were ever allocated and all objects, by number; the pending handles; the
handles that are open, and those among them whose close has been requested. -/
structure UsbState where
  transfers : List Transfer
  objects : List USBTransfer
  handles : SortedMap ℕ USBPendingHandle
  opened : List ℕ
  requested : List ℕ

def UsbState.initial : UsbState := ⟨[], [], .empty, [], []⟩

def UsbState.setTransfer (s : UsbState) (t : ℕ) (transfer : Transfer) : UsbState :=
  { s with transfers := s.transfers.set t transfer }

def UsbState.setObject (s : UsbState) (o : ℕ) (object : USBTransfer) : UsbState :=
  { s with objects := s.objects.set o object }

/-- A transfer is in flight on a handle. -/
def Transfer.fliesOn (transfer : Transfer) (handle : ℕ) : Bool :=
  decide (transfer.status = .inFlight) && decide (transfer.devHandle = handle)

/-- The number of transfers in flight on a handle. -/
def UsbState.inFlight (s : UsbState) (handle : ℕ) : ℕ :=
  s.transfers.countP fun transfer => transfer.fliesOn handle

/-! ### The library -/

/-- `libusb_alloc_transfer`; the new transfer gets the next number. -/
def libusbAllocTransfer (s : UsbState) (transfer : Transfer) : UsbState :=
  { s with transfers := s.transfers ++ [transfer] }

/-- The transfer of the given number, unless it has been freed. -/
def UsbState.transfer? (s : UsbState) (t : ℕ) : Except Misuse Transfer :=
  match s.transfers[t]? with
  | none => .error .badTransfer
  | some transfer => if transfer.status = .freed then .error .badTransfer else .ok transfer

/-- `libusb_free_transfer` -/
def libusbFreeTransfer (s : UsbState) (t : ℕ) : Except Misuse UsbState :=
  s.transfer? t >>= fun transfer =>
    if transfer.status = .inFlight then .error .transferInFlight
    else .ok (s.setTransfer t { transfer with status := .freed })

/-- `libusb_submit_transfer`; an error of the library leaves the transfer as it is. -/
def libusbSubmitTransfer (s : UsbState) (t : ℕ) (accepted : Bool) : Except Misuse UsbState :=
  s.transfer? t >>= fun transfer =>
    if transfer.status = .inFlight then .error .transferInFlight
    else if transfer.devHandle ∉ s.opened then .error .handleClosed
    else if transfer.devHandle ∈ s.requested then .error .closeRequested
    else .ok (if accepted then s.setTransfer t { transfer with status := .inFlight } else s)

/-- `libusb_close` -/
def libusbClose (s : UsbState) (handle : ℕ) : Except Misuse UsbState :=
  if handle ∉ s.opened then .error .handleClosed
  else if s.inFlight handle ≠ 0 then .error .handleBusy
  else
    .ok { s with
      opened := s.opened.filter (· ≠ handle)
      requested := s.requested.filter (· ≠ handle) }

/-! ### Handles -/

/-- Count down the transfers of a handle; its entry goes with the last one unless it is closing. -/
def finishUsbTransfer (s : UsbState) (handle : ℕ) : UsbState :=
  match s.handles.find? handle with
  | none => s
  | some entry =>
      let left : USBPendingHandle := { entry with transfers := entry.transfers - 1 }
      let handles :=
        if left.transfers = 0 ∧ left.closing = false then s.handles.erase handle
        else s.handles.insert handle left
      { s with handles := handles }

/-- Close a handle, or leave that for later when transfers are in flight on it. -/
def deferUsbClose (s : UsbState) (handle : ℕ) (interfaceNumber : ℤ) : Except Misuse UsbState :=
  if handle = 0 then .ok s
  else
    let s := { s with requested := handle :: s.requested }
    match s.handles.find? handle with
    | none => libusbClose s handle
    | some entry =>
        let entry := { entry with closing := true, interfaceNumber := interfaceNumber }
        .ok { s with handles := s.handles.insert handle entry }

def hasDeferredUsbCloses (s : UsbState) : Bool :=
  s.handles.entries.any fun entry => entry.2.closing

/-- Close the handle of an entry, if it is closing and nothing is in flight on it any more. -/
def drainEntry (s : UsbState) (entry : ℕ × USBPendingHandle) : Except Misuse UsbState :=
  if entry.2.closing = false ∨ entry.2.transfers ≠ 0 then .ok s
  else libusbClose { s with handles := s.handles.erase entry.1 } entry.1

def drainUsbCloses (s : UsbState) : Except Misuse UsbState :=
  s.handles.entries.foldlM drainEntry s

/-! ### Objects -/

def UsbState.object? (s : UsbState) (o : ℕ) : Except Misuse USBTransfer :=
  match s.objects[o]? with
  | none => .error .objectReleased
  | some object => .ok object

/-- Take the transfer from an object: its callback frees it when it is in flight. -/
def USBTransfer.release (s : UsbState) (o : ℕ) : Except Misuse UsbState :=
  s.object? o >>= fun object =>
    match object.transfer with
    | none => .ok s
    | some t =>
        (if object.pending then
          -- the transfer is cancelled, which only makes its callback come sooner
          s.transfer? t >>= fun transfer =>
            .ok (s.setTransfer t { transfer with userData := none })
        else libusbFreeTransfer s t) >>= fun s =>
          .ok (s.setObject o { object with transfer := none, pending := false })

/-- The task that awaits an object is cancelled, or its call has failed. -/
def USBTransfer.rest (s : UsbState) (o : ℕ) : Except Misuse UsbState :=
  s.object? o >>= fun object => .ok (s.setObject o { object with phase := .idle })

/-- `async_finalize` and the destructor. -/
def USBTransfer.finalize (s : UsbState) (o : ℕ) : Except Misuse UsbState :=
  release s o >>= fun s => rest s o

/-- `allocate`, and filling the transfer for a handle; either allocation may fail. -/
def USBTransfer.start (s : UsbState) (o handle : ℕ) (allocated buffered : Bool) :
    Except Misuse UsbState :=
  release s o >>= fun s =>
    if !allocated then rest s o
    else
      let t := s.transfers.length
      let s := libusbAllocTransfer s ⟨0, none, .allocated⟩
      if !buffered then libusbFreeTransfer s t >>= fun s => rest s o
      else
        s.object? o >>= fun object =>
          .ok ((s.setTransfer t ⟨handle, some o, .allocated⟩).setObject o
            { object with transfer := some t, phase := .armed })

/-- Submit the transfer of an object, and count it; a failure leaves no entry behind that counts
nothing. -/
def USBTransfer.submit (s : UsbState) (o : ℕ) (accepted : Bool) : Except Misuse UsbState :=
  s.object? o >>= fun object =>
    match object.transfer with
    | none => .error .badTransfer
    | some t =>
        s.transfer? t >>= fun transfer =>
          let handle := transfer.devHandle
          let entry := (s.handles.find? handle).getD ⟨0, false, -1⟩
          if entry.closing then rest s o
          else
            libusbSubmitTransfer s t accepted >>= fun s =>
              if accepted then
                let counted := { entry with transfers := entry.transfers + 1 }
                .ok { s.setObject o { object with pending := true, phase := .waiting } with
                  handles := s.handles.insert handle counted }
              else
                let handles := s.handles.insert handle entry
                .ok { s.setObject o { object with phase := .idle } with
                  handles := if entry.transfers = 0 then handles.erase handle else handles }

/-- The callback of a transfer.  It frees a transfer whose object is gone; otherwise it may touch
the object only while that still waits for this transfer. -/
def USBTransfer.resume (s : UsbState) (t : ℕ) : Except Misuse UsbState :=
  s.transfer? t >>= fun transfer =>
    let s := s.setTransfer t { transfer with status := .allocated }
    let s := finishUsbTransfer s transfer.devHandle
    match transfer.userData with
    | none => libusbFreeTransfer s t
    | some o =>
        s.object? o >>= fun object =>
          if object.transfer ≠ some t ∨ object.pending = false then .error .objectReleased
          else .ok (s.setObject o { object with pending := false, phase := .resumed })

/-- The result of a transfer is read. -/
def USBTransfer.completed (s : UsbState) (o : ℕ) : Except Misuse UsbState :=
  s.object? o >>= fun object =>
    match object.transfer with
    | none => .error .badTransfer
    | some t => s.transfer? t >>= fun _ => rest s o

/-! ### Runs -/

inductive UsbAction where
  | opens (handle : ℕ)
  | construct
  | start (object handle : ℕ) (allocated buffered : Bool)
  | submit (object : ℕ) (accepted : Bool)
  | callback (transfer : ℕ)
  | completed (object : ℕ)
  | release (object : ℕ)
  | deferClose (handle : ℕ) (interfaceNumber : ℤ)
  | drain
  deriving DecidableEq, Repr

/-- An object that is about to submit on a handle. -/
def UsbState.armedOn (s : UsbState) (handle : ℕ) (object : USBTransfer) : Bool :=
  decide (object.phase = .armed) &&
    object.transfer.any fun t => s.transfers[t]?.any fun transfer => transfer.devHandle = handle

/-- No object is about to submit on a handle. -/
def UsbState.quietOn (s : UsbState) (handle : ℕ) : Bool :=
  s.objects.all fun object => !s.armedOn handle object

/-- When an action can happen.  A call starts on a handle that is open and stays open.  The tasks
that use a handle are cancelled before it is closed, and cancelled tasks do not run again; where its
close is deferred, one that is about to submit may still come to that. -/
def UsbAction.enabled (s : UsbState) : UsbAction → Bool
  | .opens handle => decide (handle ≠ 0 ∧ handle ∉ s.opened)
  | .construct => true
  | .start o handle _ _ =>
      decide (o < s.objects.length ∧ handle ∈ s.opened ∧ handle ∉ s.requested)
  | .submit o _ => s.objects[o]?.any fun object => object.phase = .armed
  | .callback t => s.transfers[t]?.any fun transfer => transfer.status = .inFlight
  | .completed o => s.objects[o]?.any fun object => object.phase = .resumed
  | .release o => decide (o < s.objects.length)
  | .deferClose handle _ =>
      decide (handle = 0 ∨ (handle ∈ s.opened ∧ handle ∉ s.requested)) &&
        ((s.handles.find? handle).isSome || s.quietOn handle)
  | .drain => s.requested.all s.quietOn

def UsbAction.perform (s : UsbState) : UsbAction → Except Misuse UsbState
  | .opens handle => .ok { s with opened := handle :: s.opened }
  | .construct => .ok { s with objects := s.objects ++ [⟨none, false, .idle⟩] }
  | .start o handle allocated buffered => USBTransfer.start s o handle allocated buffered
  | .submit o accepted => USBTransfer.submit s o accepted
  | .callback t => USBTransfer.resume s t
  | .completed o => USBTransfer.completed s o
  | .release o => USBTransfer.finalize s o
  | .deferClose handle interfaceNumber => deferUsbClose s handle interfaceNumber
  | .drain => drainUsbCloses s

def usbStep (s : UsbState) (action : UsbAction) : Option UsbState :=
  if action.enabled s then (action.perform s).toOption else none

end Fpc
