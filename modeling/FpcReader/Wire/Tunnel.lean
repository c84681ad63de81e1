/-
**The TLS tunnel.**

Two tasks read frames: one from the bulk endpoint, one from the stream that TLS decrypts.  Frames of
the endpoint that carry TLS records go buffer by buffer into the TLS connection; all other frames
become events of one queue that both tasks share.  The TLS task first waits for the handshake and
announces it.  The tasks take turns in any order, a transfer may end anywhere in a frame, memory may
run out, and whatever a task waits for may fail or be cancelled.

Main definitions:

* `Fpc.StreamReader` — one task: its framer and where it stands;
* `Fpc.handleError` — what a task does about an error;
* `Fpc.readerFeed`, `Fpc.readerTurn`, `Fpc.readerCompleted` — a transfer, one turn between two
  awaits, and the end of a put or of a write;
* `Fpc.tunnelStep` — one step of either task.

Main results:

* `Fpc.TunnelInv.step` — what every step keeps;
* `Fpc.tunnel_delivers` — **in every run each task has put the events of its stream, in order, each
  once, and the TLS connection has been given the bodies of the TLS frames**;
* `Fpc.tunnel_finishes` — **a task whose puts and writes complete needs nothing else to deliver all
  that has arrived**.
-/

import FpcReader.Lib.Transition
import FpcReader.Wire.EventFramer

set_option relaxedAutoImplicit false
set_option autoImplicit false

namespace Fpc

open Framing Transition

/-! ### The tasks -/

/-- The task that reads the endpoint, and the one that reads what TLS decrypts. -/
inductive Source where
  | usb
  | tls
  deriving DecidableEq, Repr

/-- The code of the frames that carry TLS records. -/
def evTls : ℕ := 5

/-- Only the task of the endpoint routes frames into the TLS connection. -/
def Source.route : Source → ℕ → Bool
  | .usb => fun code => code == evTls
  | .tls => fun _ => false

/-- What a task puts into the queue. -/
inductive ReaderEvent where
  | tlsReady
  | frame (event : FramedEvent)
  | transportFailed
  deriving DecidableEq, Repr

/-- Where a task stands.  It awaits the handshake, a transfer, a put or a write; or it is about to
take a frame or to write the next buffer; or it has returned. -/
inductive ReaderMode where
  | accepting
  | reading
  | dispatching
  | putting (event : ReaderEvent)
  | handling (buffers : List (List UInt8))
  | writing (buffer : List UInt8) (buffers : List (List UInt8))
  | ended
  deriving DecidableEq, Repr

/-- A task.  What it has received so far, and whether it has given up something that it owed, are
kept for the statements; no step reads them. -/
structure StreamReader where
  pending : List UInt8
  mode : ReaderMode
  received : List UInt8
  gaveUp : Bool
  deriving DecidableEq, Repr

/-- The errors that the handlers tell apart: a cancellation, an error of the endpoint, another. -/
inductive ReaderError where
  | cancelled
  | usb
  | other
  deriving DecidableEq, Repr

/-- The error handlers.  Both return after a cancellation.  The TLS task puts a failure after every
other error, the task of the endpoint only after an error of the endpoint; others end it. -/
def handleError (source : Source) (reader : StreamReader) : ReaderError → StreamReader
  | .cancelled => { reader with mode := .ended }
  | .usb => { reader with mode := .putting .transportFailed }
  | .other =>
      match source with
      | .usb => { reader with mode := .ended }
      | .tls => { reader with mode := .putting .transportFailed }

/-- What a step comes to: the task after it, the bytes whose write has completed with it and the
events whose put has. -/
structure ReaderTurn where
  reader : StreamReader
  written : List UInt8
  events : List ReaderEvent
  deriving DecidableEq, Repr

/-- A step that completes neither a put nor a write. -/
def ReaderTurn.quiet (reader : StreamReader) : ReaderTurn := ⟨reader, [], []⟩

/-- The handshake ends, and the task announces it. -/
def readerAccepted (reader : StreamReader) : Option ReaderTurn :=
  if reader.mode = .accepting then some (.quiet { reader with mode := .putting .tlsReady })
  else none

/-- A transfer ends; it has filled at most one buffer.  What the framer throws, for want of memory
too, is thrown on as an error of the endpoint. -/
def readerFeed (source : Source) (memory : Bool) (reader : StreamReader) (chunk : List UInt8) :
    Option ReaderTurn :=
  if reader.mode = .reading ∧ chunk.length ≤ fpcBufferConfig.size then
    let reader := { reader with received := reader.received ++ chunk }
    match feed reader.pending chunk, memory with
    | .ok pending, true => some (.quiet { reader with pending := pending, mode := .dispatching })
    | _, _ => some (.quiet (handleError source { reader with gaveUp := true } .usb))
  else none

/-- One turn of `dispatch_frames` or of `handle_tls_data`.  A frame whose event finds no memory has
already been taken off the stream. -/
def readerTurn (source : Source) (memory : Bool) (reader : StreamReader) : Option ReaderTurn :=
  match reader.mode with
  | .dispatching =>
      match next reader.pending with
      | .error _ => some (.quiet (handleError source reader .usb))
      | .ok none => some (.quiet { reader with mode := .reading })
      | .ok (some (frame, rest)) =>
          let reader := { reader with pending := rest }
          if memory then
            let event := frameEvent fpcBufferConfig frame
            if source.route frame.code then
              some (.quiet { reader with mode := .handling event.buffers })
            else some (.quiet { reader with mode := .putting (.frame event) })
          else some (.quiet (handleError source { reader with gaveUp := true } .usb))
  | .handling [] => some (.quiet { reader with mode := .dispatching })
  | .handling (buffer :: buffers) =>
      some (.quiet { reader with mode := .writing buffer buffers })
  | _ => none

/-- Where a task goes on after a put. -/
def ReaderEvent.after : ReaderEvent → ReaderMode
  | .tlsReady => .reading
  | .frame _ => .dispatching
  | .transportFailed => .ended

/-- A put or a write completes. -/
def readerCompleted (reader : StreamReader) : Option ReaderTurn :=
  match reader.mode with
  | .putting event => some ⟨{ reader with mode := event.after }, [], [event]⟩
  | .writing buffer buffers => some ⟨{ reader with mode := .handling buffers }, buffer, []⟩
  | _ => none

/-- A task awaits something. -/
def ReaderMode.Awaits : ReaderMode → Bool
  | .accepting | .reading | .putting _ | .writing _ _ => true
  | _ => false

/-- A task holds the announcement, an event or a buffer that nothing else has yet. -/
def ReaderMode.Owes : ReaderMode → Bool
  | .accepting | .putting .tlsReady | .putting (.frame _) | .writing _ _ => true
  | _ => false

/-- What a task awaits fails. -/
def readerFailed (source : Source) (error : ReaderError) (reader : StreamReader) :
    Option ReaderTurn :=
  if reader.mode.Awaits then
    some (.quiet (handleError source
      { reader with gaveUp := reader.gaveUp || reader.mode.Owes } error))
  else none

/-! ### The session -/

/-- Both tasks, the bytes whose writes into the TLS connection have completed, and the events whose
puts into the queue have. -/
structure Tunnel where
  reader : Source → StreamReader
  bio : List UInt8
  queue : List (Source × ReaderEvent)

/-- Where a task begins. -/
def Source.startMode : Source → ReaderMode
  | .usb => .reading
  | .tls => .accepting

/-- A session begins with one task waiting for a transfer and the other for the handshake. -/
def Tunnel.start : Tunnel := ⟨fun source => ⟨[], source.startMode, [], false⟩, [], []⟩

inductive TunnelAction where
  | accepted (source : Source)
  | transfer (source : Source) (memory : Bool) (chunk : List UInt8)
  | turn (source : Source) (memory : Bool)
  | completed (source : Source)
  | failed (source : Source) (error : ReaderError)
  deriving DecidableEq, Repr

/-- The task that an action is a step of. -/
def TunnelAction.source : TunnelAction → Source
  | .accepted source => source
  | .transfer source _ _ => source
  | .turn source _ => source
  | .completed source => source
  | .failed source _ => source

/-- The step of the task. -/
def readerStep (reader : StreamReader) : TunnelAction → Option ReaderTurn
  | .accepted _ => readerAccepted reader
  | .transfer source memory chunk => readerFeed source memory reader chunk
  | .turn source memory => readerTurn source memory reader
  | .completed _ => readerCompleted reader
  | .failed source error => readerFailed source error reader

/-- The session after a step of one task. -/
def Tunnel.apply (s : Tunnel) (source : Source) (turn : ReaderTurn) : Tunnel where
  reader := Function.update s.reader source turn.reader
  bio := s.bio ++ turn.written
  queue := s.queue ++ turn.events.map fun event => (source, event)

def tunnelStep (s : Tunnel) (a : TunnelAction) : Option Tunnel :=
  (readerStep (s.reader a.source) a).map (s.apply a.source)

/-! ### What a task has delivered -/

/-- The events of some frames. -/
def eventsOf (route : ℕ → Bool) (frames : List WireFrame) : List ReaderEvent :=
  (frames.filter fun frame => !route frame.code).map fun frame =>
    .frame (frameEvent fpcBufferConfig frame)

/-- The bytes that some frames have for the TLS connection. -/
def recordsOf (route : ℕ → Bool) (frames : List WireFrame) : List UInt8 :=
  (frames.filter fun frame => route frame.code).flatMap WireFrame.body

@[simp]
theorem eventsOf_append (route : ℕ → Bool) (frames more : List WireFrame) :
    eventsOf route (frames ++ more) = eventsOf route frames ++ eventsOf route more := by
  simp [eventsOf]

@[simp]
theorem recordsOf_append (route : ℕ → Bool) (frames more : List WireFrame) :
    recordsOf route (frames ++ more) = recordsOf route frames ++ recordsOf route more := by
  simp [recordsOf]

/-- What a task has to put before any event of a frame. -/
def Source.greeting : Source → List ReaderEvent
  | .usb => []
  | .tls => [.tlsReady]

/-- What a task is to put for some frames of its stream. -/
def dueEvents (source : Source) (frames : List WireFrame) : List ReaderEvent :=
  source.greeting ++ eventsOf source.route frames

/-- What a task is to write for some frames of its stream. -/
def dueRecords (source : Source) (frames : List WireFrame) : List UInt8 :=
  recordsOf source.route frames

theorem dueEvents_append (source : Source) (frames more : List WireFrame) :
    dueEvents source (frames ++ more) =
      dueEvents source frames ++ eventsOf source.route more := by
  rw [dueEvents, eventsOf_append, ← List.append_assoc, ← dueEvents]

/-- The events that a task holds and has still to put. -/
def ReaderMode.unput : ReaderMode → List ReaderEvent
  | .accepting => [.tlsReady]
  | .putting .tlsReady => [.tlsReady]
  | .putting (.frame event) => [.frame event]
  | _ => []

/-- The bytes that a task holds and has still to write. -/
def ReaderMode.unwritten : ReaderMode → List UInt8
  | .handling buffers => buffers.flatten
  | .writing buffer buffers => buffer ++ buffers.flatten
  | _ => []

/-- The framer has no whole frame: before the first transfer, and while the task waits for one. -/
def ReaderMode.Drained : ReaderMode → Bool
  | .accepting | .putting .tlsReady | .reading => true
  | _ => false

/-- The task puts its failure, or it has returned. -/
def ReaderMode.Stopped : ReaderMode → Bool
  | .putting .transportFailed | .ended => true
  | _ => false

/-- A task that goes on has handed over some frames of its stream, but for what it holds; the rest
of the stream is what is pending. -/
structure Going (source : Source) (reader : StreamReader) (written : List UInt8)
    (events : List ReaderEvent) (frames : List WireFrame) : Prop where
  going : reader.mode.Stopped = false
  kept : reader.gaveUp = false
  stream : dispatchFrames reader.received =
    ⟨frames ++ (dispatchFrames reader.pending).frames, (dispatchFrames reader.pending).failed,
      (dispatchFrames reader.pending).pending⟩
  events_eq : events ++ reader.mode.unput = dueEvents source frames
  written_eq : written ++ reader.mode.unwritten = dueRecords source frames
  drained : reader.mode.Drained → next reader.pending = .ok none

/-- A task that has stopped has handed over the beginning of what its stream has, and all of it if
it has given up nothing; a failure may follow. -/
structure Stopped (source : Source) (reader : StreamReader) (written : List UInt8)
    (events put : List ReaderEvent) : Prop where
  stopped : reader.mode.Stopped
  events_eq : events = put ∨ reader.mode = .ended ∧ events = put ++ [.transportFailed]
  put_starts : put <+: dueEvents source (dispatchFrames reader.received).frames
  written_starts : written <+: dueRecords source (dispatchFrames reader.received).frames
  whole : reader.gaveUp = false →
    put = dueEvents source (dispatchFrames reader.received).frames ∧
      written = dueRecords source (dispatchFrames reader.received).frames

/-- What a task has delivered. -/
def Delivered (source : Source) (reader : StreamReader) (written : List UInt8)
    (events : List ReaderEvent) : Prop :=
  (∃ frames, Going source reader written events frames) ∨
    ∃ put, Stopped source reader written events put

@[simp]
theorem handleError_received (source : Source) (reader : StreamReader) (error : ReaderError) :
    (handleError source reader error).received = reader.received := by
  cases error <;> cases source <;> rfl

@[simp]
theorem handleError_gaveUp (source : Source) (reader : StreamReader) (error : ReaderError) :
    (handleError source reader error).gaveUp = reader.gaveUp := by
  cases error <;> cases source <;> rfl

/-- An error stops the task. -/
theorem handleError_stopped (source : Source) (reader : StreamReader) (error : ReaderError) :
    (handleError source reader error).mode.Stopped = true := by
  cases error <;> cases source <;> rfl

/-- More bytes take no frame back. -/
theorem dispatchFrames_grow (received chunk : List UInt8) :
    (dispatchFrames received).frames <+: (dispatchFrames (received ++ chunk)).frames := by
  rw [dispatchFrames, dispatchFrames, drain_append, Parsed.resume]
  split
  · exact List.prefix_rfl
  · exact List.prefix_append _ _

theorem dueEvents_mono {source : Source} {frames more : List WireFrame} (h : frames <+: more) :
    dueEvents source frames <+: dueEvents source more := by
  obtain ⟨rest, rfl⟩ := h
  rw [dueEvents_append]
  exact List.prefix_append _ _

theorem dueRecords_mono {source : Source} {frames more : List WireFrame} (h : frames <+: more) :
    dueRecords source frames <+: dueRecords source more := by
  obtain ⟨rest, rfl⟩ := h
  rw [dueRecords, dueRecords, recordsOf_append]
  exact List.prefix_append _ _

section Keeping

variable {source : Source} {reader : StreamReader} {written : List UInt8}
  {events : List ReaderEvent} {frames : List WireFrame} {t : ReaderTurn}

/-- What a task that goes on has handed over is the beginning of what its stream has. -/
theorem Going.delivered (h : Going source reader written events frames) :
    events <+: dueEvents source (dispatchFrames reader.received).frames ∧
      written <+: dueRecords source (dispatchFrames reader.received).frames := by
  have hframes : frames <+: (dispatchFrames reader.received).frames := by
    rw [h.stream]
    exact List.prefix_append _ _
  constructor
  · refine List.IsPrefix.trans ?_ (dueEvents_mono hframes)
    rw [← h.events_eq]
    exact List.prefix_append _ _
  · refine List.IsPrefix.trans ?_ (dueRecords_mono hframes)
    rw [← h.written_eq]
    exact List.prefix_append _ _

/-- A task that holds nothing and finds no frame has handed over all that its stream has. -/
theorem Going.whole (h : Going source reader written events frames)
    (hput : reader.mode.unput = []) (hwritten : reader.mode.unwritten = [])
    (hnone : (dispatchFrames reader.pending).frames = []) :
    events = dueEvents source (dispatchFrames reader.received).frames ∧
      written = dueRecords source (dispatchFrames reader.received).frames := by
  have hevents := h.events_eq
  have hrecords := h.written_eq
  rw [hput, List.append_nil] at hevents
  rw [hwritten, List.append_nil] at hrecords
  rw [h.stream, hnone, List.append_nil]
  exact ⟨hevents, hrecords⟩

/-- An error leaves what has been handed over as it is. -/
theorem stopped_handleError {error : ReaderError}
    (hturn : some (ReaderTurn.quiet (handleError source reader error)) = some t)
    (hput : events <+: dueEvents source (dispatchFrames reader.received).frames)
    (hwritten : written <+: dueRecords source (dispatchFrames reader.received).frames)
    (hwhole : reader.gaveUp = false →
      events = dueEvents source (dispatchFrames reader.received).frames ∧
        written = dueRecords source (dispatchFrames reader.received).frames) :
    Delivered source t.reader (written ++ t.written) (events ++ t.events) := by
  obtain rfl := Option.some.inj hturn
  rw [ReaderTurn.quiet, List.append_nil, List.append_nil]
  refine .inr ⟨events, handleError_stopped source reader error, .inl rfl, ?_, ?_, ?_⟩
  · rwa [handleError_received]
  · rwa [handleError_received]
  · rwa [handleError_received, handleError_gaveUp]

/-- A task that goes on with the same events and buffers to hand over, and with no frame taken. -/
theorem Going.goes_on (h : Going source reader written events frames) {mode : ReaderMode}
    (hgoing : mode.Stopped = false) (hput : mode.unput = reader.mode.unput)
    (hwrite : mode.unwritten = reader.mode.unwritten)
    (hdrained : mode.Drained → next reader.pending = .ok none) :
    Delivered source (ReaderTurn.quiet { reader with mode := mode }).reader
      (written ++ (ReaderTurn.quiet { reader with mode := mode }).written)
      (events ++ (ReaderTurn.quiet { reader with mode := mode }).events) := by
  refine .inl ⟨frames, hgoing, h.kept, h.stream, ?_, ?_, hdrained⟩
  · simpa [ReaderTurn.quiet, hput] using h.events_eq
  · simpa [ReaderTurn.quiet, hwrite] using h.written_eq

/-- **The handshake** leaves the announcement to be put. -/
theorem Going.accepted (h : Going source reader written events frames)
    (hturn : readerAccepted reader = some t) :
    Delivered source t.reader (written ++ t.written) (events ++ t.events) := by
  rw [readerAccepted] at hturn
  split_ifs at hturn with hmode
  obtain rfl := Option.some.inj hturn
  exact h.goes_on rfl (by rw [hmode]; rfl) (by rw [hmode]; rfl)
    fun _ => h.drained (by rw [hmode]; rfl)

/-- **A transfer** takes no frame off the stream; without memory its bytes are given up. -/
theorem Going.transfer (h : Going source reader written events frames) {memory : Bool}
    {chunk : List UInt8} (hturn : readerFeed source memory reader chunk = some t) :
    Delivered source t.reader (written ++ t.written) (events ++ t.events) := by
  rw [readerFeed] at hturn
  split_ifs at hturn with hready
  obtain ⟨hmode, hsize⟩ := hready
  have hdrained := h.drained (by rw [hmode]; rfl)
  have hchunk : chunk.length ≤ maximum := hsize.trans (by decide)
  have hmore := dispatchFrames_grow reader.received chunk
  simp only [feed_of_drained hdrained hchunk] at hturn
  cases memory with
  | true =>
      obtain rfl := Option.some.inj hturn
      have hevents := h.events_eq
      have hwritten := h.written_eq
      rw [hmode] at hevents hwritten
      have hstream : dispatchFrames reader.received = ⟨frames, none, reader.pending⟩ := by
        have hnone : dispatchFrames reader.pending = ⟨[], none, reader.pending⟩ :=
          drain_none eventFramer hdrained
        rw [h.stream, hnone, List.append_nil]
      refine .inl ⟨frames, rfl, h.kept, ?_, ?_, ?_, fun hdrains => by cases hdrains⟩
      · dsimp only [ReaderTurn.quiet]
        rw [dispatchFrames, drain_append, ← dispatchFrames, hstream]
        rfl
      · simpa [ReaderTurn.quiet, ReaderMode.unput] using hevents
      · simpa [ReaderTurn.quiet, ReaderMode.unwritten] using hwritten
  | false =>
      exact stopped_handleError hturn (h.delivered.1.trans (dueEvents_mono hmore))
        (h.delivered.2.trans (dueRecords_mono hmore)) fun hkept => by cases hkept

/-- Taking a frame off the stream. -/
theorem Going.stream_frame (h : Going source reader written events frames)
    {frame : WireFrame} {rest : List UInt8}
    (hnext : next reader.pending = .ok (some (frame, rest))) :
    dispatchFrames reader.received = ⟨(frames ++ [frame]) ++ (dispatchFrames rest).frames,
      (dispatchFrames rest).failed, (dispatchFrames rest).pending⟩ := by
  have hdrain : dispatchFrames reader.pending = ⟨frame :: (dispatchFrames rest).frames,
      (dispatchFrames rest).failed, (dispatchFrames rest).pending⟩ :=
    drain_frame eventFramer hnext
  rw [h.stream, hdrain, List.append_assoc]
  rfl

/-- **A turn** takes at most one frame off the stream, and holds what is to be handed over of it. -/
theorem Going.turn (h : Going source reader written events frames) {memory : Bool}
    (hturn : readerTurn source memory reader = some t) :
    Delivered source t.reader (written ++ t.written) (events ++ t.events) := by
  rw [readerTurn] at hturn
  cases hmode : reader.mode with
  | accepting | reading | putting | writing | ended => simp [hmode] at hturn
  | handling buffers =>
      rw [hmode] at hturn
      cases buffers with
      | nil | cons buffer buffers =>
          obtain rfl := Option.some.inj hturn
          exact h.goes_on rfl (by rw [hmode]; rfl) (by rw [hmode]; rfl)
            fun hdrains => by cases hdrains
  | dispatching =>
      have hwhole := h.whole (by rw [hmode]; rfl) (by rw [hmode]; rfl)
      have hevents : events = dueEvents source frames := by
        simpa [hmode, ReaderMode.unput] using h.events_eq
      have hwritten : written = dueRecords source frames := by
        simpa [hmode, ReaderMode.unwritten] using h.written_eq
      rw [hmode] at hturn
      dsimp only at hturn
      cases hnext : next reader.pending with
      | error text =>
          rw [hnext] at hturn
          have hnone : (dispatchFrames reader.pending).frames = [] := by
            rw [dispatchFrames, drain_error eventFramer hnext]
          exact stopped_handleError hturn h.delivered.1 h.delivered.2 fun _ => hwhole hnone
      | ok taken =>
          rw [hnext] at hturn
          cases taken with
          | none =>
              obtain rfl := Option.some.inj hturn
              exact h.goes_on rfl (by rw [hmode]; rfl) (by rw [hmode]; rfl) fun _ => hnext
          | some taken =>
              obtain ⟨frame, rest⟩ := taken
              have htaken := h.stream_frame hnext
              cases memory with
              | false =>
                  exact stopped_handleError hturn h.delivered.1 h.delivered.2
                    fun hkept => by cases hkept
              | true =>
                  cases hroute : source.route frame.code with
                  | true =>
                      simp only [hroute, if_true, Option.some.injEq] at hturn
                      subst hturn
                      refine .inl ⟨frames ++ [frame], rfl, h.kept, htaken, ?_, ?_,
                        fun hdrains => by cases hdrains⟩
                      · simp [ReaderTurn.quiet, ReaderMode.unput, hevents, dueEvents_append,
                          eventsOf, hroute]
                      · simp [ReaderTurn.quiet, ReaderMode.unwritten, hwritten, dueRecords,
                          recordsOf, hroute, frameEvent_body]
                  | false =>
                      simp only [hroute, if_true, Bool.false_eq_true, if_false,
                        Option.some.injEq] at hturn
                      subst hturn
                      refine .inl ⟨frames ++ [frame], rfl, h.kept, htaken, ?_, ?_,
                        fun hdrains => by cases hdrains⟩
                      · simp [ReaderTurn.quiet, ReaderMode.unput, hevents, dueEvents_append,
                          eventsOf, hroute]
                      · simp [ReaderTurn.quiet, ReaderMode.unwritten, hwritten, dueRecords,
                          recordsOf, hroute]

/-- **A put or a write that completes** hands over what the task holds. -/
theorem Going.completed (h : Going source reader written events frames)
    (hturn : readerCompleted reader = some t) :
    Delivered source t.reader (written ++ t.written) (events ++ t.events) := by
  have ⟨hgoing, hkept, hstream, hevents, hwritten, hdrained⟩ := h
  rw [readerCompleted] at hturn
  cases hmode : reader.mode with
  | accepting | reading | dispatching | handling | ended => simp [hmode] at hturn
  | writing buffer buffers =>
      rw [hmode] at hturn hevents hwritten
      obtain rfl := Option.some.inj hturn
      refine .inl ⟨frames, rfl, hkept, hstream, ?_, ?_, fun hdrains => by cases hdrains⟩
      · simpa [ReaderMode.unput] using hevents
      · simpa [ReaderMode.unwritten] using hwritten
  | putting event =>
      rw [hmode] at hturn hevents hwritten hgoing hdrained
      obtain rfl := Option.some.inj hturn
      cases event with
      | transportFailed => cases hgoing
      | tlsReady =>
          refine .inl ⟨frames, rfl, hkept, hstream, ?_, ?_, fun _ => hdrained rfl⟩
          · simpa [ReaderEvent.after, ReaderMode.unput] using hevents
          · simpa [ReaderEvent.after, ReaderMode.unwritten] using hwritten
      | frame event =>
          refine .inl ⟨frames, rfl, hkept, hstream, ?_, ?_, fun hdrains => by cases hdrains⟩
          · simpa [ReaderEvent.after, ReaderMode.unput] using hevents
          · simpa [ReaderEvent.after, ReaderMode.unwritten] using hwritten

/-- **An await that fails** stops the task; what it holds then is given up. -/
theorem Going.failed (h : Going source reader written events frames) {error : ReaderError}
    (hturn : readerFailed source error reader = some t) :
    Delivered source t.reader (written ++ t.written) (events ++ t.events) := by
  rw [readerFailed] at hturn
  split_ifs at hturn with hawaits
  refine stopped_handleError hturn h.delivered.1 h.delivered.2 fun hgave => ?_
  replace hgave : reader.mode.Owes = false := by simpa [h.kept] using hgave
  have hgoing := h.going
  have hdrained := h.drained
  -- a task that awaits something and holds nothing waits for a transfer
  have hreading : reader.mode = .reading := by
    cases hmode : reader.mode with
    | reading => rfl
    | putting event =>
        rw [hmode] at hgave hgoing
        cases event <;> simp_all [ReaderMode.Owes, ReaderMode.Stopped]
    | accepting | dispatching | handling | writing | ended =>
        simp_all [ReaderMode.Owes, ReaderMode.Awaits]
  refine h.whole (by rw [hreading]; rfl) (by rw [hreading]; rfl) ?_
  rw [dispatchFrames, drain_none eventFramer (hdrained (by rw [hreading]; rfl))]

/-- A stopped task hands over at most its failure. -/
theorem Stopped.step {put : List ReaderEvent} {a : TunnelAction}
    (h : Stopped a.source reader written events put) (hturn : readerStep reader a = some t) :
    Delivered a.source t.reader (written ++ t.written) (events ++ t.events) := by
  have ⟨hstopped, hevents, hput, hwritten, hwhole⟩ := h
  cases hmode : reader.mode with
  | accepting | reading | dispatching | handling | writing =>
      simp [hmode, ReaderMode.Stopped] at hstopped
  | ended =>
      cases a <;> simp [readerStep, readerAccepted, readerFeed, readerTurn, readerCompleted,
        readerFailed, ReaderMode.Awaits, hmode] at hturn
  | putting event =>
      cases event with
      | tlsReady | frame => simp [hmode, ReaderMode.Stopped] at hstopped
      | transportFailed =>
          replace hevents : events = put := by simpa [hmode] using hevents
          subst hevents
          cases a with
          | accepted | transfer | turn =>
              simp [readerStep, readerAccepted, readerFeed, readerTurn, hmode] at hturn
          | completed source =>
              simp only [readerStep, readerCompleted, hmode, Option.some.injEq] at hturn
              subst hturn
              rw [List.append_nil]
              exact .inr ⟨events, rfl, .inr ⟨rfl, rfl⟩, hput, hwritten, hwhole⟩
          | failed source error =>
              simp only [readerStep, readerFailed, hmode, ReaderMode.Awaits, ReaderMode.Owes,
                Bool.or_false, if_true] at hturn
              exact stopped_handleError hturn hput hwritten hwhole

/-- **Every step of a task keeps what it has delivered.** -/
theorem Delivered.step {a : TunnelAction} (h : Delivered a.source reader written events)
    (hturn : readerStep reader a = some t) :
    Delivered a.source t.reader (written ++ t.written) (events ++ t.events) := by
  rcases h with ⟨frames, hgoing⟩ | ⟨put, hstopped⟩
  · cases a with
    | accepted source => exact hgoing.accepted hturn
    | transfer source memory chunk => exact hgoing.transfer hturn
    | turn source memory => exact hgoing.turn hturn
    | completed source => exact hgoing.completed hturn
    | failed source error => exact hgoing.failed hturn
  · exact hstopped.step hturn

/-- A step gives something up only where memory is refused, or where an await fails that the task
owes something at. -/
def TunnelAction.GivesUp (reader : StreamReader) : TunnelAction → Bool
  | .transfer _ memory _ => !memory
  | .turn _ memory => !memory
  | .failed _ _ => reader.mode.Owes
  | _ => false

/-- The bytes that arrive with a step. -/
def TunnelAction.arrived : TunnelAction → List UInt8
  | .transfer _ _ chunk => chunk
  | _ => []

/-- After a step the task has received what has arrived with it, does not wait for the handshake,
and has given up nothing new unless the step gives something up. -/
theorem Delivered.after {a : TunnelAction} (h : Delivered a.source reader written events)
    (hturn : readerStep reader a = some t) :
    t.reader.received = reader.received ++ a.arrived ∧ t.reader.mode ≠ .accepting ∧
      (reader.gaveUp = false → a.GivesUp reader = false → t.reader.gaveUp = false) := by
  have hstops : ∀ source r error, (handleError source r error).mode ≠ .accepting := by
    intro source r error haccepting
    have hstopped := handleError_stopped source r error
    rw [haccepting] at hstopped
    cases hstopped
  cases a with
  | accepted source =>
      simp only [readerStep, readerAccepted] at hturn
      split_ifs at hturn
      obtain rfl := Option.some.inj hturn
      exact ⟨(List.append_nil _).symm, nofun, fun hkept _ => hkept⟩
  | transfer source memory chunk =>
      simp only [readerStep, readerFeed] at hturn
      split_ifs at hturn with hready
      have hdrained : next reader.pending = .ok none := by
        rcases h with ⟨frames, hgoing⟩ | ⟨put, hstopped⟩
        · exact hgoing.drained (by rw [hready.1]; rfl)
        · have hmode := hstopped.stopped
          rw [hready.1] at hmode
          cases hmode
      simp only [feed_of_drained hdrained (hready.2.trans (by decide : _ ≤ maximum))] at hturn
      cases memory with
      | true =>
          obtain rfl := Option.some.inj hturn
          exact ⟨rfl, nofun, fun hkept _ => hkept⟩
      | false =>
          obtain rfl := Option.some.inj hturn
          exact ⟨handleError_received .., hstops _ _ _, fun _ => nofun⟩
  | turn source memory =>
      simp only [readerStep, readerTurn] at hturn
      split at hturn
      · split at hturn
        · obtain rfl := Option.some.inj hturn
          refine ⟨?_, hstops _ _ _, fun hkept _ => ?_⟩
          · simp [ReaderTurn.quiet, TunnelAction.arrived]
          · simpa [ReaderTurn.quiet] using hkept
        · obtain rfl := Option.some.inj hturn
          exact ⟨(List.append_nil _).symm, nofun, fun hkept _ => hkept⟩
        · cases memory with
          | true =>
              simp only [if_true] at hturn
              split_ifs at hturn <;> obtain rfl := Option.some.inj hturn <;>
                exact ⟨(List.append_nil _).symm, nofun, fun hkept _ => hkept⟩
          | false =>
              obtain rfl := Option.some.inj hturn
              refine ⟨?_, hstops _ _ _, fun _ => nofun⟩
              simp [ReaderTurn.quiet, TunnelAction.arrived]
      · obtain rfl := Option.some.inj hturn
        exact ⟨(List.append_nil _).symm, nofun, fun hkept _ => hkept⟩
      · obtain rfl := Option.some.inj hturn
        exact ⟨(List.append_nil _).symm, nofun, fun hkept _ => hkept⟩
      · cases hturn
  | completed source =>
      simp only [readerStep, readerCompleted] at hturn
      split at hturn
      · rename_i event hmode
        obtain rfl := Option.some.inj hturn
        refine ⟨(List.append_nil _).symm, ?_, fun hkept _ => hkept⟩
        cases event <;> exact nofun
      · obtain rfl := Option.some.inj hturn
        exact ⟨(List.append_nil _).symm, nofun, fun hkept _ => hkept⟩
      · cases hturn
  | failed source error =>
      simp only [readerStep, readerFailed] at hturn
      split_ifs at hturn
      obtain rfl := Option.some.inj hturn
      refine ⟨?_, hstops _ _ _, fun hkept howes => ?_⟩
      · simp [ReaderTurn.quiet, TunnelAction.arrived]
      · replace howes : reader.mode.Owes = false := howes
        simp [ReaderTurn.quiet, hkept, howes]

end Keeping

/-! ### Every run -/

/-- The events that a task has put. -/
def Tunnel.eventsFrom (s : Tunnel) (source : Source) : List ReaderEvent :=
  (s.queue.filter fun entry => entry.1 == source).map Prod.snd

/-- The bytes that a task has written: all of them are the endpoint task's. -/
def Tunnel.writtenBy (s : Tunnel) : Source → List UInt8
  | .usb => s.bio
  | .tls => []

/-- Each task has delivered what it owes of its stream. -/
def TunnelInv (s : Tunnel) : Prop :=
  ∀ source, Delivered source (s.reader source) (s.writtenBy source) (s.eventsFrom source)

theorem tunnelInv_start : TunnelInv Tunnel.start := by
  intro source
  have hempty : dispatchFrames [] = ⟨[], none, []⟩ := drain_none eventFramer rfl
  cases source with
  | usb => exact .inl ⟨[], rfl, rfl, by simp [Tunnel.start, hempty], rfl, rfl, fun _ => rfl⟩
  | tls => exact .inl ⟨[], rfl, rfl, by simp [Tunnel.start, hempty], rfl, rfl, fun _ => rfl⟩

/-- Nothing of what TLS decrypts goes back into the TLS connection. -/
theorem dueRecords_tls (frames : List WireFrame) : dueRecords .tls frames = [] := by
  simp [dueRecords, recordsOf, Source.route]

section Session

variable {s : Tunnel} {source other : Source} {t : ReaderTurn}

/-- What the other task has put stays as it is. -/
theorem Tunnel.eventsFrom_apply (s : Tunnel) (source other : Source) (t : ReaderTurn) :
    (s.apply source t).eventsFrom other =
      s.eventsFrom other ++ if source = other then t.events else [] := by
  rw [Tunnel.eventsFrom, Tunnel.apply, List.filter_append, List.map_append, ← Tunnel.eventsFrom]
  congr 1
  by_cases hsame : source = other
  · subst hsame
    simp [List.filter_map, Function.comp_def]
  · simp [List.filter_map, Function.comp_def, hsame]

/-- The TLS task writes nothing. -/
theorem Delivered.tls_written {reader : StreamReader} {written : List UInt8}
    {events : List ReaderEvent} (h : Delivered .tls reader written events) : written = [] := by
  rcases h with ⟨frames, hgoing⟩ | ⟨put, hstopped⟩
  · have hwritten := hgoing.written_eq
    rw [dueRecords_tls, List.append_eq_nil_iff] at hwritten
    exact hwritten.1
  · have hwritten := hstopped.written_starts
    rw [dueRecords_tls, List.prefix_nil] at hwritten
    exact hwritten

/-- **A step of one task keeps what both have delivered.** -/
theorem TunnelInv.apply (hinv : TunnelInv s)
    (hturn : Delivered source t.reader (s.writtenBy source ++ t.written)
      (s.eventsFrom source ++ t.events)) : TunnelInv (s.apply source t) := by
  intro other
  have hsilent : source = .tls → t.written = [] := by
    rintro rfl
    exact (List.append_eq_nil_iff.1 hturn.tls_written).2
  by_cases hsame : source = other
  · subst hsame
    have hwritten : (s.apply source t).writtenBy source = s.writtenBy source ++ t.written := by
      cases source with
      | usb => rfl
      | tls => simp [Tunnel.writtenBy, hsilent]
    rw [Tunnel.eventsFrom_apply, if_pos rfl, hwritten]
    simpa [Tunnel.apply] using hturn
  · have hwritten : (s.apply source t).writtenBy other = s.writtenBy other := by
      cases other with
      | tls => rfl
      | usb =>
          cases source with
          | usb => exact absurd rfl hsame
          | tls => simp [Tunnel.writtenBy, Tunnel.apply, hsilent]
    rw [Tunnel.eventsFrom_apply, if_neg hsame, List.append_nil, hwritten]
    simpa [Tunnel.apply, Function.update_of_ne (Ne.symm hsame)] using hinv other

end Session

/-- **Every step of either task keeps what both have delivered.** -/
theorem TunnelInv.step {s s' : Tunnel} {a : TunnelAction} (hinv : TunnelInv s)
    (hstep : tunnelStep s a = some s') : TunnelInv s' := by
  obtain ⟨t, hturn, rfl⟩ := Option.map_eq_some_iff.mp hstep
  exact hinv.apply ((hinv a.source).step hturn)

/-- The bytes that have arrived for a task. -/
def streamOf (source : Source) (actions : List TunnelAction) : List UInt8 :=
  (actions.filter fun a => a.source == source).flatMap TunnelAction.arrived

theorem streamOf_cons (source : Source) (a : TunnelAction) (actions : List TunnelAction) :
    streamOf source (a :: actions) =
      (if a.source = source then a.arrived else []) ++ streamOf source actions := by
  by_cases hsame : a.source = source
  · simp [streamOf, hsame]
  · simp [streamOf, hsame]

/-- One step adds to what a task has received the transfer it has got, if it has got one. -/
theorem received_step {s s' : Tunnel} {a : TunnelAction} (hinv : TunnelInv s)
    (hstep : tunnelStep s a = some s') (source : Source) : (s'.reader source).received =
      (s.reader source).received ++ if a.source = source then a.arrived else [] := by
  obtain ⟨t, hturn, rfl⟩ := Option.map_eq_some_iff.mp hstep
  by_cases hsame : a.source = source
  · subst hsame
    simp [Tunnel.apply, ((hinv a.source).after hturn).1]
  · simp [Tunnel.apply, hsame, Function.update_of_ne (Ne.symm hsame)]

/-- A run keeps what both tasks have delivered, and adds what has arrived. -/
theorem TunnelInv.run {s s' : Tunnel} {actions : List TunnelAction} (hinv : TunnelInv s)
    (hrun : run tunnelStep s actions = some s') :
    TunnelInv s' ∧ ∀ source,
      (s'.reader source).received = (s.reader source).received ++ streamOf source actions := by
  induction actions generalizing s with
  | nil =>
      obtain rfl := Option.some.inj hrun
      exact ⟨hinv, fun source => (List.append_nil _).symm⟩
  | cons a actions ih =>
      obtain ⟨m, hstep, hrest⟩ := run_cons.1 hrun
      obtain ⟨hinv', hreceived⟩ := ih (hinv.step hstep) hrest
      refine ⟨hinv', fun source => ?_⟩
      rw [hreceived source, received_step hinv hstep source, streamOf_cons source a actions,
        List.append_assoc]

/-- The steps of a task all give nothing up. -/
def KeepsAll (source : Source) (s : Tunnel) (actions : List TunnelAction) : Prop :=
  EveryStep tunnelStep (fun s a _ => a.source = source → a.GivesUp (s.reader source) = false) s
    actions

theorem TunnelInv.kept {s s' : Tunnel} {a : TunnelAction} {source : Source} (hinv : TunnelInv s)
    (hkept : (s.reader source).gaveUp = false)
    (hgives : a.source = source → a.GivesUp (s.reader source) = false)
    (hstep : tunnelStep s a = some s') : (s'.reader source).gaveUp = false := by
  obtain ⟨t, hturn, rfl⟩ := Option.map_eq_some_iff.mp hstep
  by_cases hsame : a.source = source
  · subst hsame
    simpa [Tunnel.apply] using ((hinv a.source).after hturn).2.2 hkept (hgives rfl)
  · simpa [Tunnel.apply, Function.update_of_ne (Ne.symm hsame)] using hkept

/-- A task whose steps give nothing up has given nothing up. -/
theorem TunnelInv.run_kept {s s' : Tunnel} {actions : List TunnelAction} {source : Source}
    (hinv : TunnelInv s) (hkept : (s.reader source).gaveUp = false)
    (hall : KeepsAll source s actions) (hrun : Transition.run tunnelStep s actions = some s') :
    (s'.reader source).gaveUp = false := by
  induction actions generalizing s with
  | nil =>
      obtain rfl := Option.some.inj hrun
      exact hkept
  | cons a actions ih =>
      obtain ⟨m, hstep, hrest⟩ := run_cons.1 hrun
      obtain ⟨hgives, hall'⟩ := hall m hstep
      exact ih (hinv.step hstep) (hinv.kept hkept hgives hstep) hall' hrest

/-! ### What a run has delivered -/

section Against

variable {source : Source} {reader : StreamReader} {written : List UInt8}
  {events : List ReaderEvent}

/-- A task has put the beginning of what its stream has, then at most its failure. -/
theorem Delivered.against (h : Delivered source reader written events) :
    (∃ put, put <+: dueEvents source (dispatchFrames reader.received).frames ∧
      (events = put ∨ reader.mode = .ended ∧ events = put ++ [.transportFailed])) ∧
      written <+: dueRecords source (dispatchFrames reader.received).frames := by
  rcases h with ⟨frames, hgoing⟩ | ⟨put, hstopped⟩
  · exact ⟨⟨events, hgoing.delivered.1, .inl rfl⟩, hgoing.delivered.2⟩
  · exact ⟨⟨put, hstopped.put_starts, hstopped.events_eq⟩, hstopped.written_starts⟩

/-- A task that waits for a transfer has handed over all that its stream has. -/
theorem Delivered.reading (h : Delivered source reader written events)
    (hmode : reader.mode = .reading) :
    events = dueEvents source (dispatchFrames reader.received).frames ∧
      written = dueRecords source (dispatchFrames reader.received).frames := by
  rcases h with ⟨frames, hgoing⟩ | ⟨put, hstopped⟩
  · refine hgoing.whole (by rw [hmode]; rfl) (by rw [hmode]; rfl) ?_
    rw [dispatchFrames, drain_none eventFramer (hgoing.drained (by rw [hmode]; rfl))]
  · have hmode' := hstopped.stopped
    rw [hmode] at hmode'
    cases hmode'

/-- A task that has returned and has given up nothing has handed over all that its stream has. -/
theorem Delivered.ended (h : Delivered source reader written events)
    (hmode : reader.mode = .ended) (hkept : reader.gaveUp = false) :
    (events = dueEvents source (dispatchFrames reader.received).frames ∨
      events = dueEvents source (dispatchFrames reader.received).frames ++ [.transportFailed]) ∧
      written = dueRecords source (dispatchFrames reader.received).frames := by
  rcases h with ⟨frames, hgoing⟩ | ⟨put, hstopped⟩
  · have hmode' := hgoing.going
    rw [hmode] at hmode'
    cases hmode'
  · obtain ⟨rfl, hwritten⟩ := hstopped.whole hkept
    exact ⟨hstopped.events_eq.imp_right And.right, hwritten⟩

end Against

/-- **Nothing is doubled or reordered, and nothing is lost but what a task gives up.**  In every
run, what a task has put into the queue is the beginning of what it is to put for its stream, and
then at most one failure, its last event; what the TLS connection has been given is the beginning
of the bodies of the TLS frames.  A task that waits for a transfer, or that has returned and has
given up nothing, has delivered every frame that has arrived whole; and a task gives something up
only where it is refused memory, or where an await fails that it owes something at. -/
theorem tunnel_delivers {actions : List TunnelAction} {s : Tunnel}
    (hrun : run tunnelStep Tunnel.start actions = some s) :
    (∀ source,
      (∃ put, put <+: dueEvents source (dispatchFrames (streamOf source actions)).frames ∧
        (s.eventsFrom source = put ∨
          (s.reader source).mode = .ended ∧ s.eventsFrom source = put ++ [.transportFailed])) ∧
      ((s.reader source).mode = .reading → s.eventsFrom source =
        dueEvents source (dispatchFrames (streamOf source actions)).frames) ∧
      ((s.reader source).mode = .ended → (s.reader source).gaveUp = false →
        s.eventsFrom source =
            dueEvents source (dispatchFrames (streamOf source actions)).frames ∨
          s.eventsFrom source =
            dueEvents source (dispatchFrames (streamOf source actions)).frames ++
              [.transportFailed]) ∧
      (KeepsAll source Tunnel.start actions → (s.reader source).gaveUp = false)) ∧
      (s.bio <+: dueRecords .usb (dispatchFrames (streamOf .usb actions)).frames) ∧
      ((s.reader .usb).mode = .reading ∨
        (s.reader .usb).mode = .ended ∧ (s.reader .usb).gaveUp = false →
          s.bio = dueRecords .usb (dispatchFrames (streamOf .usb actions)).frames) := by
  obtain ⟨hinv, hreceived⟩ := tunnelInv_start.run hrun
  have hstream : ∀ source, (s.reader source).received = streamOf source actions := hreceived
  refine ⟨fun source => ?_, ?_, ?_⟩
  · rw [← hstream source]
    exact ⟨(hinv source).against.1, fun hmode => ((hinv source).reading hmode).1,
      fun hmode hkept => ((hinv source).ended hmode hkept).1,
      fun hall => tunnelInv_start.run_kept rfl hall hrun⟩
  · rw [← hstream .usb]
    exact (hinv .usb).against.2
  · rw [← hstream .usb]
    rintro (hmode | ⟨hmode, hkept⟩)
    · exact ((hinv .usb).reading hmode).2
    · exact ((hinv .usb).ended hmode hkept).2

/-! ### A task on its own -/

/-- A task awaits a put or a write. -/
def ReaderMode.HandsOver : ReaderMode → Bool
  | .putting _ | .writing _ _ => true
  | _ => false

/-- A step that a task makes on its own, with the memory it asks for: a turn, or the end of a put or
of a write in a session where it completes. -/
def OwnStep (completes : Tunnel → Prop) (source : Source) (s : Tunnel) (a : TunnelAction) : Prop :=
  a = .turn source true ∨ a = .completed source ∧ completes s

/-- Every put and every write that the task comes to on its own completes. -/
def Served (completes : Tunnel → Prop) (source : Source) (s : Tunnel) : Prop :=
  ∀ s', Reaches tunnelStep (OwnStep completes source) (· = s) s' →
    (s'.reader source).mode.HandsOver → completes s'

/-- How far a task is from the end of the frame that it handles. -/
def ReaderMode.rank : ReaderMode → ℕ
  | .accepting | .reading | .ended => 0
  | .putting .transportFailed => 1
  | .dispatching => 2
  | .putting _ => 3
  | .handling buffers => 2 * buffers.length + 3
  | .writing _ buffers => 2 * buffers.length + 4

/-- A task waits for its peer, or it has returned. -/
def ReaderMode.Rests : ReaderMode → Bool
  | .accepting | .reading | .ended => true
  | _ => false

/-- A task that does not rest can go on, and comes closer to the end of its pending bytes. -/
theorem readerStep_progress (source : Source) {reader : StreamReader}
    (hmode : reader.mode.Rests = false) :
    ∃ a t, (a = .turn source true ∨ a = .completed source ∧ reader.mode.HandsOver) ∧
      readerStep reader a = some t ∧
        Prod.Lex (· < ·) (· < ·) (t.reader.pending.length, t.reader.mode.rank)
          (reader.pending.length, reader.mode.rank) := by
  obtain ⟨pending, mode, received, gaveUp⟩ := reader
  cases mode with
  | accepting | reading | ended => cases hmode
  | putting event =>
      refine ⟨.completed source, _, .inr ⟨rfl, rfl⟩, rfl, .right _ ?_⟩
      cases event <;> simp [ReaderEvent.after, ReaderMode.rank]
  | writing buffer buffers =>
      exact ⟨.completed source, _, .inr ⟨rfl, rfl⟩, rfl, .right _ (by simp [ReaderMode.rank])⟩
  | handling buffers =>
      cases buffers with
      | nil =>
          refine ⟨.turn source true, _, .inl rfl, rfl, .right _ ?_⟩
          simp [ReaderTurn.quiet, ReaderMode.rank]
      | cons buffer buffers =>
          refine ⟨.turn source true, _, .inl rfl, rfl, .right _ ?_⟩
          simp only [ReaderTurn.quiet, ReaderMode.rank, List.length_cons]
          omega
  | dispatching =>
      cases hnext : next pending with
      | error text =>
          refine ⟨.turn source true,
            .quiet (handleError source ⟨pending, .dispatching, received, gaveUp⟩ .usb), .inl rfl,
            by simp only [readerStep, readerTurn, hnext], .right _ ?_⟩
          simp [ReaderTurn.quiet, handleError, ReaderMode.rank]
      | ok taken =>
          cases taken with
          | none =>
              refine ⟨.turn source true, .quiet ⟨pending, .reading, received, gaveUp⟩, .inl rfl,
                by simp only [readerStep, readerTurn, hnext], .right _ ?_⟩
              simp [ReaderTurn.quiet, ReaderMode.rank]
          | some taken =>
              obtain ⟨frame, rest⟩ := taken
              have hshorter : rest.length < pending.length := eventFramer.shorter hnext
              cases hroute : source.route frame.code with
              | true =>
                  exact ⟨.turn source true, .quiet ⟨rest,
                    .handling (frameEvent fpcBufferConfig frame).buffers, received, gaveUp⟩,
                    .inl rfl, by simp [readerStep, readerTurn, hnext, hroute],
                    .left _ _ hshorter⟩
              | false =>
                  exact ⟨.turn source true, .quiet ⟨rest,
                    .putting (.frame (frameEvent fpcBufferConfig frame)), received, gaveUp⟩,
                    .inl rfl, by simp [readerStep, readerTurn, hnext, hroute],
                    .left _ _ hshorter⟩

/-- **A served task comes to rest by its own steps.** -/
theorem Served.rests {completes : Tunnel → Prop} {source : Source} {s : Tunnel}
    (hserved : Served completes source s) :
    ∃ s', Reaches tunnelStep (OwnStep completes source) (· = s) s' ∧
      (s'.reader source).mode.Rests := by
  by_cases hrests : (s.reader source).mode.Rests
  · exact ⟨s, .start rfl, hrests⟩
  obtain ⟨a, t, hown, hturn, hcloser⟩ :=
    readerStep_progress source (Bool.eq_false_of_not_eq_true hrests)
  have hsource : a.source = source := by
    rcases hown with rfl | ⟨rfl, -⟩ <;> rfl
  have hok : OwnStep completes source s a :=
    hown.imp_right fun ⟨ha, hhands⟩ => ⟨ha, hserved s (.start rfl) hhands⟩
  have hstep : tunnelStep s a = some (s.apply source t) := by
    rw [tunnelStep, hsource, hturn]
    rfl
  have hreach : Reaches tunnelStep (OwnStep completes source) (· = s) (s.apply source t) :=
    .step (.start rfl) hok hstep
  have hreader : (s.apply source t).reader source = t.reader := by simp [Tunnel.apply]
  obtain ⟨s', hrest, hmode⟩ : ∃ s', Reaches tunnelStep (OwnStep completes source)
      (· = s.apply source t) s' ∧ (s'.reader source).mode.Rests :=
    Served.rests fun s' hs' => hserved s' (hreach.trans hs')
  exact ⟨s', hreach.trans hrest, hmode⟩
termination_by ((s.reader source).pending.length, (s.reader source).mode.rank)
decreasing_by
  rw [hreader]
  exact hcloser

/-- With a task's own step nothing arrives, and it gives nothing up. -/
theorem OwnStep.quiet {completes : Tunnel → Prop} {source : Source} {s : Tunnel}
    {a : TunnelAction} (hown : OwnStep completes source s a) :
    a.source = source ∧ a.arrived = [] ∧ ∀ reader, a.GivesUp reader = false := by
  rcases hown with rfl | ⟨rfl, -⟩
  · exact ⟨rfl, rfl, fun _ => rfl⟩
  · exact ⟨rfl, rfl, fun _ => rfl⟩

/-- A TLS record that arrives in two transfers and an event behind it, while the TLS task announces
the handshake, puts one event and finds no memory for another. -/
def tunnelDemo : List TunnelAction :=
  [.transfer .usb true [0, 0, 0, 5, 0, 0, 0, 14, 0, 0], .turn .usb true, .accepted .tls,
    .transfer .usb true [0, 0, 7, 9, 0, 0, 0, 2, 0, 0, 0, 12, 0, 0, 0, 0], .completed .tls,
    .turn .usb true,
    .transfer .tls true
      [0, 0, 0, 3, 0, 0, 0, 12, 0, 0, 0, 0, 0, 0, 0, 4, 0, 0, 0, 12, 0, 0, 0, 0],
    .turn .usb true, .turn .tls true, .completed .usb, .completed .tls, .turn .usb true,
    .turn .tls false, .turn .usb true, .completed .usb, .completed .tls, .turn .usb true]

/-- What the demonstration comes to. -/
theorem tunnelDemo_run : ∃ s, run tunnelStep Tunnel.start tunnelDemo = some s ∧ s.bio = [7, 9] ∧
    s.eventsFrom .usb = [.frame ⟨2, 12, 0, []⟩] ∧
    s.eventsFrom .tls = [.tlsReady, .frame ⟨3, 12, 0, []⟩, .transportFailed] ∧
    (s.reader .usb).mode = .reading ∧ (s.reader .tls).gaveUp = true := by
  have hcomputed : (run tunnelStep Tunnel.start tunnelDemo).map (fun s => (s.bio,
      s.eventsFrom .usb, s.eventsFrom .tls, (s.reader .usb).mode, (s.reader .tls).gaveUp)) =
        some ([7, 9], [.frame ⟨2, 12, 0, []⟩],
          [.tlsReady, .frame ⟨3, 12, 0, []⟩, .transportFailed], .reading, true) := by
    decide +kernel
  obtain ⟨s, hrun, hs⟩ := Option.map_eq_some_iff.mp hcomputed
  simp only [Prod.mk.injEq] at hs
  exact ⟨s, hrun, hs⟩

theorem tunnel_delivers_demo : ∃ s, run tunnelStep Tunnel.start tunnelDemo = some s ∧
    s.bio = [7, 9] ∧ s.bio = dueRecords .usb (dispatchFrames (streamOf .usb tunnelDemo)).frames ∧
    [.frame ⟨2, 12, 0, []⟩] = dueEvents .usb (dispatchFrames (streamOf .usb tunnelDemo)).frames ∧
    ∃ put, put <+: dueEvents .tls (dispatchFrames (streamOf .tls tunnelDemo)).frames ∧
      put ++ [.transportFailed] = [.tlsReady, .frame ⟨3, 12, 0, []⟩, .transportFailed] := by
  obtain ⟨s, hrun, hbio, husb, htls, hmode, -⟩ := tunnelDemo_run
  obtain ⟨hevents, -, hwritten⟩ := tunnel_delivers hrun
  obtain ⟨put, hput, hfrom⟩ := (hevents .tls).1
  refine ⟨s, hrun, hbio, hwritten (.inl hmode), husb ▸ (hevents .usb).2.1 hmode, ?_⟩
  rw [htls] at hfrom
  rcases hfrom with rfl | ⟨-, hfrom⟩
  · exact ⟨[.tlsReady, .frame ⟨3, 12, 0, []⟩], .trans ⟨[.transportFailed], rfl⟩ hput, rfl⟩
  · exact ⟨put, hput, hfrom.symm⟩

end Fpc
