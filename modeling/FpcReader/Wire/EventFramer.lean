/-
**Frames on the wire.**

The reader sends events over its bulk endpoint and over TLS as frames: a header of three big-endian
words, code, length and result, and a body.  Bytes arrive in chunks that have nothing to do with
frames; both readers feed every chunk to a framer and take frames until there is none.

Main definitions:

* `Fpc.WireFrame` — a frame, and `Fpc.WireFrame.bytes`, what it looks like on the wire;
* `Fpc.feed`, `Fpc.next` — the two operations of the framer on its pending bytes;
* `Fpc.receive` — one chunk; after an error the reader has ended;
* `Fpc.frameEvent` — the event of a frame, with its body in buffers.

Main results:

* `Fpc.feed_of_drained` — a drained framer has room for a chunk;
* `Fpc.framing_chunked` — **frames do not depend on how the stream is cut into chunks**.
-/

import FpcReader.Lib.Bytes
import FpcReader.Lib.Framing

set_option relaxedAutoImplicit false
set_option autoImplicit false

namespace Fpc

open Bytes Framing

/-! ### The framer -/

/-- A frame of the reader: the words of its header and its body. -/
structure WireFrame where
  code : ℕ
  length : ℕ
  result : ℕ
  body : List UInt8
  deriving DecidableEq, Repr

/-- The big-endian word the bytes start with. -/
def beWord (bytes : List UInt8) : ℕ := leValue (bytes.take 4).reverse

/-- The longest frame, and the longest chunk. -/
def maximum : ℕ := 65536

def receiveLimit : String := "FPC receive limit"

def invalidLength : String := "invalid FPC frame length"

/-- Append a chunk to the pending bytes; the room that is left is a difference of `size_t`. -/
def feed (pending data : List UInt8) : Except String (List UInt8) :=
  if (2 * maximum + (2 ^ 64 - pending.length)) % 2 ^ 64 < data.length then .error receiveLimit
  else .ok (pending ++ data)

/-- The frame the pending bytes start with, and the bytes behind it. -/
def next (pending : List UInt8) : Except String (Option (WireFrame × List UInt8)) :=
  if pending.length < 12 then .ok none
  else
    let length := beWord (pending.drop 4)
    if length < 12 ∨ maximum < length then .error invalidLength
    else if pending.length < length then .ok none
    else
      .ok (some (⟨beWord pending, length, beWord (pending.drop 8), (pending.take length).drop 12⟩,
        pending.drop length))

theorem next_short {pending : List UInt8} (h : pending.length < 12) : next pending = .ok none :=
  if_pos h

theorem next_error {pending : List UInt8} (h : 12 ≤ pending.length)
    (hlength : beWord (pending.drop 4) < 12 ∨ maximum < beWord (pending.drop 4)) :
    next pending = .error invalidLength := by
  rw [next, if_neg (not_lt.2 h)]
  exact if_pos hlength

theorem next_frame {pending : List UInt8} (h : 12 ≤ beWord (pending.drop 4))
    (hmax : beWord (pending.drop 4) ≤ maximum) (hall : beWord (pending.drop 4) ≤ pending.length) :
    next pending =
      .ok (some (⟨beWord pending, beWord (pending.drop 4), beWord (pending.drop 8),
        (pending.take (beWord (pending.drop 4))).drop 12⟩,
          pending.drop (beWord (pending.drop 4)))) := by
  rw [next, if_neg (not_lt.2 (h.trans hall))]
  dsimp only
  rw [if_neg (by omega), if_neg (not_lt.2 hall)]

/-- Too little for a frame: no whole header, or a good header and not all of the body. -/
def Incomplete (tail : List UInt8) : Prop :=
  tail.length < 12 ∨
    12 ≤ beWord (tail.drop 4) ∧ beWord (tail.drop 4) ≤ maximum ∧
      tail.length < beWord (tail.drop 4)

/-- What the framer finds. -/
theorem next_cases (pending : List UInt8) :
    (next pending = .ok none ∧ Incomplete pending) ∨
    (next pending = .error invalidLength ∧ 12 ≤ pending.length ∧
      (beWord (pending.drop 4) < 12 ∨ maximum < beWord (pending.drop 4))) ∨
    (12 ≤ beWord (pending.drop 4) ∧ beWord (pending.drop 4) ≤ maximum ∧
      beWord (pending.drop 4) ≤ pending.length) := by
  rcases Nat.lt_or_ge pending.length 12 with hshort | hheader
  · exact Or.inl ⟨next_short hshort, Or.inl hshort⟩
  by_cases hlength : beWord (pending.drop 4) < 12 ∨ maximum < beWord (pending.drop 4)
  · exact Or.inr (Or.inl ⟨next_error hheader hlength, hheader, hlength⟩)
  have hgood : 12 ≤ beWord (pending.drop 4) ∧ beWord (pending.drop 4) ≤ maximum := by omega
  rcases Nat.lt_or_ge pending.length (beWord (pending.drop 4)) with hless | hall
  · refine Or.inl ⟨?_, Or.inr ⟨hgood.1, hgood.2, hless⟩⟩
    rw [next, if_neg (not_lt.2 hheader)]
    dsimp only
    rw [if_neg hlength, if_pos hless]
  · exact Or.inr (Or.inr ⟨hgood.1, hgood.2, hall⟩)

theorem next_none_iff {pending : List UInt8} : next pending = .ok none ↔ Incomplete pending := by
  rcases next_cases pending with ⟨heq, htail⟩ | ⟨heq, hheader, hlength⟩ | ⟨hlow, hmax, hall⟩
  · exact ⟨fun _ => htail, fun _ => heq⟩
  · rw [heq]
    unfold Incomplete
    constructor
    · intro h
      cases h
    · omega
  · rw [next_frame hlow hmax hall]
    unfold Incomplete
    constructor
    · intro h
      cases h
    · omega

/-- The header of what follows does not matter once there is a whole one. -/
theorem beWord_drop_append {xs : List UInt8} {k : ℕ} (h : k + 4 ≤ xs.length) (more : List UInt8) :
    beWord ((xs ++ more).drop k) = beWord (xs.drop k) := by
  unfold beWord
  rw [List.drop_append_of_le_length (by omega), List.take_append_of_le_length (by simp; omega)]

theorem next_frame_append {xs rest : List UInt8} {f : WireFrame} (more : List UInt8)
    (h : next xs = .ok (some (f, rest))) : next (xs ++ more) = .ok (some (f, rest ++ more)) := by
  rcases next_cases xs with ⟨heq, -⟩ | ⟨heq, -⟩ | ⟨hlow, hmax, hall⟩
  · rw [heq] at h
    cases h
  · rw [heq] at h
    cases h
  · rw [next_frame hlow hmax hall] at h
    cases h
    have hlength : beWord ((xs ++ more).drop 4) = beWord (xs.drop 4) :=
      beWord_drop_append (by omega) more
    have hcode : beWord (xs ++ more) = beWord xs := by
      simpa using beWord_drop_append (k := 0) (by omega) more
    rw [next_frame (by omega) (by omega) (by rw [hlength, List.length_append]; omega), hlength,
      hcode, beWord_drop_append (by omega) more, List.take_append_of_le_length hall,
      List.drop_append_of_le_length hall]

/-- The framer, as a decision about the bytes at hand. -/
def eventFramer : Framer String UInt8 WireFrame where
  next := next
  shorter := by
    intro xs rest f h
    rcases next_cases xs with ⟨heq, -⟩ | ⟨heq, -⟩ | ⟨hlow, hmax, hall⟩
    · rw [heq] at h
      cases h
    · rw [heq] at h
      cases h
    · rw [next_frame hlow hmax hall] at h
      cases h
      rw [List.length_drop]
      omega
  frame_append := next_frame_append
  error_append := by
    intro xs e more h
    rcases next_cases xs with ⟨heq, -⟩ | ⟨heq, hheader, hlength⟩ | ⟨hlow, hmax, hall⟩
    · rw [heq] at h
      cases h
    · rw [heq] at h
      cases h
      have hsame : beWord ((xs ++ more).drop 4) = beWord (xs.drop 4) :=
        beWord_drop_append (by omega) more
      exact next_error (by rw [List.length_append]; omega) (hsame ▸ hlength)
    · rw [next_frame hlow hmax hall] at h
      cases h

/-! ### Frames as bytes -/

/-- A word as four bytes, the most significant one first. -/
def beBytes (n : ℕ) : List UInt8 := (leBytes 4 n).reverse

/-- What a frame looks like on the wire. -/
def WireFrame.bytes (frame : WireFrame) : List UInt8 :=
  beBytes frame.code ++ (beBytes frame.length ++ (beBytes frame.result ++ frame.body))

/-- The words fit, and the length counts the header and the body. -/
structure WireFrame.WellFormed (frame : WireFrame) : Prop where
  code : frame.code < 2 ^ 32
  result : frame.result < 2 ^ 32
  length : frame.length = 12 + frame.body.length
  length_le : frame.length ≤ maximum

@[simp]
theorem beBytes_length (n : ℕ) : (beBytes n).length = 4 := by
  rw [beBytes, List.length_reverse, leBytes_length]

theorem beWord_beBytes {n : ℕ} (h : n < 2 ^ 32) (rest : List UInt8) :
    beWord (beBytes n ++ rest) = n := by
  rw [beWord, List.take_left' (beBytes_length n), beBytes, List.reverse_reverse]
  exact leValue_leBytes_of_lt (by norm_num; exact h)

theorem beBytes_beWord {xs : List UInt8} (h : 4 ≤ xs.length) : beBytes (beWord xs) = xs.take 4 := by
  have hlen : (xs.take 4).reverse.length = 4 := by
    rw [List.length_reverse, List.length_take]
    omega
  have hback := leBytes_leValue (xs.take 4).reverse
  rw [hlen] at hback
  rw [beBytes, beWord, hback, List.reverse_reverse]

/-- A well-formed frame is found where it starts. -/
theorem next_bytes {frame : WireFrame} (h : frame.WellFormed) (rest : List UInt8) :
    next (frame.bytes ++ rest) = .ok (some (frame, rest)) := by
  have hlength_lt : frame.length < 2 ^ 32 := by
    have := h.length_le
    simp only [maximum] at this
    omega
  have htotal : frame.bytes.length = frame.length := by
    simp only [WireFrame.bytes, List.length_append, beBytes_length, h.length]
    omega
  have hcode : beWord (frame.bytes ++ rest) = frame.code := by
    rw [WireFrame.bytes, List.append_assoc]
    exact beWord_beBytes h.code _
  have hword : beWord ((frame.bytes ++ rest).drop 4) = frame.length := by
    rw [WireFrame.bytes, List.append_assoc, List.drop_left' (beBytes_length _), List.append_assoc]
    exact beWord_beBytes hlength_lt _
  have hresult : beWord ((frame.bytes ++ rest).drop 8) = frame.result := by
    rw [WireFrame.bytes, List.append_assoc, ← List.drop_drop (i := 4) (j := 4),
      List.drop_left' (beBytes_length _), List.append_assoc, List.drop_left' (beBytes_length _),
      List.append_assoc]
    exact beWord_beBytes h.result _
  have hbody : frame.bytes.drop 12 = frame.body := by
    rw [WireFrame.bytes, ← List.append_assoc, ← List.append_assoc]
    exact List.drop_left' (by simp)
  have hheader := h.length
  have hmax := h.length_le
  rw [next_frame (by rw [hword]; omega) (by rw [hword]; exact hmax)
    (by rw [hword, List.length_append, htotal]; omega), hcode, hword, hresult,
    List.take_left' htotal, List.drop_left' htotal, hbody]

/-- What is taken is what the bytes start with. -/
theorem bytes_of_next {xs rest : List UInt8} {f : WireFrame}
    (h : next xs = .ok (some (f, rest))) : xs = f.bytes ++ rest := by
  rcases next_cases xs with ⟨heq, -⟩ | ⟨heq, -⟩ | ⟨hlow, hmax, hall⟩
  · rw [heq] at h
    cases h
  · rw [heq] at h
    cases h
  · rw [next_frame hlow hmax hall] at h
    cases h
    set length := beWord (xs.drop 4) with hlength
    have hfour : ∀ k, k + 4 ≤ length → beBytes (beWord (xs.drop k)) = (xs.drop k).take 4 :=
      fun k hk => beBytes_beWord (by rw [List.length_drop]; omega)
    have hcut : ∀ k, xs.drop k = (xs.drop k).take 4 ++ xs.drop (k + 4) := by
      intro k
      conv_lhs => rw [← List.take_append_drop 4 (xs.drop k), List.drop_drop]
    have hcode := hfour 0 (by omega)
    have hwhole := hcut 0
    rw [List.drop_zero] at hcode hwhole
    have hbody : xs.drop 12 = (xs.take length).drop 12 ++ xs.drop length := by
      conv_lhs => rw [← List.take_append_drop length xs]
      rw [List.drop_append_of_le_length (by rw [List.length_take]; omega)]
    show xs = beBytes (beWord xs) ++ (beBytes length ++ (beBytes (beWord (xs.drop 8)) ++
      (xs.take length).drop 12)) ++ xs.drop length
    rw [hcode, hlength, hfour 4 (by omega), hfour 8 (by omega), List.append_assoc,
      List.append_assoc, List.append_assoc, ← hlength, ← hbody, ← hcut 8, ← hcut 4, ← hwhole]

/-! ### The readers -/

/-- Take frames until there is none, as `dispatch_frames` does. -/
def dispatchFrames (pending : List UInt8) : Parsed String UInt8 WireFrame :=
  drain eventFramer pending

/-- One chunk: feed it and dispatch the frames.  A reader that has thrown takes no more chunks. -/
def receive (reader : Parsed String UInt8 WireFrame) (chunk : List UInt8) :
    Parsed String UInt8 WireFrame :=
  match reader.failed with
  | some _ => reader
  | none =>
      match feed reader.pending chunk with
      | .error text => { reader with failed := some text }
      | .ok pending =>
          let dispatched := dispatchFrames pending
          ⟨reader.frames ++ dispatched.frames, dispatched.failed, dispatched.pending⟩

/-- A reader that has received the chunks. -/
def receiveAll (chunks : List (List UInt8)) : Parsed String UInt8 WireFrame :=
  chunks.foldl receive ⟨[], none, []⟩

/-- A drained framer has room for a chunk. -/
theorem feed_of_drained {pending chunk : List UInt8} (hpending : next pending = .ok none)
    (hchunk : chunk.length ≤ maximum) : feed pending chunk = .ok (pending ++ chunk) := by
  have hshort : pending.length ≤ maximum := by
    rcases next_none_iff.1 hpending with hless | ⟨-, hmax, hless⟩
    · simp only [maximum]
      omega
    · omega
  simp only [maximum] at hshort hchunk
  -- the difference does not underflow, as a chunk and the pending bytes fit twice the maximum
  have hroom : (2 * maximum + (2 ^ 64 - pending.length)) % 2 ^ 64 =
      2 * maximum - pending.length := by
    simp only [maximum]
    omega
  rw [feed, hroom, if_neg]
  simp only [maximum]
  omega

/-- A reader agrees with a parser without limits up to the chunks it does not take any more. -/
structure Agrees (reader parser : Parsed String UInt8 WireFrame) : Prop where
  frames : reader.frames = parser.frames
  failed : reader.failed = parser.failed
  unread : ∃ unread, parser.pending = reader.pending ++ unread ∧
    (reader.failed = none → unread = [])
  drained : reader.failed = none → next reader.pending = .ok none
  limit : reader.failed = none ∨ reader.failed = some invalidLength

theorem drain_failed {xs : List UInt8} :
    (drain eventFramer xs).failed = none ∨
      (drain eventFramer xs).failed = some invalidLength := by
  induction xs using drain.induct eventFramer with
  | case1 xs text hnext =>
      rw [drain_error eventFramer hnext]
      rcases next_cases xs with ⟨heq, -⟩ | ⟨heq, -⟩ | ⟨hlow, hmax, hall⟩
      · exact absurd (heq.symm.trans hnext) (by simp)
      · exact Or.inr (congrArg some (Except.error.inj (hnext.symm.trans heq)))
      · exact absurd ((next_frame hlow hmax hall).symm.trans hnext) (by simp)
  | case2 xs hnext =>
      rw [drain_none eventFramer hnext]
      exact Or.inl rfl
  | case3 xs f rest hnext ih =>
      rw [drain_frame eventFramer hnext]
      exact ih

theorem Agrees.receive {reader parser : Parsed String UInt8 WireFrame} (h : Agrees reader parser)
    {chunk : List UInt8} (hchunk : chunk.length ≤ maximum) :
    Agrees (receive reader chunk) (parser.resume eventFramer chunk) := by
  cases hfailed : reader.failed with
  | some text =>
      have hparser : parser.failed = some text := h.failed ▸ hfailed
      obtain ⟨unread, hpending, -⟩ := h.unread
      simp only [Fpc.receive, hfailed, Parsed.resume, hparser]
      refine ⟨h.frames, hfailed, ⟨unread ++ chunk, ?_, ?_⟩, h.drained, h.limit⟩
      · rw [hpending, List.append_assoc]
      · rw [hfailed]
        simp
  | none =>
      have hparser : parser.failed = none := h.failed ▸ hfailed
      obtain ⟨unread, hpending, hunread⟩ := h.unread
      rw [hunread hfailed, List.append_nil] at hpending
      simp only [Fpc.receive, hfailed, Parsed.resume, hparser,
        feed_of_drained (h.drained hfailed) hchunk, hpending, h.frames]
      exact ⟨rfl, rfl, ⟨[], (List.append_nil _).symm, fun _ => rfl⟩,
        drain_pending eventFramer, drain_failed⟩

theorem agrees_foldl {chunks : List (List UInt8)} (hchunks : ∀ chunk ∈ chunks,
    chunk.length ≤ maximum) {reader parser : Parsed String UInt8 WireFrame}
    (h : Agrees reader parser) :
    Agrees (chunks.foldl receive reader) (chunks.foldl (Parsed.resume eventFramer) parser) := by
  induction chunks generalizing reader parser with
  | nil => exact h
  | cons chunk chunks ih =>
      exact ih (fun other hmem => hchunks other (List.mem_cons_of_mem _ hmem))
        (h.receive (hchunks chunk List.mem_cons_self))

/-- A reader agrees with a parser of the whole stream. -/
theorem receiveAll_agrees {chunks : List (List UInt8)}
    (hchunks : ∀ chunk ∈ chunks, chunk.length ≤ maximum) :
    Agrees (receiveAll chunks) (dispatchFrames chunks.flatten) := by
  have hnil : next [] = .ok none := rfl
  rw [dispatchFrames, ← parsePieces_flatten eventFramer hnil]
  exact agrees_foldl hchunks ⟨rfl, rfl, ⟨[], rfl, fun _ => rfl⟩, fun _ => hnil, Or.inl rfl⟩

/-! ### Events -/

/-- How many bytes a buffer holds; at least one. -/
structure BufferConfig where
  size : ℕ
  pos : 0 < size

/-- The buffers of both readers hold a TLS fragment each. -/
def fpcBufferConfig : BufferConfig := ⟨4096, by norm_num⟩

/-- An event: the header of its frame, and the body in buffers. -/
structure FramedEvent where
  code : ℕ
  length : ℕ
  result : ℕ
  buffers : List (List UInt8)
  deriving DecidableEq, Repr

def frameEvent (config : BufferConfig) (frame : WireFrame) : FramedEvent :=
  ⟨frame.code, frame.length, frame.result, pieces (config.size - 1) frame.body⟩

theorem frameEvent_body (config : BufferConfig) (frame : WireFrame) :
    (frameEvent config frame).buffers.flatten = frame.body := pieces_flatten _ _

/-- **Frames do not depend on how the stream is cut into chunks**: a reader comes to the frames and
to the error of the whole stream, never for want of room, and what it has left is the tail. -/
theorem framing_chunked {chunks : List (List UInt8)}
    (hchunks : ∀ chunk ∈ chunks, chunk.length ≤ maximum) :
    (receiveAll chunks).frames = (dispatchFrames chunks.flatten).frames ∧
      (receiveAll chunks).failed = (dispatchFrames chunks.flatten).failed ∧
      (receiveAll chunks).failed ≠ some receiveLimit ∧
      (∃ unread, chunks.flatten =
          (receiveAll chunks).frames.flatMap WireFrame.bytes ++ (receiveAll chunks).pending ++
            unread ∧
        ((receiveAll chunks).failed = none → unread = [] ∧
          Incomplete (receiveAll chunks).pending)) ∧
      (∀ frames tail, (∀ frame ∈ frames, frame.WellFormed) → Incomplete tail →
        chunks.flatten = frames.flatMap WireFrame.bytes ++ tail →
          receiveAll chunks = ⟨frames, none, tail⟩) ∧
      ∀ config frame, (frameEvent config frame).buffers.flatten = frame.body := by
  have hagrees := receiveAll_agrees hchunks
  obtain ⟨unread, hpending, hunread⟩ := hagrees.unread
  refine ⟨hagrees.frames, hagrees.failed, ?_, ⟨unread, ?_, ?_⟩, ?_, frameEvent_body⟩
  · rcases hagrees.limit with hnone | hinvalid
    · simp [hnone]
    · simp [hinvalid, invalidLength, receiveLimit]
  · rw [List.append_assoc, ← hpending, hagrees.frames]
    exact drain_conserves eventFramer (fun _ _ _ => bytes_of_next) _
  · intro hnone
    exact ⟨hunread hnone, next_none_iff.1 (hagrees.drained hnone)⟩
  · intro frames tail hframes htail hstream
    have hencode : ∀ (frame : WireFrame) rest, frame.WellFormed →
        eventFramer.next (frame.bytes ++ rest) = .ok (some (frame, rest)) :=
      fun _ rest hok => next_bytes hok rest
    have hwhole : dispatchFrames chunks.flatten = ⟨frames, none, tail⟩ := by
      rw [hstream]
      exact drain_encoded eventFramer hencode (next_none_iff.2 htail) hframes
    rw [hwhole] at hagrees hpending
    have hnone : (receiveAll chunks).failed = none := hagrees.failed
    rw [hunread hnone, List.append_nil] at hpending
    have hframes := hagrees.frames
    cases hreader : receiveAll chunks
    rw [hreader] at hnone hpending hframes
    simp_all

/-- Two chunks, the first of which ends within a header. -/
theorem framing_chunked_straddling :
    receiveAll [[0, 0, 0, 1, 0, 0], [0, 13, 0, 0, 0, 0, 7, 9]] =
      ⟨[⟨1, 13, 0, [7]⟩], none, [9]⟩ := by
  have hchunks : ∀ chunk ∈ [[(0 : UInt8), 0, 0, 1, 0, 0], [0, 13, 0, 0, 0, 0, 7, 9]],
      chunk.length ≤ maximum := by decide
  obtain ⟨-, -, -, -, hframes, -⟩ := framing_chunked hchunks
  refine hframes [⟨1, 13, 0, [7]⟩] [9] ?_ (Or.inl (by decide)) (by decide)
  simp only [List.mem_singleton, forall_eq]
  exact ⟨by decide, by decide, by decide, by decide⟩

end Fpc
