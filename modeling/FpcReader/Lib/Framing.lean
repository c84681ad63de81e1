/-
**Cutting a stream into frames.**

A framer looks at the elements at hand and either takes one frame off their front, or finds that
there is too little, or that no frame can start there.  What it decides must not change when more
elements follow.  Then it does not matter in which pieces a stream arrives.

Main definitions:

* `Framing.Framer` — a decision that takes frames off the front and is stable;
* `Framing.drain` — take frames until there is none;
* `Framing.Parsed.resume` — go on with what is left when more has arrived;
* `Framing.parsePieces` — a stream that arrives in pieces.

Main results:

* `Framing.drain_append` — parsing can be interrupted anywhere;
* `Framing.parsePieces_flatten` — **the pieces give what the whole stream gives**;
* `Framing.drain_encoded` — encoded frames are taken off as they are;
* `Framing.pieces_flatten` — a body cut into pieces is their concatenation.
-/

import Mathlib.Data.List.Basic
import Mathlib.Data.Nat.Notation

set_option relaxedAutoImplicit false
set_option autoImplicit false

namespace Framing

variable {ε α φ : Type}

/-! ### Framers -/

/-- A framer: what it takes off the front is not empty, and more elements do not change what it
has taken or refused. -/
structure Framer (ε α φ : Type) where
  next : List α → Except ε (Option (φ × List α))
  shorter : ∀ {xs rest : List α} {f : φ}, next xs = .ok (some (f, rest)) →
    rest.length < xs.length
  frame_append : ∀ {xs rest : List α} {f : φ} (more : List α), next xs = .ok (some (f, rest)) →
    next (xs ++ more) = .ok (some (f, rest ++ more))
  error_append : ∀ {xs : List α} {e : ε} (more : List α), next xs = .error e →
    next (xs ++ more) = .error e

/-- What parsing has come to: the frames, the error if there was one, and what is left. -/
structure Parsed (ε α φ : Type) where
  frames : List φ
  failed : Option ε
  pending : List α
  deriving DecidableEq, Repr

/-- Take frames off the front until there is none. -/
def drain (framer : Framer ε α φ) (xs : List α) : Parsed ε α φ :=
  match _hnext : framer.next xs with
  | .error e => ⟨[], some e, xs⟩
  | .ok none => ⟨[], none, xs⟩
  | .ok (some (f, rest)) =>
      let parsed := drain framer rest
      ⟨f :: parsed.frames, parsed.failed, parsed.pending⟩
termination_by xs.length
decreasing_by exact framer.shorter _hnext

/-- Go on when more has arrived; after an error nothing is taken any more. -/
def Parsed.resume (framer : Framer ε α φ) (parsed : Parsed ε α φ) (more : List α) :
    Parsed ε α φ :=
  match parsed.failed with
  | some _ => { parsed with pending := parsed.pending ++ more }
  | none =>
      let next := drain framer (parsed.pending ++ more)
      ⟨parsed.frames ++ next.frames, next.failed, next.pending⟩

/-- A stream that arrives in pieces. -/
def parsePieces (framer : Framer ε α φ) (pieces : List (List α)) : Parsed ε α φ :=
  pieces.foldl (Parsed.resume framer) ⟨[], none, []⟩

section Framers

variable (framer : Framer ε α φ)

theorem drain_error {xs : List α} {e : ε} (h : framer.next xs = .error e) :
    drain framer xs = ⟨[], some e, xs⟩ := by
  rw [drain]
  split <;> simp_all

theorem drain_none {xs : List α} (h : framer.next xs = .ok none) :
    drain framer xs = ⟨[], none, xs⟩ := by
  rw [drain]
  split <;> simp_all

theorem drain_frame {xs rest : List α} {f : φ} (h : framer.next xs = .ok (some (f, rest))) :
    drain framer xs =
      ⟨f :: (drain framer rest).frames, (drain framer rest).failed,
        (drain framer rest).pending⟩ := by
  rw [drain]
  split
  · simp_all
  · simp_all
  · rename_i f' rest' h'
    obtain ⟨rfl, rfl⟩ : f' = f ∧ rest' = rest := by simpa [h] using h'.symm
    rfl

/-- **Parsing can be interrupted anywhere**: what is left over is enough to go on. -/
theorem drain_append (xs more : List α) :
    drain framer (xs ++ more) = (drain framer xs).resume framer more := by
  -- induction on what is parsed first; a frame leaves less of it
  induction xs using drain.induct framer with
  | case1 xs e hnext =>
      rw [drain_error framer hnext, drain_error framer (framer.error_append more hnext)]
      rfl
  | case2 xs hnext =>
      rw [drain_none framer hnext]
      simp [Parsed.resume]
  | case3 xs f rest hnext ih =>
      rw [drain_frame framer hnext, drain_frame framer (framer.frame_append more hnext), ih]
      unfold Parsed.resume
      cases (drain framer rest).failed <;> rfl

theorem resume_drain (xs : List α) (pieces : List (List α)) :
    pieces.foldl (Parsed.resume framer) (drain framer xs) =
      drain framer (xs ++ pieces.flatten) := by
  induction pieces generalizing xs with
  | nil => simp
  | cons piece pieces ih =>
      rw [List.foldl_cons, ← drain_append, ih, List.flatten_cons, List.append_assoc]

/-- **The pieces of a stream give what the whole stream gives.** -/
theorem parsePieces_flatten (hnil : framer.next [] = .ok none) (pieces : List (List α)) :
    parsePieces framer pieces = drain framer pieces.flatten := by
  rw [parsePieces, ← drain_none framer hnil, resume_drain, List.nil_append]

/-- What is left when parsing stops for want of more is too little for a frame. -/
theorem drain_pending {xs : List α} (h : (drain framer xs).failed = none) :
    framer.next (drain framer xs).pending = .ok none := by
  induction xs using drain.induct framer with
  | case1 xs e hnext =>
      rw [drain_error framer hnext] at h
      cases h
  | case2 xs hnext =>
      rw [drain_none framer hnext]
      exact hnext
  | case3 xs f rest hnext ih =>
      rw [drain_frame framer hnext] at h ⊢
      exact ih h

/-- Whatever a frame was encoded as is lost from the front and nothing else. -/
theorem drain_conserves {encode : φ → List α}
    (hdecode : ∀ xs f rest, framer.next xs = .ok (some (f, rest)) → xs = encode f ++ rest)
    (xs : List α) :
    xs = (drain framer xs).frames.flatMap encode ++ (drain framer xs).pending := by
  induction xs using drain.induct framer with
  | case1 xs e hnext => simp [drain_error framer hnext]
  | case2 xs hnext => simp [drain_none framer hnext]
  | case3 xs f rest hnext ih =>
      rw [drain_frame framer hnext, List.flatMap_cons, List.append_assoc, ← ih]
      exact hdecode xs f rest hnext

/-- Encoded frames are taken off as they are, up to a tail with too little for another one. -/
theorem drain_encoded {encode : φ → List α} {ok : φ → Prop}
    (hencode : ∀ f rest, ok f → framer.next (encode f ++ rest) = .ok (some (f, rest)))
    {tail : List α} (htail : framer.next tail = .ok none) {frames : List φ}
    (hok : ∀ f ∈ frames, ok f) :
    drain framer (frames.flatMap encode ++ tail) = ⟨frames, none, tail⟩ := by
  induction frames with
  | nil => exact drain_none framer htail
  | cons f frames ih =>
      have hfirst := hencode f (frames.flatMap encode ++ tail) (hok f List.mem_cons_self)
      rw [List.flatMap_cons, List.append_assoc, drain_frame framer hfirst,
        ih fun g hg => hok g (List.mem_cons_of_mem _ hg)]

end Framers

/-! ### Cutting a body -/

/-- Cut a list into pieces of at most `size + 1` elements. -/
def pieces (size : ℕ) : List α → List (List α)
  | [] => []
  | x :: xs => (x :: xs.take size) :: pieces size (xs.drop size)
termination_by xs => xs.length
decreasing_by simp only [List.length_drop, List.length_cons]; omega

/-- **A body cut into pieces is their concatenation.** -/
theorem pieces_flatten (size : ℕ) (xs : List α) : (pieces size xs).flatten = xs := by
  induction xs using pieces.induct size with
  | case1 => simp [pieces]
  | case2 x xs ih => rw [pieces, List.flatten_cons, ih, List.cons_append, List.take_append_drop]

end Framing
