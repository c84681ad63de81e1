/-
**Where images come from.**

Frames in the clear and frames of the TLS stream go into one event queue, and the control task does
not look at where an event comes from.  So an image that was sent in the clear is handed to the
operation when the sensor is armed and the touch was no stale one, and only then.

Main definitions:

* `Fpc.HandsTls` — every image that a step hands over is a frame of the TLS stream;
* `Fpc.TakesClear` — the control task takes an image in the clear while it waits for one.

Main results:

* `Fpc.handed_of_step` — an image that is handed over is the event just taken;
* `Fpc.image_origin` — **images come from the TLS stream in the runs in which no image in the clear
  is taken while one is expected**;
* `Fpc.image_origin_clear` — there are other runs.
-/

import FpcReader.Daemon.SessionTurns

set_option relaxedAutoImplicit false
set_option autoImplicit false

namespace Fpc

open Bytes

/-! ### Images that are handed over -/

/-- Every image that the step hands over is a frame of the TLS stream. -/
def HandsTls (s s' : System) : Prop :=
  ∀ generation origin requested,
    s'.imageQueue = s.imageQueue ++ [.image generation origin requested] →
      origin = .tls ∧ ∃ rest, s.eventQueue = .fpcEvent (.image requested) .tls :: rest

/-- An image that was sent in the clear. -/
def FPCEvent.clearImage : FPCEvent → Bool
  | .fpcEvent (.image _) .raw => true
  | _ => false

/-- The control task takes an image in the clear, with the sensor armed for the current generation
and no stale touch before. -/
def TakesClear (s : System) : Action → Prop
  | .control _ => s.control.pc = .getEvent ∧
      (∃ event ∈ s.eventQueue.head?, event.clearImage = true) ∧
        s.captureCurrent = true ∧ s.control.staleCapture = false
  | _ => False

instance : ∀ s action, Decidable (TakesClear s action)
  | _, .control _ => inferInstanceAs (Decidable (_ ∧ _))
  | _, .call _ | _, .device _ | _, .nameOwnerChanged _ _ | _, .gate _ _ | _, .listen _ _
  | _, .operation _ _ _ | _, .rawFrame _ | _, .tlsFrame _ | _, .answer _ | _, .tlsReady
  | _, .transportFailed | _, .prepareForSleep _ => isFalse nofun

theorem clearImage_iff {event : FPCEvent} :
    event.clearImage = true ↔ ∃ requested, event = .fpcEvent (.image requested) .raw := by
  unfold FPCEvent.clearImage
  split <;> simp_all

section Steps

variable {env : Environment} {s s' : System}

/-- A queue does not grow by becoming shorter. -/
theorem queue_ne_append {α : Type} {queue : List α} {x : α} (rest : List α)
    (h : rest.length ≤ queue.length) : rest ≠ queue ++ [x] := by
  intro heq
  have := congrArg List.length heq
  simp at this
  omega

/-- An operation only takes from the queue. -/
theorem OperationTurn.imageQueue_le {op : EnrollVerify} (hturn : OperationTurn s op s') :
    s'.imageQueue.length ≤ s.imageQueue.length := by
  cases hturn with
  | entered _ => exact Nat.zero_le _
  | @accepted _ _ requested rest t _ _ _ hqueue _ huse =>
      have ht : t.imageQueue = rest := by
        rcases huse with ⟨heq, -⟩ | ⟨heq, -⟩ <;>
        · rw [heq]
          rfl
      show t.imageQueue.length ≤ _
      rw [ht, hqueue]
      exact Nat.le_succ _
  | skipped _ hqueue _ | stopped _ hqueue | failed _ hqueue =>
      rw [hqueue]
      exact Nat.le_succ _
  | _ => exact le_rfl

theorem tlsReady_imageQueue {t : System} (h : tlsReady env t = some s') :
    s'.imageQueue = t.imageQueue := by
  unfold tlsReady at h
  split at h
  · exact absurd h nofun
  · exact Option.some.inj h ▸ rfl

/-- An image that is handed over is the event just taken, and it was expected. -/
theorem handed_of_step {action : Action} {generation : ℕ} {origin : Origin}
    {requested : Option ℕ} (hstep : step env s action = some s')
    (hhanded : s'.imageQueue = s.imageQueue ++ [.image generation origin requested]) :
    ∃ input rest, action = .control input ∧ s.control.pc = .getEvent ∧
      s.eventQueue = .fpcEvent (.image requested) origin :: rest ∧ s.captureCurrent = true ∧
        s.control.staleCapture = false := by
  have hsame : s'.imageQueue = s.imageQueue → False := fun heq =>
    queue_ne_append _ le_rfl (heq.symm.trans hhanded)
  have hempty : s'.imageQueue = [] → False := fun heq =>
    queue_ne_append _ (Nat.zero_le _) (heq.symm.trans hhanded)
  have hother : ∀ event, s'.imageQueue = s.imageQueue ++ [event] →
      event = .image generation origin requested := fun event heq =>
    List.singleton_inj.1 (List.append_cancel_left (heq.symm.trans hhanded))
  cases step_turn hstep with
  | device _ hturn =>
      rcases hturn.sessionTurn.imageQueue with heq | heq | heq
      · exact (hsame heq).elim
      · exact (hempty heq).elim
      · cases hother _ heq
  | gate _ _ => exact (hsame (by rw [stepGate_eq])).elim
  | listen _ hturn => exact (hsame (by rw [stepListen_fields hturn])).elim
  | operation _ hturn =>
      have hle := hturn.imageQueue_le
      rw [hhanded] at hle
      simp at hle
  | @control input _ _ hturn =>
      have hfetched : ∀ {event : Option FPCEvent} {t : System}, Fetched s event t →
          t.imageQueue = s.imageQueue := by
        intro event t hf
        cases hf <;> rfl
      cases hturn with
      | steady hf _ _ _ _ hs | ignored hf hs =>
          exact (hsame (hs.imageQueue.trans (hfetched hf))).elim
      | @asked _ t _ hf _ _ _ _ hs =>
          have heq : s'.imageQueue = t.imageQueue := hs.imageQueue
          exact (hsame (heq.trans (hfetched hf))).elim
      | @armed t _ hf _ _ _ hs =>
          have heq : s'.imageQueue = t.imageQueue := hs.imageQueue
          exact (hsame (heq.trans (hfetched hf))).elim
      | @touched _ _ t _ hf hs =>
          have hgrown : s'.imageQueue =
              t.imageQueue ++ [.fingerDown t.control.captureGeneration] := hs.imageQueue
          rw [hfetched hf] at hgrown
          cases hother _ hgrown
      | @told _ t _ hf _ _ hs =>
          have hgrown : s'.imageQueue = t.imageQueue ++ [.transportFailed] := hs.imageQueue
          rw [hfetched hf] at hgrown
          cases hother _ hgrown
      | cleaned _ _ hs => exact (hempty hs.imageQueue).elim
      | cleanedUp _ _ _ | gaveUp _ _ => exact (hempty rfl).elim
      | ready hf hready => exact (hsame ((tlsReady_imageQueue hready).trans (hfetched hf))).elim
      | handed hf hcurrent hstale hs =>
          have heq := hother _ (hs.imageQueue.trans (congrArg (· ++ [_]) (hfetched hf)))
          obtain ⟨-, rfl, rfl⟩ := FPCEvent.image.inj heq
          cases hf with
          | event hpc hqueue => exact ⟨input, _, rfl, hpc, hqueue, hcurrent, hstale⟩
  | _ => exact (hsame rfl).elim

/-- An image in the clear that is expected is handed over. -/
theorem hands_of_takesClear {action : Action} (hstep : step env s action = some s')
    (htakes : TakesClear s action) :
    ∃ generation requested, s'.imageQueue = s.imageQueue ++ [.image generation .raw requested] := by
  cases action with
  | control input =>
      obtain ⟨hpc, ⟨event, hhead, hclear⟩, hcurrent, hstale⟩ := htakes
      obtain ⟨requested, rfl⟩ := clearImage_iff.1 hclear
      obtain ⟨rest, hqueue⟩ := List.head?_eq_some_iff.1 hhead
      have hrun : stepControl env s input =
          some (handleImage input { s with eventQueue := rest } .raw requested) := by
        unfold stepControl
        rw [hpc]
        dsimp only
        rw [hqueue]
        rfl
      have hstep : stepControl env s input = some s' := hstep
      rw [hrun] at hstep
      obtain rfl := Option.some.inj hstep
      refine ⟨s.control.captureGeneration, requested, ?_⟩
      unfold handleImage
      rw [if_neg (by simpa [System.captureCurrent] using hcurrent)]
      dsimp only
      rw [hstale]
      rfl
  | _ => exact htakes.elim

end Steps

/-- **Images come from the TLS stream exactly in the runs in which no image in the clear is taken
while one is expected.** -/
theorem image_origin {env : Environment} {s : System}
    (h : Transition.Reachable (step env) Started s) (actions : List Action) :
    Transition.EveryStep (step env) (fun s _ s' => HandsTls s s') s actions ↔
      Transition.EveryStep (step env) (fun s action _ => ¬TakesClear s action) s actions := by
  refine Transition.EveryStep.iff_of_reachable (fun _ hstep => ?_) h actions
  constructor
  · intro htls htakes
    obtain ⟨generation, requested, hhanded⟩ := hands_of_takesClear hstep htakes
    cases (htls generation .raw requested hhanded).1
  · intro hnone generation origin requested hhanded
    obtain ⟨input, rest, rfl, hpc, hqueue, hcurrent, hstale⟩ := handed_of_step hstep hhanded
    cases origin with
    | tls => exact ⟨rfl, rest, hqueue⟩
    | raw =>
        refine absurd ⟨hpc, ⟨_, ?_, clearImage_iff.2 ⟨requested, rfl⟩⟩, hcurrent, hstale⟩ hnone
        rw [hqueue]
        rfl

theorem image_origin_tls :
    ∃ s, homeRun verifyArmed = some s ∧
      Transition.EveryStep (step homeEnvironment) (fun s _ s' => HandsTls s s') s
        [.tlsFrame (.image none), smoothControl] := by
  obtain ⟨s, s', hs, hok⟩ : ∃ s s', homeRun verifyArmed = some s ∧
      Transition.checkedRun (step homeEnvironment) (fun s action => ¬TakesClear s action) s
        [.tlsFrame (.image none), smoothControl] = some s' := ⟨_, _, rfl, rfl⟩
  exact ⟨s, hs, (image_origin (homeRun_reachable hs) _).2
    (Transition.everyStep_of_checkedRun hok)⟩

/-- A frame in the clear reaches the operation. -/
theorem image_origin_clear :
    ¬∀ (env : Environment) (s : System) (actions : List Action),
      Transition.Reachable (step env) Started s →
        Transition.EveryStep (step env) (fun s _ s' => HandsTls s s') s actions := by
  intro hclaim
  obtain ⟨s, s', hs, hs', hhanded⟩ : ∃ s s',
      homeRun (verifyArmed ++ [.rawFrame (.image none)]) = some s ∧
        step homeEnvironment s smoothControl = some s' ∧
          ∃ generation, s'.imageQueue = s.imageQueue ++ [.image generation .raw none] :=
    ⟨_, _, rfl, rfl, 1, rfl⟩
  obtain ⟨generation, hhanded⟩ := hhanded
  have htls := (hclaim homeEnvironment s [smoothControl] (homeRun_reachable hs) s' hs').1
  cases (htls generation .raw none hhanded).1

end Fpc
