/-
**Images of an earlier generation.**

An image gets the generation the sensor is armed for when it arrives, not the one at which it was
requested.  So an image that is still owed when the sensor is armed again passes the check of the
next operation, or of the next stage of an enrollment.

Main definitions:

* `Fpc.AnswersOnly` — the reader sends images only when they have been requested;
* `Fpc.ArmsFresh` — the sensor is armed only when every image on its way was requested at the
  current generation;
* `Fpc.Timely` — images on their way belong to the generation the sensor is armed for.

Main results:

* `Fpc.Timely.step` — a step that arms the sensor in time keeps this;
* `Fpc.images_fresh` — **every image that an operation accepts was requested at the generation of
  the operation**;
* `Fpc.images_fresh_late` — an image that arrives late is not.
-/

import FpcReader.Daemon.SessionTurns

set_option relaxedAutoImplicit false
set_option autoImplicit false

namespace Fpc

open Bytes

/-! ### Arming the sensor -/

/-- The reader sends no image that has not been requested. -/
def AnswersOnly : Action → Prop
  | .rawFrame event | .tlsFrame event => event ≠ .image none
  | _ => True

/-- The control task is about to arm the sensor. -/
def Arms (s : System) : Prop :=
  s.control.pc = .getEvent ∧ s.eventQueue.head? = some .startSensor ∧ s.control.ready = true ∧
    s.control.handle = true ∧ s.storage.sleeping = false

/-- The generation at which an arriving image was requested. -/
def FPCEvent.requested : FPCEvent → Option (Option ℕ)
  | .fpcEvent (.image requested) _ => some requested
  | _ => none

/-- Every image on its way was requested at the given generation. -/
def OwedAt (s : System) (generation : ℕ) : Prop :=
  (∀ g ∈ s.outstanding, g = generation) ∧
    ∀ event ∈ s.eventQueue, ∀ requested ∈ event.requested, requested = some generation

/-- When the sensor is armed, every image on its way was requested at the current generation. -/
def ArmsFresh (s : System) : Action → Prop
  | .control _ => Arms s → OwedAt s s.storage.captureGeneration
  | _ => True

/-- Images on their way were requested at the generation the sensor is armed for, and images handed
over and accepted at the generation they carry. -/
structure Timely (s : System) : Prop where
  owed : OwedAt s s.control.captureGeneration
  handed : ∀ generation origin requested,
    .image generation origin requested ∈ s.imageQueue → requested = some generation
  accepted : ∀ operation generation requested,
    .accepted operation generation requested ∈ s.log → requested = some generation

section Steps

variable {env : Environment} {s s' t : System}

/-- Nothing is on its way any more. -/
theorem OwedAt.of_nil {generation : ℕ} (howed : s.outstanding = []) (hqueue : s.eventQueue = []) :
    OwedAt s generation := by
  refine ⟨fun g hmem => ?_, fun event hmem => ?_⟩
  · rw [howed] at hmem
    cases hmem
  · rw [hqueue] at hmem
    cases hmem

/-- Fewer images are on their way. -/
theorem OwedAt.mono {generation : ℕ} (h : OwedAt s generation)
    (howed : ∀ g ∈ s'.outstanding, g ∈ s.outstanding)
    (hqueue : ∀ event ∈ s'.eventQueue, event ∈ s.eventQueue ∨ event.requested = none) :
    OwedAt s' generation := by
  refine ⟨fun g hmem => h.1 g (howed g hmem), fun event hmem requested hrequested => ?_⟩
  rcases hqueue event hmem with hold | hnone
  · exact h.2 event hold requested hrequested
  · rw [hnone] at hrequested
    cases hrequested

/-- No image is new. -/
theorem Timely.mono (h : Timely s)
    (harmed : s'.control.captureGeneration = s.control.captureGeneration)
    (howed : ∀ g ∈ s'.outstanding, g ∈ s.outstanding)
    (hqueue : ∀ event ∈ s'.eventQueue, event ∈ s.eventQueue ∨ event.requested = none)
    (hhanded : ∀ generation origin requested, .image generation origin requested ∈ s'.imageQueue →
      .image generation origin requested ∈ s.imageQueue)
    (haccepted : ∀ operation generation requested,
      .accepted operation generation requested ∈ s'.log →
        .accepted operation generation requested ∈ s.log) : Timely s' where
  owed := harmed ▸ h.owed.mono howed hqueue
  handed generation origin requested hmem :=
    h.handed generation origin requested (hhanded generation origin requested hmem)
  accepted operation generation requested hmem :=
    h.accepted operation generation requested (haccepted operation generation requested hmem)

/-- Something else is put into the event queue. -/
theorem requested_append {queue : List FPCEvent} {last event : FPCEvent}
    (hlast : last.requested = none) (hmem : event ∈ queue ++ [last]) :
    event ∈ queue ∨ event.requested = none := by
  rcases List.mem_append.1 hmem with hmem | hmem
  · exact Or.inl hmem
  · obtain rfl := List.mem_singleton.1 hmem
    exact Or.inr hlast

/-- Something else is put into the image queue. -/
theorem image_append {queue : List FPCEvent} {last : FPCEvent} {generation : ℕ} {origin : Origin}
    {requested : Option ℕ} (hlast : last ≠ .image generation origin requested)
    (hmem : .image generation origin requested ∈ queue ++ [last]) :
    .image generation origin requested ∈ queue := by
  rcases List.mem_append.1 hmem with hmem | hmem
  · exact hmem
  · exact absurd (List.mem_singleton.1 hmem).symm hlast

theorem Timely.deviceTurn (h : Timely s) (hturn : DeviceTurn env s s') : Timely s' := by
  obtain ⟨hevents, hcontrol, howed, haccepted⟩ := hturn.sessionTurn.events
  refine h.mono (by rw [hcontrol]) (fun _ hmem => howed ▸ hmem) (fun event hmem => ?_)
    (fun generation origin requested hmem => ?_) haccepted
  · rcases hevents with heq | heq
    · exact Or.inl (heq ▸ hmem)
    · rw [heq] at hmem
      exact requested_append rfl hmem
  · rcases hturn.sessionTurn.imageQueue with heq | heq | heq
    · exact heq ▸ hmem
    · rw [heq] at hmem
      cases hmem
    · rw [heq] at hmem
      exact image_append (by simp) hmem

theorem Timely.operationTurn (h : Timely s) {op : EnrollVerify} (hturn : OperationTurn s op s') :
    Timely s' := by
  cases hturn with
  | entered _ =>
      exact h.mono rfl (fun _ => id) (fun _ => requested_append rfl)
        (fun _ _ _ hmem => by cases hmem) (fun _ _ _ => id)
  | armed _ => exact h.mono rfl (fun _ => id) (fun _ => Or.inl) (fun _ _ _ => id) (fun _ _ _ => id)
  | skipped _ hqueue _ =>
      refine h.mono rfl (fun _ => id) (fun _ => Or.inl) (fun _ _ _ hmem => ?_) (fun _ _ _ => id)
      rw [hqueue]
      exact List.mem_cons_of_mem _ hmem
  | @accepted generation origin requested rest t status terminal _ hqueue hsame huse =>
      have hfields : t.control = s.control ∧ t.outstanding = s.outstanding ∧
          t.eventQueue = s.eventQueue ∧ t.imageQueue = rest := by
        rcases huse with ⟨heq, -⟩ | ⟨heq, -⟩
        · rw [heq]
          exact ⟨rfl, rfl, rfl, rfl⟩
        · rw [heq]
          exact ⟨rfl, rfl, rfl, rfl⟩
      have hlog : ∀ id g r, .accepted id g r ∈ t.log →
          (LogEntry.accepted id g r = .accepted op.id op.generation requested ∨
            .accepted id g r ∈ s.log) := by
        intro id g r hmem
        rcases huse with ⟨heq, -⟩ | ⟨heq, -⟩
        · rw [heq] at hmem
          exact List.mem_cons.1 hmem
        · rw [heq] at hmem
          exact List.mem_cons.1 ((List.mem_cons.1 hmem).resolve_left (by simp))
      obtain ⟨hcontrol, howed, hevents, himages⟩ := hfields
      have hrequested : requested = some generation :=
        h.handed generation origin requested (hqueue ▸ List.mem_cons_self)
      refine ⟨?_, fun g o r hmem => h.handed g o r ?_, fun id g r hmem => ?_⟩
      · show OwedAt _ t.control.captureGeneration
        rw [hcontrol]
        exact h.owed.mono (fun g hmem => howed ▸ hmem) (fun event hmem => Or.inl (hevents ▸ hmem))
      · rw [hqueue]
        exact List.mem_cons_of_mem _ (himages ▸ hmem)
      · have hmem : LogEntry.accepted id g r ∈ t.log :=
          (List.mem_cons.1 hmem).resolve_left (by simp)
        rcases hlog id g r hmem with heq | hmem
        · obtain ⟨-, rfl, rfl⟩ := LogEntry.accepted.inj heq
          rw [hrequested, hsame]
        · exact h.accepted id g r hmem
  | stopped _ hqueue =>
      refine h.mono rfl (fun _ => id) (fun _ => requested_append rfl) (fun _ _ _ hmem => ?_)
        (fun _ _ _ => id)
      rw [hqueue]
      exact List.mem_cons_of_mem _ hmem
  | failed _ hqueue =>
      refine h.mono rfl (fun _ => id) (fun _ => Or.inl) (fun _ _ _ hmem => ?_)
        (fun _ _ _ hmem => (List.mem_cons.1 hmem).resolve_left (by simp))
      rw [hqueue]
      exact List.mem_cons_of_mem _ hmem
  | next _ | ended _ =>
      exact h.mono rfl (fun _ => id) (fun _ => requested_append rfl) (fun _ _ _ => id)
        (fun _ _ _ => id)
  | finished _ =>
      exact h.mono rfl (fun _ => id) (fun _ => Or.inl) (fun _ _ _ => id) (fun _ _ _ => id)

theorem Timely.fetched (h : Timely s) {event : Option FPCEvent} (hf : Fetched s event t) :
    Timely t := by
  cases hf with
  | waited _ => exact h
  | event _ hqueue =>
      refine h.mono rfl (fun _ => id) (fun event hmem => Or.inl ?_) (fun _ _ _ => id)
        (fun _ _ _ => id)
      rw [hqueue]
      exact List.mem_cons_of_mem _ hmem

theorem Shared.timely (hs : Shared s s') (h : Timely s) : Timely s' :=
  h.mono hs.armed (fun _ hmem => hs.outstanding ▸ hmem)
    (fun _ hmem => Or.inl (hs.eventQueue ▸ hmem))
    (fun _ _ _ hmem => hs.imageQueue ▸ hmem) (fun _ _ _ hmem => hs.log ▸ hmem)

/-- All queues have been emptied. -/
theorem Timely.emptied (h : Timely s) (howed : s'.outstanding = []) (hqueue : s'.eventQueue = [])
    (himages : s'.imageQueue = []) (hlog : s'.log = s.log) : Timely s' where
  owed := .of_nil howed hqueue
  handed generation origin requested hmem := by
    rw [himages] at hmem
    cases hmem
  accepted operation generation requested hmem :=
    h.accepted operation generation requested (hlog ▸ hmem)

theorem Timely.controlTurn (h : Timely s) {input : ControlInput} (hturn : ControlTurn s input s')
    (hfresh : Arms s → OwedAt s s.storage.captureGeneration) : Timely s' := by
  cases hturn with
  | steady hf _ _ _ _ hs | ignored hf hs => exact hs.toShared.timely (h.fetched hf)
  | @asked _ t _ hf _ _ _ hcurrent hs =>
      have ht := h.fetched hf
      have hsame : t.control.captureGeneration = t.storage.captureGeneration := by
        simpa [System.captureCurrent] using (Bool.and_eq_true_iff.1 hcurrent).2
      refine hs.toShared.timely ⟨⟨fun g hmem => ?_, ht.owed.2⟩, ht.handed, ht.accepted⟩
      rcases List.mem_append.1 hmem with hmem | hmem
      · exact ht.owed.1 g hmem
      · exact (List.mem_singleton.1 hmem).trans hsame.symm
  | armed hf hready hhandle hawake hs =>
      have ht := h.fetched hf
      cases hf with
      | event hpc hqueue =>
          -- the images on their way become images of the new generation
          have howed := hfresh ⟨hpc, by rw [hqueue]; rfl, hready, hhandle, hawake⟩
          refine hs.toShared.timely ⟨⟨howed.1, fun event hmem => ?_⟩, ht.handed, ht.accepted⟩
          refine howed.2 event ?_
          rw [hqueue]
          exact List.mem_cons_of_mem _ hmem
  | touched hf hs =>
      refine hs.toShared.timely ((h.fetched hf).mono rfl (fun _ => id) (fun _ => Or.inl)
        (fun _ _ _ hmem => ?_) (fun _ _ _ => id))
      exact image_append (by simp) hmem
  | @handed origin requested t _ hf _ _ hs =>
      have ht := h.fetched hf
      refine hs.toShared.timely ⟨ht.owed, fun g o r hmem => ?_, ht.accepted⟩
      rcases List.mem_append.1 hmem with hmem | hmem
      · exact ht.handed g o r hmem
      · obtain ⟨rfl, -, rfl⟩ := FPCEvent.image.inj (List.mem_singleton.1 hmem)
        cases hf with
        | event _ hqueue => exact h.owed.2 _ (hqueue ▸ List.mem_cons_self) r rfl
  | told hf _ _ hs =>
      refine hs.toShared.timely ((h.fetched hf).mono rfl (fun _ => id) (fun _ => Or.inl)
        (fun _ _ _ hmem => ?_) (fun _ _ _ => id))
      exact image_append (by simp) hmem
  | cleaned hf _ hs => exact hs.toShared.timely ((h.fetched hf).emptied rfl rfl rfl rfl)
  | cleanedUp hf _ hs =>
      exact (hs.timely ((h.fetched hf).emptied rfl rfl rfl rfl)).emptied rfl rfl rfl
        (finishControl_log _)
  | gaveUp hf _ => exact (h.fetched hf).emptied rfl rfl rfl (finishControl_log _)
  | ready hf hready =>
      have ht := h.fetched hf
      unfold tlsReady at hready
      split at hready
      · cases hready
      · obtain rfl := Option.some.inj hready
        exact ht.mono rfl (fun _ => id) (fun _ => Or.inl) (fun _ _ _ => id) (fun _ _ _ => id)

/-- A gate accepts no images. -/
theorem stepGate_accepted (s : System) (gate : PolkitGate) (reply : PolkitReply)
    {operation generation : ℕ} {requested : Option ℕ}
    (hmem : .accepted operation generation requested ∈ (stepGate s gate reply).log) :
    .accepted operation generation requested ∈ s.log := by
  unfold stepGate checkDone at hmem
  split at hmem
  · exact hmem
  · split at hmem
    · exact (List.mem_cons.1 hmem).resolve_left (by simp)
    · exact (List.mem_cons.1 hmem).resolve_left (by simp)
  · exact hmem

/-- A frame that is not an image carries no request. -/
theorem requested_none {event : WireEvent} (origin : Origin)
    (hunrequested : event.unrequested = true) (hanswers : event ≠ .image none) :
    (FPCEvent.fpcEvent event origin).requested = none := by
  cases event with
  | image requested =>
      cases requested with
      | none => exact absurd rfl hanswers
      | some generation => cases hunrequested
  | _ => rfl

/-- **Images on their way belong to the generation the sensor is armed for.** -/
theorem Timely.step (h : Timely s) {action : Action} (hanswers : AnswersOnly action)
    (hfresh : ArmsFresh s action) (hstep : step env s action = some s') : Timely s' := by
  have hput : ∀ {event : FPCEvent} {t : System}, event.requested = none → t = s.putEvent event →
      Timely t := by
    rintro event t hevent rfl
    exact h.mono rfl (fun _ => id) (fun _ => requested_append hevent) (fun _ _ _ => id)
      (fun _ _ _ => id)
  cases step_turn hstep with
  | device _ hturn => exact h.deviceTurn hturn
  | @gate id reply gate _ _ =>
      refine h.mono ?_ ?_ ?_ ?_ fun _ _ _ => stepGate_accepted s gate reply
      all_goals rw [stepGate_eq]
      · exact fun _ hmem => hmem
      · exact fun _ hmem => Or.inl hmem
      · exact fun _ _ _ hmem => hmem
  | listen _ hturn =>
      rw [stepListen_fields hturn]
      exact h.mono rfl (fun _ => id) (fun _ => Or.inl) (fun _ _ _ => id) (fun _ _ _ => id)
  | operation _ hturn => exact h.operationTurn hturn
  | control _ hturn => exact h.controlTurn hturn hfresh
  | rawDropped _ => exact h
  | rawQueued _ hunrequested => exact hput (requested_none _ hunrequested hanswers) rfl
  | tlsQueued _ hunrequested => exact hput (requested_none _ hunrequested hanswers) rfl
  | @answered index generation _ howed =>
      have hmem : generation ∈ s.outstanding := List.mem_of_getElem? howed
      refine ⟨⟨fun g hg => h.owed.1 g (List.mem_of_mem_eraseIdx hg), fun event he r hr => ?_⟩,
        h.handed, h.accepted⟩
      rcases List.mem_append.1 he with he | he
      · exact h.owed.2 event he r hr
      · obtain rfl := List.mem_singleton.1 he
        rw [← Option.some.inj hr, h.owed.1 generation hmem]
        rfl
  | established _ | slept _ | woke _ =>
      exact h.mono rfl (fun _ => id) (fun _ => requested_append rfl) (fun _ _ _ => id)
        (fun _ _ _ => id)
  | failed _ => exact hput rfl rfl
  | _ => exact h.mono rfl (fun _ => id) (fun _ => Or.inl) (fun _ _ _ => id) (fun _ _ _ => id)

end Steps

instance : ∀ action, Decidable (AnswersOnly action)
  | .rawFrame _ | .tlsFrame _ => inferInstanceAs (Decidable (_ ≠ _))
  | .call _ | .device _ | .nameOwnerChanged _ _ | .gate _ _ | .listen _ _ | .operation _ _ _
  | .control _ | .answer _ | .tlsReady | .transportFailed | .prepareForSleep _ => isTrue trivial

instance (s : System) : Decidable (Arms s) := inferInstanceAs (Decidable (_ ∧ _))

instance (s : System) (generation : ℕ) : Decidable (OwedAt s generation) :=
  inferInstanceAs (Decidable (_ ∧ ∀ event ∈ s.eventQueue, _))

instance : ∀ s action, Decidable (ArmsFresh s action)
  | _, .control _ => inferInstanceAs (Decidable (_ → _))
  | _, .call _ | _, .device _ | _, .nameOwnerChanged _ _ | _, .gate _ _ | _, .listen _ _
  | _, .operation _ _ _ | _, .rawFrame _ | _, .tlsFrame _ | _, .answer _ | _, .tlsReady
  | _, .transportFailed | _, .prepareForSleep _ => isTrue trivial

/-- **Every image that an operation accepts was requested at the generation of the operation**, in
the runs in which no image of another generation is on its way when the sensor is armed. -/
theorem images_fresh {env : Environment} {s : System}
    (h : Transition.Reaches (step env) (fun s action => AnswersOnly action ∧ ArmsFresh s action)
      Started s) {operation generation : ℕ} {requested : Option ℕ}
    (haccepted : .accepted operation generation requested ∈ s.log) :
    requested = some generation := by
  have htimely : Timely s := by
    refine Transition.Reaches.invariant ?_
      (fun _ hinv hok hstep => hinv.step hok.1 hok.2 hstep) h
    rintro _ ⟨handle, file, rfl⟩
    exact ⟨.of_nil rfl rfl, nofun, nofun⟩
  exact htimely.accepted operation generation requested haccepted

/-- The turn of an operation that cannot make use of the image. -/
def blindOperation (id : ℕ) : Action :=
  .operation id .unprepared (Disk.sound (Vector.replicate 12 1))

/-- A finger touches the sensor and its image is requested. -/
def fingerTouched : List Action :=
  verifyArmed ++ [.tlsFrame .fingerDown, smoothControl, smoothControl, smoothControl]

/-- The image arrives and is taken. -/
def imageTaken : List Action :=
  fingerTouched ++ [.answer 0, smoothControl, smoothControl, blindOperation 1, blindOperation 1,
    blindOperation 1]

theorem images_fresh_taken :
    ∃ s requested, homeRun imageTaken = some s ∧ LogEntry.accepted 1 1 requested ∈ s.log ∧
      requested = some 1 := by
  obtain ⟨s, requested, hs, hok, haccepted⟩ : ∃ s requested, homeRun imageTaken = some s ∧
      homeChecked (fun s action => AnswersOnly action ∧ ArmsFresh s action) imageTaken = some s ∧
        LogEntry.accepted 1 1 requested ∈ s.log := ⟨_, some 1, rfl, rfl, by decide⟩
  exact ⟨s, requested, hs, haccepted, images_fresh (homeChecked_reaches hok) haccepted⟩

/-- The operation is stopped before the image arrives, and another one is started. -/
def imageLate : List Action :=
  fingerTouched ++ callActions ":1.1" 3 .verifyStop none ++
    [blindOperation 1, blindOperation 1, blindOperation 1] ++
      callActions ":1.1" 4 .verifyStart (some "any") ++ [blindOperation 2, blindOperation 2] ++
        List.replicate 6 smoothControl ++
          [.answer 0, smoothControl, smoothControl, blindOperation 2]

/-- The image that was requested for the first operation is accepted by the second one. -/
theorem images_fresh_late :
    ¬∀ (env : Environment) (s : System),
      Transition.Reaches (step env) (fun _ action => AnswersOnly action) Started s →
        ∀ operation generation requested, .accepted operation generation requested ∈ s.log →
          requested = some generation := by
  intro hclaim
  obtain ⟨s, hok, haccepted⟩ : ∃ s,
      homeChecked (fun _ action => AnswersOnly action) imageLate = some s ∧
        LogEntry.accepted 2 3 (some 1) ∈ s.log := ⟨_, rfl, by decide⟩
  exact absurd (hclaim _ s (homeChecked_reaches hok) 2 3 (some 1) haccepted) (by decide)

end Fpc
