/-
**Operations that wait for ever.**

An operation waits on the image queue for images of its own generation.  When the generation
advances without it, only a stop event or a failure in that queue ends the wait.  An operation that
has been stopped may still wait while the next one is started, which advances the generation,
empties the queue, and is disturbed in its turn when the first one stops.

Main definitions:

* `Fpc.Heard`, `Fpc.NotStranded` — an operation that waits will be woken;
* `Fpc.Undisturbed` — an operation leaves a newer one alone;
* `Fpc.Starts` — the next turn of the device starts an operation;
* `Fpc.Unhurried` — a start finds no other operation, an operation is entered while it is current,
  and nothing is cleaned up under one;
* `Fpc.Attending` — the invariant: one operation at a time, which will be woken.

Main results:

* `Fpc.stepDevice_starts` — only such a turn adds an operation;
* `Fpc.Attending.step` — an unhurried step keeps the invariant;
* `Fpc.none_stranded` — **no operation is stranded**, in the runs whose steps are unhurried;
* `Fpc.none_stranded_pipelined` — a start that follows a stop too soon strands an operation.
-/

import FpcReader.Daemon.SessionTurns

set_option relaxedAutoImplicit false
set_option autoImplicit false

namespace Fpc

open Bytes

/-! ### Waiting -/

/-- An operation that has not come to an image of its generation yet. -/
def OperationPc.waits : OperationPc → Bool
  | .enroll | .arming | .waitImage => true
  | _ => false

/-- The events of which the control task tells an active operation. -/
def FPCEvent.fails : FPCEvent → Bool
  | .suspend | .transportFailed => true
  | _ => false

/-- A failure is queued, and the control task is going to tell the operation. -/
def FailurePending (s : System) : Prop :=
  s.control.pc ≠ .finished ∧ s.device.alive = true ∧ s.storage.operationActive = true ∧
    ∃ event ∈ s.eventQueue, event.fails = true

/-- The operation is current, or an event that ends it is queued or going to be. -/
def Heard (s : System) (op : EnrollVerify) : Prop :=
  op.generation = s.storage.captureGeneration ∨ (∃ event ∈ s.imageQueue, event.ends = true) ∨
    FailurePending s

def NotStranded (s : System) : Prop := ∀ op ∈ s.operations, op.pc = .waitImage → Heard s op

/-- A turn of an operation changes neither the generation nor the flag under a newer one. -/
def Undisturbed (s : System) (action : Action) (s' : System) : Prop :=
  match action with
  | .operation id _ _ => ∀ op ∈ s.operations, id < op.id →
      s'.storage.captureGeneration = s.storage.captureGeneration ∧
        s'.storage.operationActive = s.storage.operationActive
  | _ => True

/-! ### Unhurried steps -/

/-- The call starts an operation: it is a start by the claimer, no operation is remembered, the
reader is ready, and the finger can be verified. -/
def StartsFor (s : System) (call : Call) : Prop :=
  (call.method = .verifyStart ∨ call.method = .enrollStart) ∧ s.device.claimed = true ∧
    s.device.claimedSender = call.sender ∧ s.device.enrollVerifyTask = none ∧
      s.storage.readerReady = true ∧ s.storage.sleeping = false ∧
        ∃ name ∈ call.argument, call.method = .verifyStart →
          Fingerprint.isAny name = true ∨ s.storage.check s.device.claimedUser name = true

/-- The next turn of the device starts an operation, with an authorization where it needs one. -/
def Starts (s : System) : Prop :=
  s.device.pc = .run ∧ ∃ call ∈ s.nextCall, StartsFor s call ∧
    (call.method = .enrollStart →
      ∃ entry ∈ s.device.authGates, entry.1 = call.key ∧ entry.2.state = .authorized)

/-- No operation is started while another one lives, an operation is entered while it is current or
a failure is queued, and the control task cleans up under no operation that waits, unless it
cancels it. -/
def Unhurried (s : System) : Action → Prop
  | .device _ => Starts s → s.operations = []
  | .operation id _ _ => ∀ op ∈ s.operations, op.id = id → op.pc = .enroll →
      op.generation = s.storage.captureGeneration ∨ ∃ event ∈ s.eventQueue, event.fails = true
  | .control input =>
      (Expires s input → ∀ op ∈ s.operations, op.pc.waits = false) ∧
        (GivesUp s input → ∀ op ∈ s.operations, op.pc.waits = true →
          s.device.enrollVerifyTask = some op.id)
  | _ => True

instance (s : System) (call : Call) : Decidable (StartsFor s call) :=
  inferInstanceAs (Decidable (_ ∧ _))

instance (s : System) : Decidable (Starts s) := inferInstanceAs (Decidable (_ ∧ _))

instance (s : System) (input : ControlInput) : Decidable (Expires s input) :=
  inferInstanceAs (Decidable (_ ∧ _))

instance (s : System) (input : ControlInput) : Decidable (GivesUp s input) :=
  inferInstanceAs (Decidable (_ ∨ _))

instance : ∀ s action, Decidable (Unhurried s action)
  | _, .device _ => inferInstanceAs (Decidable (_ → _))
  | s, .operation _ _ _ => inferInstanceAs (Decidable (∀ op ∈ s.operations, _))
  | _, .control _ => inferInstanceAs (Decidable (_ ∧ _))
  | _, .call _ | _, .nameOwnerChanged _ _ | _, .gate _ _ | _, .listen _ _ | _, .rawFrame _
  | _, .tlsFrame _ | _, .answer _ | _, .tlsReady | _, .transportFailed
  | _, .prepareForSleep _ => isTrue trivial

instance (s : System) : Decidable (FailurePending s) := inferInstanceAs (Decidable (_ ∧ _))

instance (s : System) (op : EnrollVerify) : Decidable (Heard s op) :=
  inferInstanceAs (Decidable (_ ∨ _))

section Starts

variable {env : Environment} {s s' t : System}

theorem cancelEnrollVerify_length (s : System) :
    (cancelEnrollVerify s).operations.length ≤ s.operations.length := by
  unfold cancelEnrollVerify System.cancelOperation
  repeat' split
  all_goals first
    | exact le_rfl
    | exact List.length_filter_le _ _

/-- A start that is refused starts nothing. -/
theorem enrollVerifyStart_starts {call : Call}
    (hgrown : s.operations.length < (enrollVerifyStart s call).operations.length) :
    s.device.enrollVerifyTask = none ∧ s.storage.readerReady = true ∧ s.storage.sleeping = false ∧
      ∃ name ∈ call.argument, call.method = .verifyStart →
        Fingerprint.isAny name = true ∨ s.storage.check s.device.claimedUser name = true := by
  obtain ⟨hoperations, hdevice, hstorage⟩ : (s.reachGated call).operations = s.operations ∧
      (s.reachGated call).device = s.device ∧ (s.reachGated call).storage = s.storage := by
    unfold System.reachGated
    split <;> exact ⟨rfl, rfl, rfl⟩
  have hrefused : ¬s.operations.length < (s.reachGated call).operations.length := by
    rw [hoperations]
    exact lt_irrefl _
  unfold enrollVerifyStart at hgrown
  rw [show (if call.method.gated then s.reach call else s) = s.reachGated call from rfl] at hgrown
  dsimp only at hgrown
  split at hgrown
  · exact absurd hgrown hrefused
  · rename_i hready
    rw [hstorage] at hready
    split at hgrown
    · exact absurd hgrown hrefused
    · rename_i htask
      rw [hdevice] at htask
      split at hgrown
      · exact absurd hgrown hrefused
      · rename_i name hargument
        split at hgrown
        · exact absurd hgrown hrefused
        · rename_i hchecked
          have hstorage' : ((s.reachGated call).access (s.reachGated call).device.claimedUser
              call.sender).storage = s.storage := hstorage
          have hdevice' : ((s.reachGated call).access (s.reachGated call).device.claimedUser
              call.sender).device = s.device := hdevice
          rw [hstorage', hdevice'] at hchecked
          simp only [Bool.or_eq_true, Bool.not_eq_true', not_or, Bool.not_eq_false,
            Bool.not_eq_true] at hready
          refine ⟨not_not.1 htask, hready.1, hready.2, name, hargument, fun hverify => ?_⟩
          by_contra hneither
          simp only [not_or, Bool.not_eq_true] at hneither
          exact hchecked (by simp [hverify, hneither.1, hneither.2])

theorem checkSender_starts {disk : Disk} {call : Call}
    (hgrown : s.operations.length < (checkSender env disk s call).operations.length) :
    StartsFor s call := by
  have hsame : ∀ {t : System}, t.operations = s.operations →
      ¬s.operations.length < t.operations.length := fun heq => by
    rw [heq]
    exact lt_irrefl _
  unfold checkSender at hgrown
  split at hgrown
  · exact absurd hgrown (hsame rfl)
  · rename_i hclaimed
    split at hgrown
    · exact absurd hgrown (hsame rfl)
    · rename_i hsender
      have hstart : (call.method = .verifyStart ∨ call.method = .enrollStart) →
          s.operations.length < (enrollVerifyStart s call).operations.length → StartsFor s call :=
        fun hmethod hgrown => ⟨hmethod, by simpa using hclaimed, not_not.1 hsender,
          enrollVerifyStart_starts hgrown⟩
      have hstop : (enrollVerifyStop s call).operations = s.operations := by
        unfold enrollVerifyStop
        split <;> rfl
      have hrelease : (releaseDevice s call).operations.length ≤ s.operations.length := by
        show (cancelEnrollVerify (resumeNameOwnerChanged s)).operations.length ≤ _
        rw [← resumeNameOwnerChanged_operations s]
        exact cancelEnrollVerify_length _
      split at hgrown
      · exact absurd hgrown (hsame (deleteEnrolledFingers2_answered env disk s call).operations)
      · rcases deleteEnrolledFinger_answered env disk s call with ha | ha
        · exact absurd hgrown (hsame ha.operations)
        · exact absurd hgrown (hsame ha.operations)
      · rename_i hm
        exact hstart (Or.inr hm) hgrown
      · rename_i hm
        exact hstart (Or.inl hm) hgrown
      · exact absurd hgrown (hsame hstop)
      · exact absurd hgrown (hsame hstop)
      · exact absurd hgrown (not_lt.2 hrelease)
      · exact absurd hgrown (hsame rfl)

theorem checkPolkit_starts {disk : Disk} {call : Call}
    (hgrown : s.operations.length < (checkPolkit env disk s call).operations.length) :
    StartsFor s call ∧ ∃ entry ∈ s.device.authGates,
      entry.1 = call.key ∧ entry.2.state = .authorized := by
  unfold checkPolkit at hgrown
  split at hgrown
  · rename_i key gate hfind
    have hmem := List.mem_of_find?_eq_some hfind
    have hkey : key = call.key := by simpa using List.find?_some hfind
    dsimp only at hgrown
    split at hgrown
    · exact absurd hgrown (lt_irrefl s.operations.length)
    · rename_i hstate
      split at hgrown
      · exact absurd hgrown (lt_irrefl s.operations.length)
      · exact ⟨checkSender_starts (s := eraseGate s call.key) hgrown, _, hmem, hkey,
          not_not.1 hstate⟩
  · split at hgrown
    · exact absurd hgrown (lt_irrefl s.operations.length)
    · exact absurd hgrown (lt_irrefl s.operations.length)

/-- **Only a start adds an operation.** -/
theorem stepDevice_starts {input : DeviceInput} (hpc : s.device.pc = .run)
    (hstep : stepDevice env s input = some s')
    (hgrown : s.operations.length < s'.operations.length) : Starts s := by
  cases hmsg : s.device.messages with
  | nil => simp [stepDevice, hpc, hmsg] at hstep
  | cons message rest =>
      rw [stepDevice_message hpc hmsg] at hstep
      obtain rfl := Option.some.inj hstep
      cases message with
      | nameOwnerChanged args =>
          refine absurd hgrown (not_lt.2 ?_)
          show (nameOwnerChanged (s.popMessage rest) args).operations.length ≤ _
          unfold nameOwnerChanged
          split
          · split
            · dsimp only
              split
              · exact le_rfl
              · exact cancelEnrollVerify_length (s.popMessage rest)
            · exact le_rfl
          · exact le_rfl
      | call call =>
          refine ⟨hpc, call, nextCall_eq_some.2 ⟨rest, hmsg⟩, ?_⟩
          cases hm : call.method with
          | listEnrolledFingers | claim | other =>
              simp only [handleMessage, hm] at hgrown
              exact absurd hgrown (lt_irrefl s.operations.length)
          | enrollStart | deleteEnrolledFinger | deleteEnrolledFingers | deleteEnrolledFingers2 =>
              simp only [handleMessage, hm] at hgrown
              obtain ⟨hstarts, hentry⟩ := checkPolkit_starts (s := s.popMessage rest) hgrown
              exact ⟨hstarts, fun _ => hentry⟩
          | enrollStop | verifyStop | verifyStart | release =>
              simp only [handleMessage, hm] at hgrown
              exact ⟨checkSender_starts (s := s.popMessage rest) hgrown, fun h => by cases h⟩

end Starts

/-! ### One operation at a time -/

/-- Once the control task is over there is no device, and no failure is queued. -/
def Over (s : System) : Prop :=
  s.control.pc = .finished → s.device.alive = false ∧ s.power = false ∧
    s.control.session = .closed ∧ ∀ event ∈ s.eventQueue, event.fails = false

/-- There is at most one operation.  Until the control task is over there is a device and the
operation is marked active; it is the one the device remembers, if it remembers any; and an
operation that waits is current, or an event that ends it or a failure is queued. -/
structure Attending (s : System) : Prop where
  alone : s.operations.length ≤ 1
  serving : s.operations ≠ [] → s.control.pc ≠ .finished →
    s.device.alive = true ∧ s.storage.operationActive = true
  named : ∀ op ∈ s.operations, s.device.enrollVerifyTask = some op.id ∨
    s.device.enrollVerifyTask = none
  told : ∀ op ∈ s.operations, op.pc.waits = true →
    op.generation = s.storage.captureGeneration ∨ (∃ event ∈ s.imageQueue, event.ends = true) ∨
      ∃ event ∈ s.eventQueue, event.fails = true
  ended : Over s

section Attending

variable {env : Environment} {s s' t u : System}

theorem over_of_running (hrunning : s.control.pc ≠ .finished) : Over s := fun hover =>
  absurd hover hrunning

/-- Without operations there is nothing to say but about the end. -/
theorem Attending.of_nil (hnil : s.operations = []) (hover : Over s) : Attending s where
  alone := by simp [hnil]
  serving hsome := absurd hnil hsome
  named op hmem := by simp [hnil] at hmem
  told op hmem := by simp [hnil] at hmem
  ended := hover

theorem Attending.eq_singleton (h : Attending s) {op : EnrollVerify} (hmem : op ∈ s.operations) :
    s.operations = [op] := by
  obtain ⟨first, hfirst⟩ := List.length_eq_one_iff.1
    (le_antisymm h.alone (List.length_pos_of_mem hmem))
  rw [hfirst] at hmem ⊢
  rw [List.mem_singleton.1 hmem]

/-- Every operation is still heard, and the device goes on. -/
theorem Attending.frame (h : Attending s) (hoperations : s'.operations = s.operations)
    (hgeneration : s'.storage.captureGeneration = s.storage.captureGeneration)
    (hserving : s.control.pc ≠ .finished → s.device.alive = true →
      s.storage.operationActive = true →
        s'.device.alive = true ∧ s'.storage.operationActive = true)
    (hrunning : s'.control.pc ≠ .finished → s.control.pc ≠ .finished)
    (htask : s'.device.enrollVerifyTask = s.device.enrollVerifyTask ∨
      s'.device.enrollVerifyTask = none)
    (himages : ∀ event ∈ s.imageQueue, event.ends = true → event ∈ s'.imageQueue)
    (hevents : ∀ event ∈ s.eventQueue, event.fails = true → event ∈ s'.eventQueue)
    (hover : Over s') : Attending s' where
  alone := hoperations ▸ h.alone
  serving hsome hpc := by
    obtain ⟨halive, hactive⟩ := h.serving (hoperations ▸ hsome) (hrunning hpc)
    exact hserving (hrunning hpc) halive hactive
  named op hmem := by
    rcases htask with htask | htask
    · rw [htask]
      exact h.named op (hoperations ▸ hmem)
    · exact Or.inr htask
  told op hmem hwaits := by
    rw [hgeneration]
    rcases h.told op (hoperations ▸ hmem) hwaits with hcurrent | ⟨event, hmem, hends⟩ |
      ⟨event, hmem, hfails⟩
    · exact Or.inl hcurrent
    · exact Or.inr (Or.inl ⟨event, himages event hmem hends, hends⟩)
    · exact Or.inr (Or.inr ⟨event, hevents event hmem hfails, hfails⟩)
  ended := hover

/-- The one operation has taken a turn. -/
theorem Attending.replace (h : Attending s) {op : EnrollVerify} (hmem : op ∈ s.operations)
    (op' : EnrollVerify) (hid : op'.id = op.id) (hoperations : s'.operations = [op'])
    (hactive : s'.storage.operationActive = s.storage.operationActive)
    (hdevice : s'.device = s.device) (hcontrol : s'.control = s.control)
    (hpower : s'.power = s.power)
    (hevents : ∀ event ∈ s'.eventQueue, event ∈ s.eventQueue ∨ event.fails = false)
    (htold : op'.pc.waits = true → op'.generation = s'.storage.captureGeneration ∨
      (∃ event ∈ s'.imageQueue, event.ends = true) ∨ ∃ event ∈ s'.eventQueue, event.fails = true) :
    Attending s' where
  alone := by simp [hoperations]
  serving _ hpc := by
    rw [hdevice, hactive]
    exact h.serving (List.ne_nil_of_mem hmem) (hcontrol ▸ hpc)
  named other hother := by
    rw [hoperations] at hother
    rw [List.mem_singleton.1 hother, hdevice, hid]
    exact h.named op hmem
  told other hother hwaits := by
    rw [hoperations] at hother
    rw [List.mem_singleton.1 hother] at hwaits ⊢
    exact htold hwaits
  ended hpc := by
    obtain ⟨hdead, hoff, hclosed, hquiet⟩ := h.ended (hcontrol ▸ hpc)
    rw [hdevice, hpower, hcontrol]
    refine ⟨hdead, hoff, hclosed, fun event hevent => ?_⟩
    rcases hevents event hevent with hold | hfine
    · exact hquiet event hold
    · exact hfine

theorem setOperation_singleton {op op' : EnrollVerify} (hoperations : t.operations = [op])
    (hid : op.id = op'.id) : (t.setOperation op').operations = [op'] := by
  show t.operations.map _ = [op']
  rw [hoperations]
  simp [hid]

/-- Something that is no failure is put into the event queue. -/
theorem fails_append {queue : List FPCEvent} {last event : FPCEvent} (hlast : last.fails = false)
    (hmem : event ∈ queue ++ [last]) : event ∈ queue ∨ event.fails = false := by
  rcases List.mem_append.1 hmem with hmem | hmem
  · exact Or.inl hmem
  · obtain rfl := List.mem_singleton.1 hmem
    exact Or.inr hlast

theorem Attending.operationTurn (h : Attending s) {op : EnrollVerify} (hmem : op ∈ s.operations)
    (hturn : OperationTurn s op s')
    (hentered : op.pc = .enroll → op.generation = s.storage.captureGeneration ∨
      ∃ event ∈ s.eventQueue, event.fails = true) : Attending s' := by
  have hlone := h.eq_singleton hmem
  cases hturn with
  | entered hpc =>
      refine h.replace hmem { op with pc := .arming } rfl (setOperation_singleton hlone rfl) rfl rfl
        rfl rfl (fun _ => fails_append rfl) fun _ => ?_
      rcases hentered hpc with hcurrent | ⟨event, hevent, hfails⟩
      · exact Or.inl hcurrent
      · exact Or.inr (Or.inr ⟨event, List.mem_append_left _ hevent, hfails⟩)
  | armed hpc =>
      exact h.replace hmem { op with pc := .waitImage } rfl (setOperation_singleton hlone rfl) rfl
        rfl rfl rfl (fun _ => Or.inl) fun _ => h.told op hmem (by rw [hpc]; rfl)
  | @skipped event rest hpc hqueue hends =>
      refine h.replace hmem op rfl hlone rfl rfl rfl rfl (fun _ => Or.inl) fun hwaits => ?_
      rcases h.told op hmem hwaits with hcurrent | ⟨other, hother, hends'⟩ | hfails
      · exact Or.inl hcurrent
      · rw [hqueue] at hother
        rcases List.mem_cons.1 hother with rfl | hother
        · rw [hends] at hends'
          cases hends'
        · exact Or.inr (Or.inl ⟨other, hother, hends'⟩)
      · exact Or.inr (Or.inr hfails)
  | @accepted generation origin requested rest t status terminal _ _ _ huse =>
      have hfields : t.operations = s.operations ∧ t.device = s.device ∧ t.control = s.control ∧
          t.power = s.power ∧ t.eventQueue = s.eventQueue ∧
            t.storage.operationActive = s.storage.operationActive := by
        rcases huse with ⟨heq, hflags⟩ | ⟨heq, hflags⟩
        · refine ⟨by rw [heq]; rfl, by rw [heq]; rfl, by rw [heq]; rfl, by rw [heq]; rfl,
            by rw [heq]; rfl, ?_⟩
          rw [hflags]
          rfl
        · refine ⟨by rw [heq]; rfl, by rw [heq]; rfl, by rw [heq]; rfl, by rw [heq]; rfl,
            by rw [heq]; rfl, ?_⟩
          rw [hflags]
          rfl
      obtain ⟨hoperations, hdevice, hcontrol, hpower, hevents, hactive⟩ := hfields
      exact h.replace hmem { op with pc := .sending terminal } rfl
        (setOperation_singleton (hoperations.trans hlone) rfl) hactive hdevice hcontrol hpower
        (fun event hevent => Or.inl (hevents ▸ hevent)) (by simp [OperationPc.waits])
  | stopped _ _ | ended _ =>
      exact h.replace hmem { op with pc := .stopping } rfl (setOperation_singleton hlone rfl) rfl
        rfl rfl rfl (fun _ => fails_append rfl) (by simp [OperationPc.waits])
  | failed _ _ =>
      exact h.replace hmem { op with pc := .sending true } rfl (setOperation_singleton hlone rfl)
        rfl rfl rfl rfl (fun _ => Or.inl) (by simp [OperationPc.waits])
  | next _ =>
      exact h.replace hmem
        { op with pc := .arming, generation := s.storage.captureGeneration + 1 } rfl
        (setOperation_singleton hlone rfl) rfl rfl rfl rfl (fun _ => fails_append rfl)
        fun _ => Or.inl rfl
  | finished _ =>
      refine .of_nil ?_ h.ended
      show s.operations.filter _ = []
      rw [hlone]
      simp

/-- What a claim takes down is its operation, if the device remembers one. -/
theorem takeDown_cases (s : System) :
    (s.device.enrollVerifyTask = none ∧ s.takeDown.operations = s.operations ∧
      s.takeDown.store = s.store) ∨
      ∀ op ∈ s.takeDown.operations, op ∈ s.operations ∧
        s.device.enrollVerifyTask ≠ some op.id ∧ s.device.enrollVerifyTask ≠ none := by
  have hdevice := resumeNameOwnerChanged_device s
  have hoperations := resumeNameOwnerChanged_operations s
  cases htask : s.device.enrollVerifyTask with
  | none =>
      have hidle : cancelEnrollVerify (resumeNameOwnerChanged s) = resumeNameOwnerChanged s := by
        unfold cancelEnrollVerify
        rw [hdevice]
        dsimp only
        rw [htask]
      refine Or.inl ⟨rfl, ?_, ?_⟩
      · show (cancelEnrollVerify (resumeNameOwnerChanged s)).operations = _
        rw [hidle, hoperations]
      · show (cancelEnrollVerify (resumeNameOwnerChanged s)).store = _
        rw [hidle]
        unfold resumeNameOwnerChanged
        split <;> rfl
  | some id =>
      refine Or.inr fun op hmem => ?_
      have hgone := (cancelEnrollVerify_fields (resumeNameOwnerChanged s)).2.2 op hmem
      rw [hdevice] at hgone
      refine ⟨hoperations ▸ cancelEnrollVerify_operations _ op hmem, ?_, nofun⟩
      rw [← htask]
      exact hgone

theorem hangUp_cases (s : System) :
    (s.device.enrollVerifyTask = none ∧ s.hangUp = s.unclaim.putEvent .stopSensor) ∨
      ∀ op ∈ s.hangUp.operations, op ∈ s.operations ∧
        s.device.enrollVerifyTask ≠ some op.id ∧ s.device.enrollVerifyTask ≠ none := by
  unfold System.hangUp
  split
  · rename_i htask
    exact Or.inl ⟨htask, rfl⟩
  · rename_i htask
    exact Or.inr fun op hmem => ⟨cancelEnrollVerify_operations s op hmem,
      (cancelEnrollVerify_fields s).2.2 op hmem, htask⟩

/-- An operation that is not remembered although one is cannot be. -/
theorem Attending.taken_down (h : Attending s) {operations : List EnrollVerify}
    (hgone : ∀ op ∈ operations, op ∈ s.operations ∧
      s.device.enrollVerifyTask ≠ some op.id ∧ s.device.enrollVerifyTask ≠ none) :
    operations = [] := by
  refine List.eq_nil_iff_forall_not_mem.2 fun op hmem => ?_
  obtain ⟨hmem, hother, hsome⟩ := hgone op hmem
  rcases h.named op hmem with hnamed | hnone
  · exact hother hnamed
  · exact hsome hnone

theorem Attending.deviceTurn (h : Attending s) {input : DeviceInput}
    (halive : s.device.alive = true) (hstep : stepDevice env s input = some s')
    (hstarts : Starts s → s.operations = []) :
    Attending s' := by
  have hturn := stepDevice_turn hstep
  have halive' : s'.device.alive = true := hturn.alive_eq.trans halive
  have hrunning : s.control.pc ≠ .finished := fun hpc => by
    rw [(h.ended hpc).1] at halive
    cases halive
  have hover : Over s' := by
    refine over_of_running ?_
    rw [hturn.sessionTurn.events.2.1]
    exact hrunning
  cases hturn.sessionTurn with
  | same hs =>
      refine h.frame hs.operations (by rw [hs.storage]) (fun _ _ hactive => ⟨halive', ?_⟩)
        (fun _ => hrunning) (Or.inl (by rw [hs.device])) (fun _ hmem _ => hs.imageQueue ▸ hmem)
        (fun _ hmem _ => hs.eventQueue ▸ hmem) hover
      rw [hs.storage]
      exact hactive
  | claimed _ _ hs =>
      refine h.frame hs.operations (by rw [hs.storage]; rfl) (fun _ _ hactive => ⟨halive', ?_⟩)
        (fun _ => hrunning) (Or.inl (by rw [hs.device]; rfl))
        (fun _ hmem _ => hs.imageQueue ▸ hmem) (fun _ hmem _ => hs.eventQueue ▸ hmem) hover
      rw [hs.storage]
      exact hactive
  | stopLeft _ hs =>
      refine h.frame hs.operations (by rw [hs.storage]; rfl) (fun _ _ hactive => ⟨halive', ?_⟩)
        (fun _ => hrunning) (Or.inr (by rw [hs.device]; rfl))
        (fun _ hmem _ => hs.imageQueue ▸ List.mem_append_left _ hmem)
        (fun _ hmem _ => hs.eventQueue ▸ hmem) hover
      rw [hs.storage]
      exact hactive
  | @started call name isVerify hpc _ _ _ hs =>
      have hgrown : s'.operations = s.operations ++ [⟨s.nextTask, s.storage.captureGeneration + 1,
          s.device.claimedUser, name, isVerify, call.sender, .enroll⟩] := hs.operations
      have hnone := hstarts (stepDevice_starts hpc hstep (by simp [hgrown]))
      rw [hnone] at hgrown
      refine ⟨by simp [hgrown], fun _ _ => ⟨halive', ?_⟩, fun op hmem => Or.inl ?_,
        fun op hmem _ => Or.inl ?_, hover⟩
      · rw [hs.storage]
        rfl
      · rw [hgrown] at hmem
        rw [List.mem_singleton.1 hmem, hs.device]
        rfl
      · rw [hgrown] at hmem
        rw [List.mem_singleton.1 hmem, hs.storage]
        rfl
  | released _ hs =>
      rcases takeDown_cases s with ⟨-, hoperations, hstore⟩ | hgone
      · have hstorage : s.takeDown.storage = s.storage := congrArg Store.storage hstore
        refine h.frame (hs.operations.trans hoperations) ?_ (fun _ _ hactive => ⟨halive', ?_⟩)
          (fun _ => hrunning) (Or.inr ?_) (fun _ hmem _ => ?_) (fun _ hmem _ => ?_) hover
        · rw [hs.storage]
          show s.takeDown.storage.captureGeneration = _
          rw [hstorage]
        · rw [hs.storage]
          show s.takeDown.storage.operationActive = _
          rw [hstorage]
          exact hactive
        · rw [hs.device]
          exact takeDown_task s
        · rw [hs.imageQueue, takeDown_eq]
          exact hmem
        · rw [hs.eventQueue, takeDown_eq]
          exact hmem
      · exact .of_nil (hs.operations.trans (h.taken_down hgone)) hover
  | disconnected _ hs =>
      rcases hangUp_cases s with ⟨htask, heq⟩ | hgone
      · rw [heq] at hs
        refine h.frame hs.operations (by rw [hs.storage]; rfl) (fun _ _ hactive => ⟨halive', ?_⟩)
          (fun _ => hrunning) (Or.inl (by rw [hs.device]; rfl))
          (fun _ hmem _ => hs.imageQueue ▸ hmem)
          (fun _ hmem _ => hs.eventQueue ▸ List.mem_append_left _ hmem) hover
        rw [hs.storage]
        exact hactive
      · exact .of_nil (hs.operations.trans (h.taken_down hgone)) hover

/-! ### The control task -/

/-- Opening the database keeps the generation and the flag. -/
theorem tlsReady_flags {env' : Environment} (hready : tlsReady env' t = some s') :
    s'.storage.captureGeneration = t.storage.captureGeneration ∧
      s'.storage.operationActive = t.storage.operationActive ∧ s'.operations = t.operations ∧
        s'.imageQueue = t.imageQueue ∧ s'.eventQueue = t.eventQueue ∧
          (s'.device = t.device ∨
            (t.device.alive = false ∧ s'.device.enrollVerifyTask = none)) ∧
              s'.control.pc ≠ .finished := by
  unfold tlsReady at hready
  split at hready
  · cases hready
  · rename_i store hinit
    obtain rfl := Option.some.inj hready
    unfold Store.init at hinit
    split at hinit
    · cases hinit
    · dsimp only at hinit
      split at hinit
      · cases hinit
      · cases hinit
        refine ⟨rfl, rfl, rfl, rfl, rfl, ?_, nofun⟩
        show (if t.device.alive then t.device else _) = t.device ∨ (_ ∧
          (if t.device.alive then t.device else { Device.initial with alive := true }
            ).enrollVerifyTask = none)
        split
        · exact Or.inl rfl
        · rename_i hdead
          exact Or.inr ⟨by simpa using hdead, rfl⟩

/-- The end of the control task cancels the operation that the device remembers. -/
theorem finishControl_left (s : System) :
    (finishControl s).operations.length ≤ s.operations.length ∧
      ∀ op ∈ (finishControl s).operations, op ∈ s.operations ∧
        (s.device.alive = true → s.device.enrollVerifyTask ≠ some op.id) := by
  let quiet := System.setStorage { s with power := false } { s.storage with readerReady := false }
  have hleft : (finishControl s).operations =
      if s.device.alive then (cancelEnrollVerify quiet).operations else s.operations := by
    unfold finishControl cleanupDevice cancelDevice
    dsimp only [System.setStorage]
    cases s.device.alive with
    | true => exact resumeNameOwnerChanged_operations _
    | false => rfl
  rw [hleft]
  split
  · exact ⟨cancelEnrollVerify_length quiet, fun op hmem =>
      ⟨cancelEnrollVerify_operations quiet op hmem,
        fun _ => (cancelEnrollVerify_fields quiet).2.2 op hmem⟩⟩
  · rename_i hdead
    exact ⟨le_rfl, fun op hmem => ⟨hmem, fun halive => absurd halive hdead⟩⟩

theorem finishControl_over (s : System) : Over (finishControl s) := by
  intro _
  refine ⟨?_, ?_, rfl, nofun⟩
  · rw [finishControl_device]
    split
    · rfl
    · rename_i hdead
      simpa using hdead
  · unfold finishControl cleanupDevice cancelDevice cancelEnrollVerify System.cancelOperation
      resumeNameOwnerChanged
    dsimp only [System.setStorage, System.bumpGeneration, System.setControl]
    repeat' split
    all_goals rfl

/-- No operation that goes on after the end of the control task waits. -/
theorem Attending.finishControl (h : Attending s) (hoperations : u.operations = s.operations)
    (hdevice : u.device = s.device)
    (hidle : ∀ op ∈ s.operations, op.pc.waits = true →
      s.device.alive = true ∧ s.device.enrollVerifyTask = some op.id) :
    Attending (finishControl u) := by
  obtain ⟨hlength, hleft⟩ := finishControl_left u
  rw [hoperations, hdevice] at hleft
  rw [hoperations] at hlength
  refine ⟨hlength.trans h.alone, fun _ hpc => absurd rfl hpc, fun op hmem => ?_,
    fun op hmem hwaits => ?_, finishControl_over u⟩
  · rw [finishControl_device, hdevice]
    split
    · exact Or.inr rfl
    · exact h.named op (hleft op hmem).1
  · obtain ⟨halive, hnamed⟩ := hidle op (hleft op hmem).1 hwaits
    exact absurd hnamed ((hleft op hmem).2 halive)

theorem Fetched.fields {event : Option FPCEvent} (hf : Fetched s event t) :
    t.operations = s.operations ∧ t.device = s.device ∧ t.storage = s.storage ∧
      t.imageQueue = s.imageQueue ∧ ∀ e ∈ s.eventQueue, e ∈ t.eventQueue ∨ some e = event := by
  cases hf with
  | waited _ => exact ⟨rfl, rfl, rfl, rfl, fun _ => Or.inl⟩
  | event _ hqueue =>
      refine ⟨rfl, rfl, rfl, rfl, fun e hmem => ?_⟩
      rw [hqueue] at hmem
      rcases List.mem_cons.1 hmem with rfl | hmem
      · exact Or.inr rfl
      · exact Or.inl hmem

/-- The control task has dealt with something else than a failure. -/
theorem Attending.fetched (h : Attending s) {event : Option FPCEvent} (hf : Fetched s event t)
    (hsuspend : event ≠ some .suspend) (hfailed : event ≠ some .transportFailed)
    (hoperations : s'.operations = t.operations)
    (hgeneration : s'.storage.captureGeneration = t.storage.captureGeneration)
    (hactive : s'.storage.operationActive = t.storage.operationActive)
    (hdevice : s'.device = t.device ∨ (t.device.alive = false ∧ s'.device.enrollVerifyTask = none))
    (himages : ∀ e ∈ t.imageQueue, e ∈ s'.imageQueue) (hevents : s'.eventQueue = t.eventQueue)
    (hpc : s.control.pc ≠ .finished) (hpc' : s'.control.pc ≠ .finished) : Attending s' := by
  obtain ⟨hsame, hdevice', hstorage, himages', hqueue⟩ := hf.fields
  rw [hdevice'] at hdevice
  refine h.frame (hoperations.trans hsame) (by rw [hgeneration, hstorage])
    (fun _ halive hon => ?_) (fun _ => hpc) ?_ (fun e hmem _ => himages e (himages' ▸ hmem))
    (fun e hmem hfails => ?_) (over_of_running hpc')
  · rcases hdevice with hkept | ⟨hdead, -⟩
    · rw [hkept, hactive, hstorage]
      exact ⟨halive, hon⟩
    · rw [hdead] at halive
      cases halive
  · rcases hdevice with hkept | ⟨-, hnone⟩
    · exact Or.inl (by rw [hkept])
    · exact Or.inr hnone
  · rw [hevents]
    refine (hqueue e hmem).resolve_right ?_
    rintro rfl
    cases e with
    | suspend => exact hsuspend rfl
    | transportFailed => exact hfailed rfl
    | _ => cases hfails

theorem Attending.controlTurn (h : Attending s) (hpc : s.control.pc ≠ .finished)
    {input : ControlInput} (hturn : ControlTurn s input s')
    (hexpires : Expires s input → ∀ op ∈ s.operations, op.pc.waits = false)
    (hgivesUp : GivesUp s input → ∀ op ∈ s.operations, op.pc.waits = true →
      s.device.enrollVerifyTask = some op.id) : Attending s' := by
  -- nothing is cleaned up under an operation that waits
  have hidle : ∀ {event : Option FPCEvent} {t : System}, Fetched s event t →
      (t.device.alive = false ∨ t.storage.operationActive = false ∨ Expires s input) →
        ∀ op ∈ s.operations, op.pc.waits = false := by
    intro event t hf hwhy op hmem
    obtain ⟨-, hdevice, hstorage, -⟩ := hf.fields
    obtain ⟨halive, hactive⟩ := h.serving (List.ne_nil_of_mem hmem) hpc
    rw [hdevice, hstorage, halive, hactive] at hwhy
    rcases hwhy with hnot | hnot | hexpired
    · cases hnot
    · cases hnot
    · exact hexpires hexpired op hmem
  cases hturn with
  | steady hf hsuspend hfailed _ _ hs =>
      exact h.fetched hf hsuspend hfailed hs.operations hs.captureGeneration hs.operationActive
        (Or.inl hs.device) (fun _ hmem => hs.imageQueue ▸ hmem) hs.eventQueue hpc hs.running
  | asked hf hsuspend hfailed _ _ hs =>
      exact h.fetched hf hsuspend hfailed hs.operations hs.captureGeneration hs.operationActive
        (Or.inl hs.device) (fun _ hmem => hs.imageQueue ▸ hmem) hs.eventQueue hpc hs.running
  | ignored hf hs | armed hf _ _ _ hs =>
      exact h.fetched hf (by simp) (by simp) hs.operations hs.captureGeneration hs.operationActive
        (Or.inl hs.device) (fun _ hmem => hs.imageQueue ▸ hmem) hs.eventQueue hpc hs.running
  | touched hf hs | handed hf _ _ hs =>
      exact h.fetched hf (by simp) (by simp) hs.operations hs.captureGeneration hs.operationActive
        (Or.inl hs.device) (fun _ hmem => hs.imageQueue ▸ List.mem_append_left _ hmem)
        hs.eventQueue hpc hs.running
  | @told event t _ hf halive hactive hs =>
      obtain ⟨hoperations, hdevice, -, -⟩ := hf.fields
      have hsame : s'.operations = s.operations := hs.operations.trans hoperations
      have hdevice : s'.device = s.device := hs.device.trans hdevice
      have himages : s'.imageQueue = t.imageQueue ++ [.transportFailed] := hs.imageQueue
      refine ⟨hsame ▸ h.alone, fun _ _ => ⟨?_, hs.operationActive.trans hactive⟩, fun op hmem => ?_,
        fun _ _ _ => Or.inr (Or.inl ⟨.transportFailed, by simp [himages], rfl⟩),
        over_of_running hs.running⟩
      · rw [hs.device]
        exact halive
      · rw [hdevice]
        exact h.named op (hsame ▸ hmem)
  | @cleaned event t _ hf hwhy hs =>
      obtain ⟨hoperations, hdevice, hstorage, -⟩ := hf.fields
      have hsame : s'.operations = s.operations := hs.operations.trans hoperations
      have hdevice : s'.device = s.device := hs.device.trans hdevice
      refine ⟨hsame ▸ h.alone, fun hsome _ => ?_, fun op hmem => ?_, fun op hmem hwaits => ?_,
        over_of_running hs.running⟩
      · obtain ⟨halive, hactive⟩ := h.serving (hsame ▸ hsome) hpc
        rw [hdevice, hs.operationActive]
        exact ⟨halive, (congrArg _ hstorage).trans hactive⟩
      · rw [hdevice]
        exact h.named op (hsame ▸ hmem)
      · rw [hidle hf hwhy op (hsame ▸ hmem)] at hwaits
        cases hwaits
  | @cleanedUp event t u hf hwhy hs =>
      obtain ⟨hoperations, hdevice, -, -⟩ := hf.fields
      refine h.finishControl (hs.operations.trans hoperations) (hs.device.trans hdevice)
        fun op hmem hwaits => ?_
      rw [hidle hf hwhy op hmem] at hwaits
      cases hwaits
  | gaveUp hf hgives =>
      obtain ⟨hoperations, hdevice, -, -⟩ := hf.fields
      exact h.finishControl hoperations hdevice fun op hmem hwaits =>
        ⟨(h.serving (List.ne_nil_of_mem hmem) hpc).1, hgivesUp hgives op hmem hwaits⟩
  | @ready _ t _ hf hready =>
      obtain ⟨hgeneration, hactive, hsame, himages, hevents, hdevice, hpc'⟩ := tlsReady_flags hready
      exact h.fetched hf (by simp) (by simp) hsame hgeneration hactive hdevice
        (fun _ hmem => himages ▸ hmem) hevents hpc hpc'

/-! ### Steps -/

/-- The operation that takes a turn is the only one. -/
theorem Attending.acting (h : Attending s) {op : EnrollVerify} (hmem : op ∈ s.operations) {id : ℕ}
    {scan : Scan} {disk : Disk} (hstep : step env s (.operation id scan disk) = some s') :
    op.id = id := by
  have hstep : Fpc.operationTurn env s id scan disk = some s' := hstep
  unfold Fpc.operationTurn at hstep
  split at hstep
  · cases hstep
  · rename_i found hfind
    have hfound : found ∈ s.operations := List.mem_of_find?_eq_some hfind
    rw [h.eq_singleton hmem] at hfound
    rw [← List.mem_singleton.1 hfound]
    simpa using List.find?_some hfind

/-- **An unhurried step strands no operation.** -/
theorem Attending.step (h : Attending s) {action : Action} (hok : Unhurried s action)
    (hstep : step env s action = some s') : Attending s' := by
  have hopen : s.control.session ≠ .closed → s.control.pc ≠ .finished := fun hsession hpc =>
    hsession (h.ended hpc).2.2.1
  have hawake : s.power = true → s.control.pc ≠ .finished := fun hpower hpc => by
    rw [(h.ended hpc).2.1] at hpower
    cases hpower
  -- an event is queued while the control task goes on
  have hput : ∀ event, s.control.pc ≠ .finished → Attending (s.putEvent event) := fun event hpc =>
    h.frame rfl rfl (fun _ halive hactive => ⟨halive, hactive⟩) (fun _ => hpc) (Or.inl rfl)
      (fun _ hmem _ => hmem) (fun _ hmem _ => List.mem_append_left _ hmem) (over_of_running hpc)
  cases step_turn hstep with
  | arrived _ _ | forwarded _ _ _ =>
      exact h.frame rfl rfl (fun _ halive hactive => ⟨halive, hactive⟩) (fun hpc => hpc)
        (Or.inl rfl) (fun _ hmem _ => hmem) (fun _ hmem _ => hmem) h.ended
  | device halive _ =>
      simp only [Fpc.step, if_pos halive] at hstep
      exact h.deviceTurn halive hstep hok
  | gate _ _ =>
      rw [stepGate_eq]
      exact h.frame rfl rfl (fun _ halive hactive => ⟨halive, hactive⟩) (fun hpc => hpc)
        (Or.inl rfl) (fun _ hmem _ => hmem) (fun _ hmem _ => hmem) h.ended
  | listen _ hturn =>
      rw [stepListen_fields hturn]
      exact h.frame rfl rfl (fun _ halive hactive => ⟨halive, hactive⟩) (fun hpc => hpc)
        (Or.inl rfl) (fun _ hmem _ => hmem) (fun _ hmem _ => hmem) h.ended
  | @operation id scan disk op _ hmem hturn =>
      exact h.operationTurn hmem hturn fun hpc => hok op hmem (h.acting hmem hstep) hpc
  | control hpc hturn => exact h.controlTurn hpc hturn hok.1 hok.2
  | rawDropped _ => exact h
  | rawQueued hsession _ | failed hsession => exact hput _ (hopen hsession)
  | tlsQueued hsession _ => exact hput _ (hopen (by simp [hsession]))
  | answered hsession _ | established hsession =>
      have hpc := hopen (by simp [hsession])
      exact h.frame rfl rfl (fun _ halive hactive => ⟨halive, hactive⟩) (fun _ => hpc) (Or.inl rfl)
        (fun _ hmem _ => hmem) (fun _ hmem _ => List.mem_append_left _ hmem) (over_of_running hpc)
  | slept hpower =>
      have hpc := hawake hpower
      exact ⟨h.alone, h.serving, h.named,
        fun _ _ _ => Or.inr (Or.inr ⟨.suspend, List.mem_append_right _ (by simp), rfl⟩),
        over_of_running hpc⟩
  | woke hpower =>
      have hpc := hawake hpower
      exact h.frame rfl rfl (fun _ halive hactive => ⟨halive, hactive⟩) (fun _ => hpc) (Or.inl rfl)
        (fun _ hmem _ => hmem) (fun _ hmem _ => List.mem_append_left _ hmem) (over_of_running hpc)

/-- The operation that waits is heard. -/
theorem Attending.notStranded (h : Attending s) : NotStranded s := by
  intro op hmem hpc
  rcases h.told op hmem (by rw [hpc]; rfl) with hcurrent | hends | ⟨event, hevent, hfails⟩
  · exact Or.inl hcurrent
  · exact Or.inr (Or.inl hends)
  · have hrunning : s.control.pc ≠ .finished := fun hover => by
      rw [(h.ended hover).2.2.2 event hevent] at hfails
      cases hfails
    obtain ⟨halive, hactive⟩ := h.serving (List.ne_nil_of_mem hmem) hrunning
    exact Or.inr (Or.inr ⟨hrunning, halive, hactive, event, hevent, hfails⟩)

/-- There is no newer operation that could be disturbed. -/
theorem Attending.undisturbed (h : Attending s) {action : Action}
    (hstep : Fpc.step env s action = some s') : Undisturbed s action s' := by
  cases action with
  | operation id scan disk =>
      intro op hmem hnewer
      exact absurd (h.acting hmem hstep) hnewer.ne'
  | _ => trivial

end Attending

/-- **No operation is stranded, and none is disturbed by an earlier one**, in the runs whose steps
are unhurried. -/
theorem none_stranded {env : Environment} {s : System}
    (h : Transition.Reaches (step env) Unhurried Started s) :
    NotStranded s ∧ ∀ action s', step env s action = some s' → Undisturbed s action s' := by
  have hattending : Attending s := by
    refine Transition.Reaches.invariant ?_ (fun _ hinv hok hstep => hinv.step hok hstep) h
    rintro _ ⟨handle, file, rfl⟩
    exact .of_nil rfl (over_of_running nofun)
  exact ⟨hattending.notStranded, fun _ _ hstep => hattending.undisturbed hstep⟩

theorem none_stranded_armed :
    ∃ s, homeRun verifyArmed = some s ∧ (∃ op ∈ s.operations, op.pc = .waitImage) ∧
      NotStranded s ∧ ∀ action s', step homeEnvironment s action = some s' →
        Undisturbed s action s' := by
  obtain ⟨s, hs, hok, hwaits⟩ : ∃ s, homeRun verifyArmed = some s ∧
      homeChecked Unhurried verifyArmed = some s ∧ ∃ op ∈ s.operations, op.pc = .waitImage :=
    ⟨_, rfl, rfl, by decide⟩
  exact ⟨s, hs, hwaits, none_stranded (homeChecked_reaches hok)⟩

/-- A verification is stopped and another one is started, before the first one has run again. -/
def verifyPipelined : List Action :=
  verifyArmed ++ callActions ":1.1" 3 .verifyStop none ++
    callActions ":1.1" 4 .verifyStart (some "any") ++
      [.operation 1 .unprepared (Disk.sound (Vector.replicate 12 1)),
        .operation 1 .unprepared (Disk.sound (Vector.replicate 12 1)),
        .operation 2 .unprepared (Disk.sound (Vector.replicate 12 1)),
        .operation 2 .unprepared (Disk.sound (Vector.replicate 12 1))]

/-- The first operation finds its stop event when the generation is the second one's, advances it
and clears the flag; the second one then waits for images of a generation that is past. -/
theorem none_stranded_pipelined :
    ¬∀ (env : Environment) (s : System), Transition.Reachable (step env) Started s →
      NotStranded s ∧ ∀ action s', step env s action = some s' → Undisturbed s action s' := by
  intro hclaim
  obtain ⟨s, hs, op, hmem, hpc, hlost⟩ : ∃ s, homeRun verifyPipelined = some s ∧
      ∃ op ∈ s.operations, op.pc = .waitImage ∧ ¬Heard s op := ⟨_, rfl, by decide⟩
  exact hlost ((hclaim homeEnvironment s (homeRun_reachable hs)).1 op hmem hpc)

end Fpc
