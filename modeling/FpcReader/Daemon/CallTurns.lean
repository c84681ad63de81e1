/-
**Calls on their way.**

A call waits in the queue, its gate may be created, and its authorization is noted, used up, marked
finished or forgotten.  Of everything a turn of the device or of a gate does, this module keeps only
what happens to the queue, to the authorizations, to the gates and to the handlers reached.

Main definitions:

* `Fpc.OpensGate` — the next turn of the device creates a gate;
* `Fpc.CallTurn` — what a turn of the device does to the calls on their way;
* `Fpc.GateTurn` — what a turn of a gate does to them.

Main results:

* `Fpc.stepDevice_callTurn`, `Fpc.stepGate_turn` — **a turn makes one of these changes**.
-/

import FpcReader.Daemon.HandledOnce

set_option relaxedAutoImplicit false
set_option autoImplicit false

namespace Fpc

open Bytes

/-! ### The device -/

/-- The call the device takes next. -/
def System.nextCall (s : System) : Option Call := s.device.messages.head?.bind Message.caller

/-- The next turn of the device creates a gate: the next message is a call that needs an
authorization and has none, and no other client has claimed the device. -/
def OpensGate (s : System) : Prop :=
  s.device.pc = .run ∧ ∃ call ∈ s.nextCall, call.method.gated = true ∧
    (∀ entry ∈ s.device.authGates, entry.1 ≠ call.key) ∧
      (s.device.claimed = true → s.device.claimedSender = call.sender)

/-- The next turn of the device handles the release by its claimer. -/
def Releases (s : System) (client : Client) : Prop :=
  s.device.pc = .run ∧ s.device.claimed = true ∧ s.device.claimedSender = client ∧
    ∃ call ∈ s.nextCall, call.method = .release ∧ call.sender = client

/-- A signal says that the client has disconnected. -/
def Message.tellsEnd (client : Client) : Message → Bool
  | .nameOwnerChanged args => args.tail.take 2 = [client, []]
  | .call _ => false

/-- The next turn of the device handles a signal that the client has disconnected. -/
def Disconnects (s : System) (client : Client) : Prop :=
  s.device.pc = .run ∧ ∃ message ∈ s.device.messages.head?, message.tellsEnd client = true

instance (s : System) : Decidable (OpensGate s) := inferInstanceAs (Decidable (_ ∧ _))

instance (s : System) (client : Client) : Decidable (Releases s client) :=
  inferInstanceAs (Decidable (_ ∧ _))

instance (s : System) (client : Client) : Decidable (Disconnects s client) :=
  inferInstanceAs (Decidable (_ ∧ _))

theorem nextCall_eq_some {s : System} {call : Call} :
    s.nextCall = some call ↔ ∃ rest, s.device.messages = .call call :: rest := by
  unfold System.nextCall
  cases s.device.messages with
  | nil => simp
  | cons message rest => cases message <;> simp [Message.caller]

theorem Message.tellsEnd_iff {client : Client} {message : Message} :
    message.tellsEnd client = true ↔
      ∃ name more, message = .nameOwnerChanged (name :: client :: [] :: more) := by
  cases message with
  | call c => simp [Message.tellsEnd]
  | nameOwnerChanged args =>
      rcases args with _ | ⟨name, _ | ⟨old, _ | ⟨new, more⟩⟩⟩ <;> simp [Message.tellsEnd]

/-- A client drops its authorizations when it releases the device and when it disconnects. -/
theorem drops_iff {s : System} {client : Client} :
    Drops s client ↔ Releases s client ∨ Disconnects s client := by
  constructor
  · rintro (⟨hpc, hmsg, hmethod, hclaimed, hclaimer, hcaller⟩ | ⟨hpc, hmsg⟩)
    · refine Or.inl ⟨hpc, hclaimed, hclaimer.trans hcaller, _, nextCall_eq_some.2 ⟨_, hmsg⟩,
        hmethod, hcaller⟩
    · refine Or.inr ⟨hpc, _, by rw [hmsg]; rfl, Message.tellsEnd_iff.2 ⟨_, _, rfl⟩⟩
  · rintro (⟨hpc, hclaimed, hclaimer, call, hcall, hmethod, hcaller⟩ | ⟨hpc, message, hmsg, hends⟩)
    · obtain ⟨rest, hmsg⟩ := nextCall_eq_some.1 hcall
      exact .released hpc hmsg hmethod hclaimed (hclaimer.trans hcaller.symm) hcaller
    · obtain ⟨name, more, rfl⟩ := Message.tellsEnd_iff.1 hends
      obtain ⟨rest, hrest⟩ := List.head?_eq_some_iff.1 hmsg
      exact .disconnected hpc hrest

instance (s : System) (client : Client) : Decidable (Drops s client) :=
  decidable_of_iff _ drops_iff.symm

/-- What a turn of the device does to the calls on their way. -/
inductive CallTurn (s s' : System) : Prop
  | waited {handled : Multiset Key} : s.device.pc ≠ .run →
      s'.device.messages = s.device.messages → s'.device.authGates = s.device.authGates →
        s'.gates = s.gates → (∀ call, s'.device.pc ≠ .checkUid call) →
          handledKeys s'.log = handled + handledKeys s.log → handled ≤ s.device.pc.keys →
            CallTurn s s'
  | taken {message : Message} : s.device.pc = .run →
      s.device.messages = message :: s'.device.messages →
        s'.device.authGates = s.device.authGates → s'.gates = s.gates →
          (∀ call, s'.device.pc = .checkUid call →
            message = .call call ∧ call.method.gated = false) →
              handledKeys s'.log = handledKeys s.log → CallTurn s s'
  | spent {call : Call} {gate : AuthGate} {handled : Multiset Key} : s.device.pc = .run →
      s.device.messages = .call call :: s'.device.messages →
        (call.key, gate) ∈ s.device.authGates →
          s'.device.authGates = (s.device.authGates.filter fun entry => entry.1 ≠ call.key) →
            s'.gates = s.gates →
              (∀ c, s'.device.pc = .checkUid c → c = call ∧ gate.state = .authorized) →
                handledKeys s'.log = handled + handledKeys s.log → handled ≤ {call.key} →
                  (gate.state ≠ .authorized → handled = 0) → CallTurn s s'
  | opened {call : Call} : OpensGate s → s.device.messages = .call call :: s'.device.messages →
      call.method.gated = true → (∀ entry ∈ s.device.authGates, entry.1 ≠ call.key) →
        s'.device.authGates = (s.device.authGates.filter fun entry => entry.2.state ≠ .finished) ++
          [(call.key, ⟨s.nextTask, call.sender, .pending⟩)] →
            s'.gates = s.gates ++ [⟨s.nextTask, call, .sendCheck⟩] → s'.device.pc = .run →
              handledKeys s'.log = handledKeys s.log → CallTurn s s'
  | dropped {sender : Client} {message : Message} : Drops s sender →
      s.device.messages = message :: s'.device.messages →
        s'.device.authGates = (dropAuthGates s sender).device.authGates →
          s'.gates = (dropAuthGates s sender).gates → (∀ call, s'.device.pc ≠ .checkUid call) →
            handledKeys s'.log = handledKeys s.log → CallTurn s s'

section Device

variable {env : Environment} {s s' t : System}

theorem Answered.messages {answer : Option Call} (ha : Answered answer t s') :
    s'.device.messages = t.device.messages := by rw [ha.device]

theorem Answered.authGates {answer : Option Call} (ha : Answered answer t s') :
    s'.device.authGates = t.device.authGates := by rw [ha.device]

/-- The turn in which the device takes a message. -/
theorem stepDevice_message {input : DeviceInput} {message : Message} {rest : List Message}
    (hpc : s.device.pc = .run) (hmsg : s.device.messages = message :: rest) :
    stepDevice env s input = some (handleMessage env input.disk (s.popMessage rest) message) := by
  unfold stepDevice
  rw [hpc]
  dsimp only
  rw [hmsg]
  rfl

/-- A call that needs an authorization goes to the check for it. -/
theorem handleMessage_gated {disk : Disk} {call : Call} (hgated : call.method.gated = true) :
    handleMessage env disk s (.call call) = checkPolkit env disk s call := by
  unfold handleMessage
  dsimp only
  revert hgated
  cases call.method <;> simp [Method.gated]

/-- A turn of the device does not end it. -/
theorem DeviceTurn.alive_eq (hturn : DeviceTurn env s s') :
    s'.device.alive = s.device.alive := by
  have hset : ∀ {answer : Option Call} {t : System}, Answered answer t s' →
      t.device.alive = s.device.alive → s'.device.alive = s.device.alive :=
    fun ha halive => (congrArg Device.alive ha.device).trans halive
  cases hturn with
  | sent _ ha | stopSent _ ha | skipped _ _ ha | dropped _ _ _ _ ha | unchecked _ ha
  | unnamed _ _ ha | listed _ _ ha | deletedAll _ _ _ ha | claimed _ _ _ ha => exact hset ha rfl
  | gateCreated _ _ _ _ => rfl
  | asked _ ht _ => exact (congrArg (fun t => t.device.alive) ht.eq).trans rfl
  | rejected _ ht ha => exact hset ha (by rw [ht.eq])
  | @served call t _ _ ht _ _ _ ha =>
      have hlive : (t.reachGated call).device.alive = s.device.alive := by
        rw [reachGated_device, ht.eq]
      rcases ha with ha | ha
      · exact hset ha hlive
      · exact hset ha hlive
  | @started call t _ name isVerify _ ht _ _ _ _ ha =>
      refine hset ha ?_
      show (t.reachGated call).device.alive = _
      rw [reachGated_device, ht.eq]
  | @released call t _ _ ht _ _ _ ha =>
      obtain ⟨u, hu, -, -, -, -, -, -, hlive, -⟩ := releaseBy_fields t call.sender
      refine hset ha ?_
      rw [hu]
      exact hlive.trans (by rw [ht.eq])
  | @disconnected _ old _ rest _ _ _ ha =>
      obtain ⟨u, hu, -, -, -, -, -, -, hlive, -⟩ := disconnect_fields (s.popMessage rest) old
      refine hset ha ?_
      rw [hu]
      exact hlive

/-- A handler has been reached behind the check for the uid, or nothing was going on. -/
theorem Answered.waited {answer : Option Call} {handled : Multiset Key} (ha : Answered answer t s')
    (hpc : s.device.pc ≠ .run) (hmessages : t.device.messages = s.device.messages)
    (hauth : t.device.authGates = s.device.authGates) (hgates : t.gates = s.gates)
    (hhandled : handledKeys t.log = handled + handledKeys s.log)
    (hle : handled ≤ s.device.pc.keys) : CallTurn s s' :=
  .waited hpc (ha.messages.trans hmessages) (ha.authGates.trans hauth) (ha.gates.trans hgates)
    ha.moved (ha.toQuiet.handled_eq.trans hhandled) hle

/-- A call that was admitted reaches its handler, or is answered before. -/
theorem Admitted.callTurn {call : Call} {handled : Multiset Key} (ht : Admitted s call t)
    (hpc : s.device.pc = .run) (hmessages : s'.device.messages = t.device.messages)
    (hauth : s'.device.authGates = t.device.authGates) (hgates : s'.gates = s.gates)
    (hchecking : ∀ c, s'.device.pc = .checkUid c → c = call)
    (hhandled : handledKeys s'.log = handled + handledKeys s.log) (hle : handled ≤ {call.key})
    (hfree : call.method.gated = false → handled = 0) : CallTurn s s' := by
  cases ht with
  | @free rest hmsg hgated =>
      have hrest : s'.device.messages = rest := hmessages
      have hnext : s.device.messages = .call call :: s'.device.messages := by rw [hmsg, hrest]
      refine .taken hpc hnext hauth hgates (fun c hc => ?_) ?_
      · obtain rfl := hchecking c hc
        exact ⟨rfl, hgated⟩
      · rw [hhandled, hfree hgated, zero_add]
  | @authorized rest gate hmsg hgated hmem hstate =>
      have hrest : s'.device.messages = rest := hmessages
      have hnext : s.device.messages = .call call :: s'.device.messages := by rw [hmsg, hrest]
      exact .spent hpc hnext hmem hauth hgates (fun c hc => ⟨hchecking c hc, hstate⟩) hhandled hle
        fun hnot => absurd hstate hnot

/-- A call that has come to its handler and is answered. -/
theorem Admitted.reachedTurn {call : Call} {u : System} (ht : Admitted s call t)
    (hpc : s.device.pc = .run) (ha : Answered (some call) u s')
    (hmessages : u.device.messages = (t.reachGated call).device.messages)
    (hauth : u.device.authGates = (t.reachGated call).device.authGates)
    (hgates : u.gates = (t.reachGated call).gates)
    (hlog : handledKeys u.log = handledKeys (t.reachGated call).log) : CallTurn s s' := by
  obtain ⟨handled, hle, hhandled, hfree⟩ := reachGated_handles t call
  have hdevice := reachGated_device t call
  have hsame : (t.reachGated call).gates = s.gates := by rw [reachGated_gates, ht.eq]
  rw [hdevice] at hmessages hauth
  rw [ht.log] at hhandled
  exact ht.callTurn hpc (ha.messages.trans hmessages) (ha.authGates.trans hauth)
    (ha.gates.trans (hgates.trans hsame)) (fun c hc => absurd hc (ha.moved c))
    (ha.toQuiet.handled_eq.trans (hlog.trans hhandled)) hle hfree

theorem dropAuthGates_eq (hauth : t.device.authGates = s.device.authGates)
    (hgates : t.gates = s.gates) (sender : Client) :
    (dropAuthGates t sender).device.authGates = (dropAuthGates s sender).device.authGates ∧
      (dropAuthGates t sender).gates = (dropAuthGates s sender).gates := by
  unfold dropAuthGates
  dsimp only
  rw [hauth, hgates]
  exact ⟨rfl, rfl⟩

/-- The next message is no call that is refused because another client has claimed the device. -/
def Unrefused (s : System) : Prop :=
  ∀ call rest, s.device.pc = .run → s.device.messages = .call call :: rest →
    call.method.gated = true → (∀ gate, (call.key, gate) ∉ s.device.authGates) →
      s.device.claimed = true → s.device.claimedSender = call.sender

theorem DeviceTurn.callTurn (hturn : DeviceTurn env s s') (hopens : Unrefused s) :
    CallTurn s s' := by
  cases hturn with
  | @sent next _ hpc ha =>
      exact ha.waited (by rw [hpc]; nofun) rfl rfl rfl (zero_add _).symm (Multiset.zero_le _)
  | stopSent hpc ha =>
      exact ha.waited (by rw [hpc]; nofun) rfl rfl rfl (zero_add _).symm (Multiset.zero_le _)
  | @skipped message rest _ hpc hmsg ha =>
      have hnext : s.device.messages = message :: s'.device.messages := by
        rw [hmsg, ha.messages]
        rfl
      exact .taken hpc hnext ha.authGates ha.gates (fun c hc => absurd hc (ha.moved c))
        ha.toQuiet.handled_eq
  | @dropped call gate rest _ hpc hmsg hmem hstate ha =>
      have hmessages : s'.device.messages = rest := ha.messages
      refine .spent hpc (by rw [hmsg, hmessages]) hmem ha.authGates ha.gates
        (fun c hc => absurd hc (ha.moved c)) (ha.toQuiet.handled_eq.trans (zero_add _).symm)
        (Multiset.zero_le _) fun _ => rfl
  | @gateCreated call rest hpc hmsg hgated hnew =>
      have hnone : ∀ entry ∈ s.device.authGates, entry.1 ≠ call.key := fun entry hmem hkey =>
        hnew entry.2 (hkey ▸ hmem)
      exact .opened ⟨hpc, call, nextCall_eq_some.2 ⟨rest, hmsg⟩, hgated, hnone,
        hopens call rest hpc hmsg hgated hnew⟩ hmsg hgated hnone rfl rfl rfl rfl
  | @asked call t hpc ht _ =>
      refine ht.callTurn hpc rfl rfl (by rw [ht.eq]; rfl) (fun c hc => ?_)
        (show handledKeys t.log = 0 + _ by rw [ht.log, zero_add]) (Multiset.zero_le _) fun _ => rfl
      exact (DevicePc.checkUid.inj hc).symm
  | @rejected call t _ hpc ht ha =>
      exact ht.callTurn hpc ha.messages ha.authGates (ha.gates.trans (by rw [ht.eq]))
        (fun c hc => absurd hc (ha.moved c))
        (ha.toQuiet.handled_eq.trans (by rw [ht.log, zero_add])) (Multiset.zero_le _) fun _ => rfl
  | @unchecked call _ hpc ha =>
      exact ha.waited (by rw [hpc]; nofun) rfl rfl rfl (zero_add _).symm (Multiset.zero_le _)
  | @unnamed call _ hpc _ ha =>
      exact ha.waited (by rw [hpc]; nofun) rfl rfl rfl (zero_add _).symm (Multiset.zero_le _)
  | @listed call user _ hpc _ ha =>
      exact ha.waited (by rw [hpc]; nofun) rfl rfl rfl (handledKeys_cons _ _) (Multiset.zero_le _)
  | @deletedAll call user _ hpc _ _ ha =>
      refine ha.waited (by rw [hpc]; nofun) rfl rfl rfl
        ((handledKeys_cons _ _).trans ((zero_add _).trans (handledKeys_cons _ _))) ?_
      rw [hpc]
      exact le_rfl
  | @claimed call user _ hpc _ _ ha =>
      exact ha.waited (by rw [hpc]; nofun) rfl rfl rfl (zero_add _).symm (Multiset.zero_le _)
  | @served call t _ hpc ht _ _ _ ha =>
      rcases ha with ha | ha
      · exact ht.reachedTurn hpc ha rfl rfl rfl rfl
      · exact ht.reachedTurn hpc ha rfl rfl rfl ((handledKeys_cons _ _).trans (zero_add _))
  | @started call t _ name isVerify hpc ht _ _ _ _ ha =>
      exact ht.reachedTurn hpc ha rfl rfl rfl ((handledKeys_cons _ _).trans (zero_add _))
  | @released call t _ hpc ht hclaimed hsender hmethod ha =>
      cases ht with
      | authorized _ hgated _ _ => exact absurd hgated (by rw [hmethod]; simp [Method.gated])
      | @free rest hmsg _ =>
          obtain ⟨u, hu, hauth, hmessages, -, hgates, hlog, -⟩ :=
            releaseBy_fields (s.popMessage rest) call.sender
          obtain ⟨hsameAuth, hsameGates⟩ := dropAuthGates_eq (s := s) hauth hgates call.sender
          rw [hu] at ha
          have hnext : s.device.messages = .call call :: s'.device.messages := by
            rw [hmsg, ha.messages]
            exact congrArg _ hmessages.symm
          exact .dropped (.released hpc hmsg hmethod hclaimed hsender rfl) hnext
            (ha.authGates.trans hsameAuth) (ha.gates.trans hsameGates) ha.moved
            (ha.toQuiet.handled_eq.trans ((dropAuthGates_handled u _).trans (by rw [hlog]; rfl)))
  | @disconnected name old more rest _ hpc hmsg ha =>
      obtain ⟨u, hu, hauth, hmessages, -, hgates, hlog, -⟩ :=
        disconnect_fields (s.popMessage rest) old
      obtain ⟨hsameAuth, hsameGates⟩ := dropAuthGates_eq (s := s) hauth hgates old
      rw [hu] at ha
      have hnext : s.device.messages =
          .nameOwnerChanged (name :: old :: [] :: more) :: s'.device.messages := by
        rw [hmsg, ha.messages]
        exact congrArg _ hmessages.symm
      exact .dropped (.disconnected hpc hmsg) hnext (ha.authGates.trans hsameAuth)
        (ha.gates.trans hsameGates) ha.moved
        (ha.toQuiet.handled_eq.trans ((dropAuthGates_handled u _).trans (by rw [hlog]; rfl)))

/-- A call of a client other than the claimer is answered, and no gate is created. -/
theorem stepDevice_refused {input : DeviceInput} {call : Call} {rest : List Message}
    (hstep : stepDevice env s input = some s') (hpc : s.device.pc = .run)
    (hmsg : s.device.messages = .call call :: rest) (hgated : call.method.gated = true)
    (hnew : ∀ gate, (call.key, gate) ∉ s.device.authGates) (hclaimed : s.device.claimed = true)
    (hother : s.device.claimedSender ≠ call.sender) :
    Answered (some call) (s.popMessage rest) s' := by
  have hfind : (s.popMessage rest).device.authGates.find? (fun entry => entry.1 = call.key) =
      none := by
    refine List.find?_eq_none.2 fun entry hmem hkey => hnew entry.2 ?_
    have hkey : entry.1 = call.key := by simpa using hkey
    rw [← hkey]
    exact hmem
  have hpolkit : checkPolkit env input.disk (s.popMessage rest) call = replyTo (s.popMessage rest)
      call (.error "net.reactivated.Fprint.Error.AlreadyInUse" "device already in use") := by
    unfold checkPolkit
    rw [hfind]
    dsimp only
    exact if_pos (Bool.and_eq_true_iff.2 ⟨hclaimed, decide_eq_true hother⟩)
  rw [stepDevice_message hpc hmsg, handleMessage_gated hgated, hpolkit] at hstep
  obtain rfl := Option.some.inj hstep
  exact replyTo_answered _ call _

/-- **A turn of the device makes one of these changes.** -/
theorem stepDevice_callTurn {input : DeviceInput} (hstep : stepDevice env s input = some s') :
    CallTurn s s' := by
  by_cases hopens : Unrefused s
  · exact (stepDevice_turn hstep).callTurn hopens
  · obtain ⟨call, hopens⟩ := not_forall.1 hopens
    simp only [not_forall] at hopens
    obtain ⟨rest, hpc, hmsg, hgated, hnew, hclaimed, hother⟩ := hopens
    have ha := stepDevice_refused hstep hpc hmsg hgated hnew hclaimed hother
    have hnext : s.device.messages = .call call :: s'.device.messages := by
      rw [hmsg, ha.messages]
      rfl
    exact .taken hpc hnext ha.authGates ha.gates (fun c hc => absurd hc (ha.moved c))
      ha.toQuiet.handled_eq

/-- What is left of the authorizations when those of a sender are dropped: those of others, and
finished ones that had been granted. -/
theorem kept_or_finished {sender : Client} {entry : Key × AuthGate}
    (hmem : entry ∈ (dropAuthGates s sender).device.authGates) :
    (entry ∈ s.device.authGates ∧ entry.2.sender ≠ sender) ∨
      (entry.2.state = .finished ∧ entry.2.sender = sender ∧
        (entry.1, { entry.2 with state := .authorized }) ∈ s.device.authGates) := by
  obtain ⟨old, hold, rfl⟩ := List.mem_map.1 hmem
  obtain ⟨hold, hkept⟩ := List.mem_filter.1 hold
  split
  · rename_i hsender
    have hstate : old.2.state = .authorized := by simpa [hsender] using hkept
    refine Or.inr ⟨rfl, hsender, ?_⟩
    rw [← hstate]
    exact hold
  · rename_i hsender
    exact Or.inl ⟨hold, hsender⟩

/-- A release by the claimer is always handled. -/
theorem stepDevice_releases {client : Client} {input : DeviceInput} (hreleases : Releases s client)
    (hstep : stepDevice env s input = some s') :
    ∃ call rest, s.device.messages = .call call :: rest ∧
      Answered (some call) ((s.popMessage rest).releaseBy client) s' := by
  obtain ⟨hpc, hclaimed, hclaimer, call, hcall, hmethod, hsender⟩ := hreleases
  obtain ⟨rest, hmsg⟩ := nextCall_eq_some.1 hcall
  have hturn : handleMessage env input.disk (s.popMessage rest) (.call call) =
      releaseDevice (s.popMessage rest) call := by
    unfold handleMessage checkSender
    dsimp only
    rw [hmethod]
    simp [System.popMessage, hclaimed, hclaimer, hsender]
  rw [stepDevice_message hpc hmsg, hturn] at hstep
  obtain rfl := Option.some.inj hstep
  refine ⟨call, rest, hmsg, ?_⟩
  rw [← hsender]
  exact replyTo_answered _ call _

/-- The end of a connection is always handled. -/
theorem stepDevice_disconnects {client : Client} {input : DeviceInput}
    (hends : Disconnects s client) (hstep : stepDevice env s input = some s') :
    ∃ message rest, s.device.messages = message :: rest ∧
      Answered none ((s.popMessage rest).disconnect client) s' := by
  obtain ⟨hpc, message, hhead, htells⟩ := hends
  obtain ⟨name, more, rfl⟩ := Message.tellsEnd_iff.1 htells
  obtain ⟨rest, hmsg⟩ := List.head?_eq_some_iff.1 hhead
  refine ⟨_, rest, hmsg, ?_⟩
  have hturn : handleMessage env input.disk (s.popMessage rest)
      (.nameOwnerChanged (name :: client :: [] :: more)) =
        { (s.popMessage rest).disconnect client with
          device := { ((s.popMessage rest).disconnect client).device with
            pc := .sending .run } } := by
    show nameOwnerChanged (s.popMessage rest) (name :: client :: [] :: more) = _
    unfold nameOwnerChanged
    dsimp only
    rw [if_pos rfl]
    rfl
  rw [stepDevice_message hpc hmsg, hturn] at hstep
  obtain rfl := Option.some.inj hstep
  exact sending_answered _ .run

/-- Both drop the authorizations of the client and give up the claim. -/
theorem stepDevice_drops {sender : Client} {input : DeviceInput} (hdrops : Drops s sender)
    (hstep : stepDevice env s input = some s') :
    s'.device.authGates = (dropAuthGates s sender).device.authGates ∧
      s'.gates = (dropAuthGates s sender).gates ∧ s'.device.claimed = false ∧
        ∀ call, s'.device.pc ≠ .checkUid call := by
  rcases drops_iff.1 hdrops with hreleases | hends
  · obtain ⟨call, rest, -, ha⟩ := stepDevice_releases hreleases hstep
    obtain ⟨t, ht, hauth, -, -, hgates, -⟩ := releaseBy_fields (s.popMessage rest) sender
    obtain ⟨hsameAuth, hsameGates⟩ := dropAuthGates_eq (s := s) hauth hgates sender
    rw [ht] at ha
    exact ⟨ha.authGates.trans hsameAuth, ha.gates.trans hsameGates, by rw [ha.device]; rfl,
      ha.moved⟩
  · obtain ⟨message, rest, -, ha⟩ := stepDevice_disconnects hends hstep
    obtain ⟨t, ht, hauth, -, -, hgates, -⟩ := disconnect_fields (s.popMessage rest) sender
    obtain ⟨hsameAuth, hsameGates⟩ := dropAuthGates_eq (s := s) hauth hgates sender
    rw [ht] at ha
    exact ⟨ha.authGates.trans hsameAuth, ha.gates.trans hsameGates, by rw [ha.device]; rfl,
      ha.moved⟩

end Device

/-! ### Gates -/

/-- What a turn of a gate does to the calls on their way. -/
inductive GateTurn (s : System) (gate : PolkitGate) (s' : System) : Prop
  | moved : s'.device = s.device → s'.log = s.log →
      (∀ g' ∈ s'.gates, ∃ g ∈ s.gates, g.call = g'.call ∧ (g'.pc ≠ .denying → g.pc ≠ .denying)) →
        GateTurn s gate s'
  | granted : gate.pc = .waiting →
      s'.device.messages = s.device.messages ++ [.call gate.call] →
        s'.device.authGates = (resolveGate s gate.call.key .authorized).device.authGates →
          s'.device.pc = s.device.pc → (∀ g' ∈ s'.gates, g' ∈ s.gates) →
            handledKeys s'.log = handledKeys s.log → GateTurn s gate s'
  | denied : gate.pc = .waiting → s'.device.messages = s.device.messages →
      s'.device.authGates = (resolveGate s gate.call.key .finished).device.authGates →
        s'.device.pc = s.device.pc →
          (∀ g' ∈ s'.gates, g' ∈ s.gates ∨ g'.pc = .denying) →
            handledKeys s'.log = handledKeys s.log → gate.call.key ∈ repliedKeys s'.log →
              GateTurn s gate s'

/-- **A turn of a gate makes one of these changes.** -/
theorem stepGate_turn {s : System} {gate : PolkitGate} (hmem : gate ∈ s.gates)
    (reply : PolkitReply) : GateTurn s gate (stepGate s gate reply) := by
  unfold stepGate
  cases hpc : gate.pc with
  | sendCheck =>
      refine .moved rfl rfl fun g' hg' => ?_
      obtain ⟨g, hg, rfl⟩ := List.mem_map.1 hg'
      split
      · exact ⟨gate, hmem, rfl, fun _ => by rw [hpc]; nofun⟩
      · exact ⟨g, hg, rfl, id⟩
  | denying =>
      exact .moved rfl rfl fun g' hg' => ⟨g', List.mem_of_mem_filter hg', rfl, id⟩
  | waiting =>
      dsimp only
      unfold checkDone
      split
      · refine .granted hpc rfl rfl rfl (fun g' hg' => List.mem_of_mem_filter hg') ?_
        exact (handledKeys_cons _ _).trans (zero_add _)
      · refine .denied hpc rfl rfl rfl (fun g' hg' => ?_) ?_ ?_
        · obtain ⟨g, hg, rfl⟩ := List.mem_map.1 hg'
          split
          · exact Or.inr rfl
          · exact Or.inl hg
        · exact (handledKeys_cons _ _).trans (zero_add _)
        · exact (repliedKeys_cons _ _).symm ▸ Multiset.mem_add.2 (Or.inl (by
            simp [LogEntry.repliedKey]))

/-! ### A call that waits for polkit -/

/-- A client claims the device and asks for a finger to be deleted. -/
def deleteParked : List Action :=
  bootActions ++ callActions ":1.1" 1 .claim (some "") ++
    [.call ⟨ascii ":1.1", 2, .deleteEnrolledFinger, some (ascii "left-thumb")⟩, smoothDevice]

end Fpc
