/-
**The watch over a claim.**

A claim is recorded when the bus has told the uid of its sender; only then does the listener of the
claim ask the bus for signals about the sender.  The bus sends a signal about a client that
disconnects only when it has processed such a request before.  Nothing looks again whether the
sender is still there, so a sender that disconnects in between keeps its claim.

Main definitions:

* `Fpc.Bus`, `Fpc.busStep` — the daemon together with the part of the bus it relies on;
* `Fpc.Claims` — a client holds the claim, or its claim has passed the check for the uid;
* `Fpc.Dropping` — a message that drops the claim is queued or on its way;
* `Fpc.Watched` — a client that holds the claim is watched when it disconnects.

Main results:

* `Fpc.Dropping.step` — the message stays until it is handled;
* `Fpc.claim_dropped` — **a claim of a client that has disconnected is going to be dropped**, if the
  client was watched;
* `Fpc.claim_dropped_early` — it is not when the client disconnects too early.
-/

import FpcReader.Daemon.SessionTurns

set_option relaxedAutoImplicit false
set_option autoImplicit false

namespace Fpc

open Bytes

/-! ### The bus -/

/-- The daemon and the bus: the clients that have disconnected, the match rules of the listeners,
whether the uid that the device asks for has been found, and the signals about disconnected clients
on their way to the daemon. -/
structure Bus where
  daemon : System
  gone : List Client
  rules : List (ℕ × Client)
  uidKnown : Bool
  inFlight : List Client

/-- What can happen: a step of the daemon or of its surroundings, the bus answers the question for
the uid, adds or removes the match rule of a listener, a client disconnects, and a signal reaches a
filter or none. -/
inductive BusAction where
  | daemon (action : Action)
  | answerUid
  | addMatch (id : ℕ)
  | removeMatch (id : ℕ)
  | disconnect (client : Client)
  | deliver (id : ℕ)
  | lose

/-- The steps of the daemon that the bus lets happen: a client that has disconnected makes no calls,
a uid is known only when the bus has found it, and a match rule has been added only when the bus has
done so.  Signals go through the bus. -/
def Bus.allows (b : Bus) : Action → Bool
  | .call call => call.sender ∉ b.gone
  | .device input => !input.uidKnown || b.uidKnown
  | .listen id success => !success || b.rules.any fun rule => rule.1 = id
  | .nameOwnerChanged _ _ => false
  | _ => true

/-- What the bus says when a client has disconnected. -/
def goneArgs (client : Client) : List Name := [client, client, []]

def busStep (env : Environment) (b : Bus) : BusAction → Option Bus
  | .daemon action =>
      if b.allows action then
        (step env b.daemon action).map fun s =>
          { b with
            daemon := s
            uidKnown := b.uidKnown && decide (s.device.pc = b.daemon.device.pc) }
      else none
  | .answerUid =>
      match b.daemon.device.pc with
      | .checkUid call =>
          if b.uidKnown then none else some { b with uidKnown := decide (call.sender ∉ b.gone) }
      | _ => none
  | .addMatch id =>
      match b.daemon.listens.find? fun listen => listen.id = id with
      | none => none
      | some listen =>
          if listen.pc = .adding ∧ ∀ rule ∈ b.rules, rule.1 ≠ id then
            some { b with rules := (id, listen.arg0) :: b.rules }
          else none
  | .removeMatch id =>
      if ∀ listen ∈ b.daemon.listens, listen.id = id → listen.pc = .removing then
        some { b with rules := b.rules.filter fun rule => rule.1 ≠ id }
      else none
  | .disconnect client =>
      if client ∈ b.gone then none
      else
        some { b with
          gone := client :: b.gone
          inFlight := if b.rules.any fun rule => rule.2 = client then b.inFlight ++ [client]
            else b.inFlight }
  | .deliver id =>
      match b.inFlight with
      | [] => none
      | client :: rest =>
          (filterSignal b.daemon id (goneArgs client)).map fun s =>
            { b with daemon := s, inFlight := rest }
  | .lose =>
      match b.inFlight with
      | [] => none
      | client :: rest =>
          if b.daemon.device.alive ∧ ∃ listen ∈ b.daemon.listens, listen.forwards (goneArgs client)
          then none
          else some { b with inFlight := rest }

/-- The daemon starts on a bus that knows nothing of it. -/
def BusStarted (b : Bus) : Prop :=
  Started b.daemon ∧ b = ⟨b.daemon, [], [], false, []⟩

/-! ### Claims and what drops them -/

/-- The client whose claim waits for its uid. -/
def DevicePc.claimer : DevicePc → Option Client
  | .checkUid call => if call.method = .claim then some call.sender else none
  | _ => none

/-- The client holds the claim, or its claim has passed the check for the uid. -/
def Claims (b : Bus) (client : Client) : Prop :=
  (b.daemon.device.claimed = true ∧ b.daemon.device.claimedSender = client) ∨
    (b.daemon.device.claimed = false ∧ b.uidKnown = true ∧
      b.daemon.device.pc.claimer = some client)

/-- Handling the message drops a claim of the client. -/
def Message.dropsClaim (client : Client) : Message → Bool
  | .call c => c.method = .release ∧ c.sender = client
  | .nameOwnerChanged args => args[2]? = some []

/-- A message that drops a claim of the client is queued. -/
def DropQueued (b : Bus) (client : Client) : Prop :=
  ∃ message ∈ b.daemon.device.messages, message.dropsClaim client = true

/-- A message that drops a claim of the client is queued, or a signal is on its way. -/
def Dropping (b : Bus) (client : Client) : Prop := DropQueued b client ∨ client ∈ b.inFlight

/-- A client that claims the device is watched: when it disconnects, the bus has a match rule for it
or its claim is about to be dropped, and the signal finds a filter or is not needed. -/
def Watched (b : Bus) : BusAction → Prop
  | .disconnect client => Claims b client → Dropping b client ∨ ∃ rule ∈ b.rules, rule.2 = client
  | .lose => ∀ client ∈ b.inFlight.head?, Claims b client → DropQueued b client
  | _ => True

instance (b : Bus) (client : Client) : Decidable (Claims b client) :=
  inferInstanceAs (Decidable (_ ∨ _))

instance (b : Bus) (client : Client) : Decidable (DropQueued b client) :=
  inferInstanceAs (Decidable (∃ message ∈ b.daemon.device.messages, _ = _))

instance (b : Bus) (client : Client) : Decidable (Dropping b client) :=
  inferInstanceAs (Decidable (_ ∨ _))

instance : ∀ b action, Decidable (Watched b action)
  | _, .disconnect _ => inferInstanceAs (Decidable (_ → _))
  | b, .lose => inferInstanceAs (Decidable (∀ client ∈ b.inFlight.head?, _))
  | _, .daemon _ | _, .answerUid | _, .addMatch _ | _, .removeMatch _ | _, .deliver _ =>
      isTrue trivial

/-- The claims of clients that have disconnected are going to be dropped. -/
def Watching (b : Bus) : Prop := ∀ client, Claims b client → client ∈ b.gone → Dropping b client

/-! ### Turns of the device -/

section Device

variable {env : Environment} {s s' : System} {client : Client}

theorem dropsClaim_iff {args : List Name} :
    (Message.nameOwnerChanged args).dropsClaim client = true ↔
      ∃ old, (Message.nameOwnerChanged args).tellsEnd old = true := by
  rcases args with _ | ⟨name, _ | ⟨old, _ | ⟨new, more⟩⟩⟩ <;>
    simp [Message.dropsClaim, Message.tellsEnd]

/-- A message that drops the claim of the client drops it when its turn comes. -/
theorem stepDevice_unclaims {input : DeviceInput} {message : Message} {rest : List Message}
    (hpc : s.device.pc = .run) (hmsg : s.device.messages = message :: rest)
    (hdrops : message.dropsClaim client = true) (hclaimed : s.device.claimed = true)
    (hclaimer : s.device.claimedSender = client)
    (hstep : stepDevice env s input = some s') : s'.device.claimed = false := by
  have hsome : ∃ sender, Drops s sender := by
    cases message with
    | call c =>
        simp only [Message.dropsClaim, decide_eq_true_eq] at hdrops
        obtain ⟨hmethod, hsender⟩ := hdrops
        exact ⟨client, .released hpc hmsg hmethod hclaimed (hclaimer.trans hsender.symm) hsender⟩
    | nameOwnerChanged args =>
        obtain ⟨old, hends⟩ := dropsClaim_iff.1 hdrops
        exact ⟨old, drops_iff.2 (Or.inr ⟨hpc, _, by rw [hmsg]; rfl, hends⟩)⟩
  obtain ⟨sender, hsender⟩ := hsome
  exact (stepDevice_drops hsender hstep).2.2.1

/-- A client claims the device only by its call, when its uid has been found. -/
theorem checkUid_claims {input : DeviceInput} {call : Call} (hfree : s.device.claimed = false)
    (hclaimed : (checkUid env input s call).device.claimed = true) :
    input.uidKnown = true ∧ call.method = .claim := by
  have hreply : ∀ reply, (replyTo s call reply).device.claimed ≠ true := fun _ => by
    show s.device.claimed ≠ true
    simp [hfree]
  unfold checkUid at hclaimed
  split at hclaimed
  · exact absurd hclaimed (hreply _)
  · rename_i hknown
    refine ⟨by simpa using hknown, ?_⟩
    by_contra hother
    -- the other calls leave the claim alone
    have hchecked : ∀ username,
        (uidChecked env input.disk s call username).device.claimed ≠ true := by
      intro username
      unfold uidChecked
      cases hm : call.method with
      | claim => exact absurd hm hother
      | listEnrolledFingers =>
          dsimp only
          rw [(listEnrolledFingers_answered s call username).device]
          exact hreply .methodReturn
      | deleteEnrolledFingers =>
          dsimp only
          rw [(deleteEnrolledFingers_answered env input.disk s call username).device]
          exact hreply .methodReturn
      | _ => exact hreply .methodReturn
    cases hargument : call.argument with
    | none =>
        rw [hargument] at hclaimed
        exact absurd hclaimed (hreply _)
    | some argument =>
        rw [hargument] at hclaimed
        cases haccount : env.getpwuid (env.uidOf call.sender) with
        | none =>
            rw [haccount] at hclaimed
            exact absurd hclaimed (hreply _)
        | some account =>
            rw [haccount] at hclaimed
            dsimp only at hclaimed
            generalize (if argument = [] then account else argument) = username at hclaimed
            by_cases hdenied : account ≠ username ∧ env.uidOf call.sender ≠ 0
            · rw [if_pos hdenied] at hclaimed
              exact absurd hclaimed (hreply _)
            · rw [if_neg hdenied] at hclaimed
              exact absurd hclaimed (hchecked username)

/-- What a turn of the device does to claims: a claim that is there afterwards was there before,
with the messages that drop it, or it has just been made. -/
theorem stepDevice_claims {input : DeviceInput} (hstep : stepDevice env s input = some s')
    (hclaimed : s'.device.claimed = true) :
    (s.device.claimed = true ∧ s.device.claimedSender = s'.device.claimedSender ∧
      ∀ message ∈ s.device.messages, message.dropsClaim s'.device.claimedSender = true →
        message ∈ s'.device.messages) ∨
    (s.device.claimed = false ∧ input.uidKnown = true ∧
      s.device.pc.claimer = some s'.device.claimedSender ∧
        s'.device.messages = s.device.messages) := by
  have hkept : s.device.claimed = true → s.device.claimedSender = s'.device.claimedSender →
      s.device.claimed = true ∧ s.device.claimedSender = s'.device.claimedSender ∧
        ∀ message ∈ s.device.messages, message.dropsClaim s'.device.claimedSender = true →
          message ∈ s'.device.messages := by
    intro hbefore hsame
    refine ⟨hbefore, hsame, fun message hmem hdrops => ?_⟩
    -- the message that was taken did not drop the claim
    have htaken : ∀ m rest, s.device.pc = .run → s.device.messages = m :: rest →
        rest = s'.device.messages → message ∈ s'.device.messages := by
      rintro m rest hpc hmsg rfl
      rw [hmsg] at hmem
      rcases List.mem_cons.1 hmem with rfl | hmem
      · have hfree := stepDevice_unclaims hpc hmsg hdrops hbefore hsame hstep
        exact absurd hclaimed (by simp [hfree])
      · exact hmem
    cases stepDevice_callTurn hstep with
    | waited _ hmessages _ _ _ _ _ => exact hmessages ▸ hmem
    | taken hpc hmsg _ _ _ _ => exact htaken _ _ hpc hmsg rfl
    | spent hpc hmsg _ _ _ _ _ _ _ => exact htaken _ _ hpc hmsg rfl
    | opened hopens hmsg _ _ _ _ _ _ => exact htaken _ _ hopens.1 hmsg rfl
    | dropped hdropped hmsg _ _ _ _ =>
        have hpc : s.device.pc = .run := by cases hdropped <;> assumption
        exact htaken _ _ hpc hmsg rfl
  cases (stepDevice_turn hstep).sessionTurn with
  | same hs | stopLeft _ hs | started _ _ _ _ hs =>
      have hdevice := hs.device
      refine Or.inl (hkept ?_ ?_)
      · rw [hdevice] at hclaimed
        exact hclaimed
      · exact (congrArg Device.claimedSender hdevice).symm
  | @claimed call user hpc hfree hs =>
      refine Or.inr ⟨hfree, ?_⟩
      have hsender : s'.device.claimedSender = call.sender := by
        rw [hs.device]
        rfl
      have hrun : stepDevice env s input = some (checkUid env input s call) := by
        unfold stepDevice
        rw [hpc]
      rw [hrun] at hstep
      obtain rfl := Option.some.inj hstep
      obtain ⟨hknown, hmethod⟩ := checkUid_claims hfree hclaimed
      refine ⟨hknown, ?_, ?_⟩
      · rw [hpc, hsender]
        exact if_pos hmethod
      · cases stepDevice_callTurn hrun with
        | waited _ hmessages _ _ _ _ _ => exact hmessages
        | taken hrun _ _ _ _ _ | spent hrun _ _ _ _ _ _ _ _ => simp [hpc] at hrun
        | opened hopens _ _ _ _ _ _ _ => exact absurd (hpc.symm.trans hopens.1) nofun
        | dropped hdropped _ _ _ _ _ =>
            have hrun : s.device.pc = .run := by cases hdropped <;> assumption
            simp [hpc] at hrun
  | released _ hs | disconnected _ hs =>
      have hdevice := hs.device
      rw [hdevice] at hclaimed
      exact absurd hclaimed nofun

end Device

/-! ### Steps of the daemon -/

section Daemon

variable {env : Environment} {s s' : System}

/-- A step is a turn of the device, or it keeps the claim and the messages, or the device is new or
gone. -/
theorem step_device_cases {action : Action} (hstep : step env s action = some s') :
    (∃ input, action = .device input ∧ stepDevice env s input = some s') ∨
      (s'.device.claimed = s.device.claimed ∧
        s'.device.claimedSender = s.device.claimedSender ∧ s'.device.pc = s.device.pc ∧
          ∀ message ∈ s.device.messages, message ∈ s'.device.messages) ∨
      (s'.device.claimed = false ∧ s'.device.pc = .run) := by
  rcases step_session hstep with ⟨input, haction, -, hturn⟩ | ⟨hdevice, more, hmore⟩ | hdevice |
    ⟨-, hdevice⟩
  · exact Or.inl ⟨input, haction, hturn⟩
  · refine Or.inr (Or.inl ⟨by rw [hdevice], by rw [hdevice], by rw [hdevice], fun _ hmem => ?_⟩)
    rw [hmore]
    exact List.mem_append_left _ hmem
  · exact Or.inr (Or.inr ⟨by rw [hdevice]; rfl, by rw [hdevice]; rfl⟩)
  · exact Or.inr (Or.inr ⟨by rw [hdevice]; rfl, by rw [hdevice]; rfl⟩)

/-- A client that claims the device after a step of the daemon did so before, and the messages that
drop the claim are still there. -/
theorem Claims.daemon {b : Bus} {action : Action} {client : Client}
    (hallowed : b.allows action = true) (hstep : step env b.daemon action = some s')
    (h : Claims { b with
      daemon := s'
      uidKnown := b.uidKnown && decide (s'.device.pc = b.daemon.device.pc) } client) :
    Claims b client ∧ ∀ message ∈ b.daemon.device.messages,
      message.dropsClaim client = true → message ∈ s'.device.messages := by
  rcases step_device_cases hstep with ⟨input, rfl, hrun⟩ | ⟨hclaimed, hsender, hpc, hmessages⟩ |
    ⟨hfree, hpc⟩
  · rcases h with ⟨hclaimed, rfl⟩ | ⟨-, hknown, hclaimer⟩
    · rcases stepDevice_claims hrun hclaimed with
        ⟨hbefore, hsame, hkept⟩ | ⟨hfree, hknown, hclaimer, hmessages⟩
      · exact ⟨Or.inl ⟨hbefore, hsame⟩, hkept⟩
      · -- the claim has just been made: the bus had found the uid
        refine ⟨Or.inr ⟨hfree, ?_, hclaimer⟩, fun message hmem _ => hmessages ▸ hmem⟩
        simpa [Bus.allows, hknown] using hallowed
    · -- a device that waits for a uid goes on with its turn
      obtain ⟨-, hpc⟩ := Bool.and_eq_true_iff.1 hknown
      have hpc : s'.device.pc = b.daemon.device.pc := of_decide_eq_true hpc
      have hasked : ∃ call, s'.device.pc = .checkUid call := by
        dsimp only at hclaimer
        unfold DevicePc.claimer at hclaimer
        split at hclaimer
        · rename_i call heq
          exact ⟨call, heq⟩
        · exact absurd hclaimer nofun
      obtain ⟨call, hasked⟩ := hasked
      cases stepDevice_callTurn hrun with
      | waited _ _ _ _ hmoved _ _ | dropped _ _ _ _ hmoved _ => exact absurd hasked (hmoved call)
      | taken hrunning _ _ _ _ _ | spent hrunning _ _ _ _ _ _ _ _ =>
          exact absurd (hrunning.symm.trans (hpc.symm.trans hasked)) nofun
      | opened hopens _ _ _ _ _ _ _ =>
          exact absurd (hopens.1.symm.trans (hpc.symm.trans hasked)) nofun
  · refine ⟨?_, fun message hmem _ => hmessages message hmem⟩
    rcases h with ⟨hheld, hheldBy⟩ | ⟨hfree, hknown, hclaimer⟩
    · exact Or.inl ⟨hclaimed.symm.trans hheld, hsender.symm.trans hheldBy⟩
    · refine Or.inr ⟨hclaimed.symm.trans hfree, (Bool.and_eq_true_iff.1 hknown).1, ?_⟩
      rw [← hpc]
      exact hclaimer
  · rcases h with ⟨hheld, -⟩ | ⟨-, -, hclaimer⟩
    · exact absurd (hfree.symm.trans hheld) nofun
    · dsimp only at hclaimer
      rw [hpc] at hclaimer
      exact absurd hclaimer nofun

end Daemon

/-! ### Steps of the bus -/

section Steps

variable {env : Environment} {b b' : Bus}

/-- A sender whose uid is found is still there. -/
theorem Watching.answered (h : Watching b) {call : Call}
    (hpc : b.daemon.device.pc = .checkUid call) :
    Watching { b with uidKnown := decide (call.sender ∉ b.gone) } := by
  intro client hclaims hgone
  rcases hclaims with hheld | ⟨-, hknown, hclaimer⟩
  · exact h client (Or.inl hheld) hgone
  · dsimp only at hclaimer hknown hgone
    rw [hpc] at hclaimer
    have hsender : call.sender = client := by
      unfold DevicePc.claimer at hclaimer
      dsimp only at hclaimer
      split at hclaimer
      · exact Option.some.inj hclaimer
      · cases hclaimer
    exact absurd hgone (hsender ▸ of_decide_eq_true hknown)

/-- A client that disconnects sends a signal to those who have a rule for it. -/
theorem Watching.disconnected (h : Watching b) {leaving : Client}
    (hwatched : Claims b leaving → Dropping b leaving ∨ ∃ rule ∈ b.rules, rule.2 = leaving) :
    Watching { b with
      gone := leaving :: b.gone
      inFlight := if b.rules.any fun rule => rule.2 = leaving then b.inFlight ++ [leaving]
        else b.inFlight } := by
  intro client hclaims hgone
  have hflies : Dropping b client → DropQueued b client ∨ client ∈
      (if b.rules.any fun rule => rule.2 = leaving then b.inFlight ++ [leaving]
        else b.inFlight) := by
    rintro (hqueued | hflight)
    · exact Or.inl hqueued
    · refine Or.inr ?_
      split
      · exact List.mem_append_left _ hflight
      · exact hflight
  rcases List.mem_cons.1 hgone with rfl | hgone
  · rcases hwatched hclaims with hdropping | ⟨rule, hmem, hrule⟩
    · exact hflies hdropping
    · refine Or.inr ?_
      dsimp only
      rw [if_pos (List.any_eq_true.2 ⟨rule, hmem, by simpa using hrule⟩)]
      exact List.mem_append_right _ (List.mem_singleton_self _)
  · exact hflies (h client hclaims hgone)

/-- A signal that is delivered is queued. -/
theorem Watching.delivered (h : Watching b) {leaving : Client} {rest : List Client}
    (hflight : b.inFlight = leaving :: rest) :
    Watching { b with
      daemon := b.daemon.putMessage (.nameOwnerChanged (goneArgs leaving))
      inFlight := rest } := by
  intro client hclaims hgone
  rcases h client hclaims hgone with ⟨message, hmem, hdrops⟩ | hmem
  · exact Or.inl ⟨message, List.mem_append_left _ hmem, hdrops⟩
  · rw [hflight] at hmem
    rcases List.mem_cons.1 hmem with rfl | hmem
    · exact Or.inl ⟨_, List.mem_append_right _ (List.mem_singleton_self _), by
        simp [Message.dropsClaim, goneArgs]⟩
    · exact Or.inr hmem

/-- A signal may be lost when a message that does its work is queued. -/
theorem Watching.lost (h : Watching b) {leaving : Client} {rest : List Client}
    (hflight : b.inFlight = leaving :: rest) (hqueued : Claims b leaving → DropQueued b leaving) :
    Watching { b with inFlight := rest } := by
  intro client hclaims hgone
  rcases h client hclaims hgone with hdrops | hmem
  · exact Or.inl hdrops
  · rw [hflight] at hmem
    rcases List.mem_cons.1 hmem with rfl | hmem
    · exact Or.inl (hqueued hclaims)
    · exact Or.inr hmem

/-- The message that drops the claim of a client that has disconnected stays until it is handled. -/
theorem Watching.step (h : Watching b) {action : BusAction} (hwatched : Watched b action)
    (hstep : busStep env b action = some b') : Watching b' := by
  cases action with
  | daemon action =>
      simp only [busStep] at hstep
      split at hstep
      · rename_i hallowed
        obtain ⟨s', hs', rfl⟩ := Option.map_eq_some_iff.1 hstep
        intro client hclaims hgone
        obtain ⟨hbefore, hkept⟩ := hclaims.daemon hallowed hs'
        rcases h client hbefore hgone with ⟨message, hmem, hdrops⟩ | hflight
        · exact Or.inl ⟨message, hkept message hmem hdrops, hdrops⟩
        · exact Or.inr hflight
      · cases hstep
  | answerUid =>
      simp only [busStep] at hstep
      split at hstep
      · rename_i call hpc
        split at hstep
        · cases hstep
        · obtain rfl := Option.some.inj hstep
          exact h.answered hpc
      · cases hstep
  | addMatch id =>
      simp only [busStep] at hstep
      split at hstep
      · cases hstep
      · split at hstep
        · obtain rfl := Option.some.inj hstep
          exact h
        · cases hstep
  | removeMatch id =>
      simp only [busStep] at hstep
      split at hstep
      · obtain rfl := Option.some.inj hstep
        exact h
      · cases hstep
  | disconnect leaving =>
      simp only [busStep] at hstep
      split at hstep
      · cases hstep
      · obtain rfl := Option.some.inj hstep
        exact h.disconnected hwatched
  | deliver id =>
      simp only [busStep] at hstep
      cases hflight : b.inFlight with
      | nil => simp [hflight] at hstep
      | cons leaving rest =>
          rw [hflight] at hstep
          obtain ⟨s', hs', rfl⟩ := Option.map_eq_some_iff.1 hstep
          obtain ⟨listen, -, -, -, rfl⟩ := filterSignal_eq_some hs'
          exact h.delivered hflight
  | lose =>
      simp only [busStep] at hstep
      cases hflight : b.inFlight with
      | nil => simp [hflight] at hstep
      | cons leaving rest =>
          rw [hflight] at hstep
          dsimp only at hstep
          split at hstep
          · cases hstep
          · obtain rfl := Option.some.inj hstep
            exact h.lost hflight (hwatched leaving (by rw [hflight]; rfl))

end Steps

/-- **A claim of a client that has disconnected is going to be dropped**, if every client that
claims the device is watched when it disconnects. -/
theorem claim_dropped {env : Environment} {b : Bus}
    (h : Transition.Reaches (busStep env) Watched BusStarted b)
    (hclaimed : b.daemon.device.claimed = true)
    (hgone : b.daemon.device.claimedSender ∈ b.gone) :
    Dropping b b.daemon.device.claimedSender := by
  have hinv : Watching b := by
    refine Transition.Reaches.invariant ?_ (fun _ hinv hok hstep => hinv.step hok hstep) h
    rintro b ⟨-, heq⟩ client - hmem
    rw [heq] at hmem
    exact absurd hmem List.not_mem_nil
  exact hinv _ (Or.inl ⟨hclaimed, rfl⟩) hgone

/-- A bus on which nothing has happened. -/
def homeBus : Bus := ⟨.start true none, [], [], false, []⟩

theorem homeBus_started : BusStarted homeBus := ⟨⟨true, none, rfl⟩, rfl⟩

/-- A client claims the device, and the bus tells its uid. -/
def claimOnBus : List BusAction :=
  bootActions.map .daemon ++
    [.daemon (.call ⟨ascii ":1.1", 1, .claim, some []⟩),
      .daemon (.device ⟨false, Disk.sound (Vector.replicate 12 1)⟩), .answerUid,
      .daemon smoothDevice]

/-- The listener of the claim asks for signals before the client disconnects. -/
def watchedEnd : List BusAction :=
  claimOnBus ++ [.daemon (.listen 0 false), .addMatch 0, .disconnect (ascii ":1.1")]

theorem claim_dropped_watched :
    ∃ b, Transition.run (busStep homeEnvironment) homeBus watchedEnd = some b ∧
      b.daemon.device.claimed = true ∧ Dropping b (ascii ":1.1") := by
  obtain ⟨b, hb, hok, hclaimed, hclaimer, hgone⟩ : ∃ b,
      Transition.run (busStep homeEnvironment) homeBus watchedEnd = some b ∧
        Transition.checkedRun (busStep homeEnvironment) Watched homeBus watchedEnd = some b ∧
          b.daemon.device.claimed = true ∧ b.daemon.device.claimedSender = ascii ":1.1" ∧
            ascii ":1.1" ∈ b.gone := ⟨_, rfl, rfl, rfl, rfl, by decide⟩
  have hdropping := claim_dropped
    (Transition.reaches_of_checkedRun (.start homeBus_started) hok) hclaimed (hclaimer ▸ hgone)
  exact ⟨b, hb, hclaimed, hclaimer ▸ hdropping⟩

/-- A client that disconnects before its listener asks for signals keeps the claim, and nothing is
going to drop it. -/
theorem claim_dropped_early :
    ¬∀ (env : Environment) (b : Bus), Transition.Reachable (busStep env) BusStarted b →
      b.daemon.device.claimed = true → b.daemon.device.claimedSender ∈ b.gone →
        Dropping b b.daemon.device.claimedSender := by
  intro hclaim
  obtain ⟨b, hb, hclaimed, hgone, hnone⟩ : ∃ b,
      Transition.run (busStep homeEnvironment) homeBus
        (claimOnBus ++ [.disconnect (ascii ":1.1")]) = some b ∧
          b.daemon.device.claimed = true ∧ b.daemon.device.claimedSender ∈ b.gone ∧
            ¬Dropping b b.daemon.device.claimedSender :=
    ⟨_, rfl, rfl, by decide, by decide⟩
  exact hnone (hclaim homeEnvironment b (Transition.reaches_of_run homeBus_started hb) hclaimed
    hgone)

end Fpc
