/-
**Records are used on behalf of their user only.**

The uid of a client is checked when it names a user; what follows later, in other handlers and in
operations, relies on the claim and on the copy of the user an operation holds.  Both stay tied to
the checked identity.

Main definitions:

* `Fpc.Permitted` — claim, operations and past accesses are by clients that may act for the user.

Main results:

* `Fpc.Permitted.step` — every step keeps it;
* `Fpc.accesses_permitted` — **every access in a run is on behalf of root or of the user**.
-/

import FpcReader.Daemon.TaskTurns
import FpcReader.Storage.Atomicity

set_option relaxedAutoImplicit false
set_option autoImplicit false

namespace Fpc

open Bytes

/-! ### The invariant -/

/-- The claimer, the client of every operation and the client of every access so far may act for
the user concerned. -/
structure Permitted (env : Environment) (s : System) : Prop where
  claim : s.device.claimed = true → env.MayAct s.device.claimedSender s.device.claimedUser
  operations : ∀ op ∈ s.operations, env.MayAct op.client op.user
  accesses : ∀ user client, .accessed user client ∈ s.log → env.MayAct client user

section Steps

variable {env : Environment} {s s' t : System}

theorem Quiet.permitted (hq : Quiet s s') (h : Permitted env s) : Permitted env s' where
  claim := by
    rw [hq.device]
    exact h.claim
  operations := by
    rw [hq.operations]
    exact h.operations
  accesses user client hmem := h.accesses user client ((hq.mem_log id).1 hmem)

/-- Entries that are no accesses can be added. -/
theorem Permitted.record (h : Permitted env s) {entry : LogEntry}
    (hentry : ∀ user client, entry ≠ .accessed user client) : Permitted env (s.record entry) where
  claim := h.claim
  operations := h.operations
  accesses user client hmem := by
    rcases List.mem_cons.1 hmem with heq | hmem
    · exact absurd heq.symm (hentry user client)
    · exact h.accesses user client hmem

theorem Permitted.access (h : Permitted env s) {user : Name} {client : Client}
    (hact : env.MayAct client user) : Permitted env (s.access user client) where
  claim := h.claim
  operations := h.operations
  accesses user' client' hmem := by
    rcases List.mem_cons.1 hmem with heq | hmem
    · obtain ⟨rfl, rfl⟩ := LogEntry.accessed.inj heq
      exact hact
    · exact h.accesses user' client' hmem

theorem Permitted.reachGated (h : Permitted env s) (call : Call) :
    Permitted env (s.reachGated call) := by
  unfold System.reachGated
  split
  · exact h.record fun _ _ => nofun
  · exact h

/-- Replacing an operation by one of the same client and user. -/
theorem Permitted.setOperation (h : Permitted env s) {op : EnrollVerify}
    (hact : env.MayAct op.client op.user) : Permitted env (s.setOperation op) where
  claim := h.claim
  operations := by
    intro o hmem
    obtain ⟨o', hmem', rfl⟩ := List.mem_map.1 hmem
    split
    · exact hact
    · exact h.operations o' hmem'
  accesses := h.accesses

/-- Operations may end, claims may be given up, and the rest of the device may change. -/
theorem Permitted.shrink (h : Permitted env s)
    (hclaim : s'.device.claimed = true → s'.device.claimed = s.device.claimed ∧
      s'.device.claimedSender = s.device.claimedSender ∧
        s'.device.claimedUser = s.device.claimedUser)
    (hops : ∀ op ∈ s'.operations, op ∈ s.operations)
    (hlog : ∀ user client, .accessed user client ∈ s'.log → .accessed user client ∈ s.log) :
    Permitted env s' where
  claim hc := by
    obtain ⟨hclaimed, hsender, huser⟩ := hclaim hc
    rw [hsender, huser]
    exact h.claim (hclaimed ▸ hc)
  operations op hmem := h.operations op (hops op hmem)
  accesses user client hmem := h.accesses user client (hlog user client hmem)

end Steps

/-! ### Taking things down -/

theorem cancelOperation_operations (s : System) (id : ℕ) :
    ∀ op ∈ (s.cancelOperation id).operations, op ∈ s.operations := by
  intro op hmem
  unfold System.cancelOperation at hmem
  split at hmem
  · exact hmem
  · exact List.mem_of_mem_filter hmem

theorem cancelOperation_log (s : System) (id : ℕ) : (s.cancelOperation id).log = s.log := by
  unfold System.cancelOperation
  split <;> rfl

theorem cancelOperation_device (s : System) (id : ℕ) :
    (s.cancelOperation id).device = s.device := by
  unfold System.cancelOperation
  split <;> rfl

theorem cancelEnrollVerify_operations (s : System) :
    ∀ op ∈ (cancelEnrollVerify s).operations, op ∈ s.operations := by
  unfold cancelEnrollVerify
  split
  · exact fun _ hmem => hmem
  · exact cancelOperation_operations s _

theorem cancelEnrollVerify_log (s : System) : (cancelEnrollVerify s).log = s.log := by
  unfold cancelEnrollVerify
  split
  · rfl
  · exact cancelOperation_log s _

theorem cancelEnrollVerify_device (s : System) :
    (cancelEnrollVerify s).device = { s.device with enrollVerifyTask := none } := by
  unfold cancelEnrollVerify
  split
  · rename_i htask
    rw [← htask]
  · dsimp only
    rw [cancelOperation_device]

theorem resumeNameOwnerChanged_device (s : System) :
    (resumeNameOwnerChanged s).device = { s.device with nameOwnerChangedTask := none } := by
  unfold resumeNameOwnerChanged
  split
  · rename_i htask
    rw [← htask]
  · rfl

theorem resumeNameOwnerChanged_operations (s : System) :
    (resumeNameOwnerChanged s).operations = s.operations := by
  unfold resumeNameOwnerChanged
  split <;> rfl

theorem resumeNameOwnerChanged_log (s : System) : (resumeNameOwnerChanged s).log = s.log := by
  unfold resumeNameOwnerChanged
  split <;> rfl

/-- Dropping authorizations adds only withdrawals to the log. -/
theorem mem_dropAuthGates_log {s : System} {sender : Client} {entry : LogEntry}
    (hentry : ¬entry.Sent) : entry ∈ (dropAuthGates s sender).log ↔ entry ∈ s.log := by
  unfold dropAuthGates
  dsimp only
  rw [List.mem_append]
  refine or_iff_right fun hmem => ?_
  obtain ⟨gate, -, rfl⟩ := List.mem_map.1 hmem
  exact hentry trivial

theorem cancelDevice_operations (s : System) :
    ∀ op ∈ (cancelDevice s).operations, op ∈ s.operations := by
  intro op hmem
  have hmem : op ∈ (resumeNameOwnerChanged (cancelEnrollVerify s)).operations := hmem
  rw [resumeNameOwnerChanged_operations] at hmem
  exact cancelEnrollVerify_operations s op hmem

theorem cancelDevice_log (s : System) : (cancelDevice s).log = s.log :=
  (resumeNameOwnerChanged_log _).trans (cancelEnrollVerify_log s)

theorem finishControl_operations (s : System) :
    ∀ op ∈ (finishControl s).operations, op ∈ s.operations := by
  intro op hmem
  unfold finishControl cleanupDevice at hmem
  dsimp only at hmem
  split at hmem
  · exact cancelDevice_operations (System.setStorage { s with power := false }
      { s.storage with readerReady := false }) op hmem
  · exact hmem

theorem finishControl_log (s : System) : (finishControl s).log = s.log := by
  unfold finishControl cleanupDevice
  dsimp only
  split
  · exact cancelDevice_log _
  · rfl

theorem finishControl_device (s : System) :
    (finishControl s).device = if s.device.alive then Device.initial else s.device := by
  unfold finishControl cleanupDevice
  dsimp only [System.setStorage]
  cases s.device.alive <;> rfl

section Invariant

variable {env : Environment} {s s' t : System}

theorem Permitted.admitted (h : Permitted env s) {call : Call} (ht : Admitted s call t) :
    Permitted env t := by
  rw [ht.eq]
  exact ⟨h.claim, h.operations, h.accesses⟩

theorem Permitted.releaseBy (h : Permitted env s) (sender : Client) :
    Permitted env (s.releaseBy sender) := by
  refine h.shrink nofun (fun op hmem => ?_) fun user client hmem => ?_
  · rw [← resumeNameOwnerChanged_operations]
    exact cancelEnrollVerify_operations _ op hmem
  · rw [← resumeNameOwnerChanged_log, ← cancelEnrollVerify_log]
    exact (mem_dropAuthGates_log id).1 hmem

theorem Permitted.disconnect (h : Permitted env s) (oldOwner : Client) :
    Permitted env (s.disconnect oldOwner) := by
  refine h.shrink nofun (fun op hmem => ?_) fun user client hmem => ?_
  · unfold System.disconnect at hmem
    split at hmem
    · exact hmem
    · exact cancelEnrollVerify_operations s op hmem
  · have hmem := (mem_dropAuthGates_log id).1 hmem
    split at hmem
    · exact hmem
    · rw [← cancelEnrollVerify_log]
      exact hmem

theorem Permitted.deviceTurn (h : Permitted env s) (hturn : DeviceTurn env s s') :
    Permitted env s' := by
  cases hturn with
  | sent _ ha => exact ha.toQuiet.permitted h
  | stopSent _ ha => exact ha.toQuiet.permitted ⟨h.claim, h.operations, h.accesses⟩
  | skipped _ _ ha => exact ha.toQuiet.permitted ⟨h.claim, h.operations, h.accesses⟩
  | dropped _ _ _ _ ha => exact ha.toQuiet.permitted ⟨h.claim, h.operations, h.accesses⟩
  | gateCreated _ _ _ _ => exact ⟨h.claim, h.operations, h.accesses⟩
  | asked _ ht _ =>
      have h := h.admitted ht
      exact ⟨h.claim, h.operations, h.accesses⟩
  | rejected _ ht ha => exact ha.toQuiet.permitted (h.admitted ht)
  | unchecked _ ha => exact ha.toQuiet.permitted h
  | unnamed _ _ ha => exact ha.toQuiet.permitted h
  | listed _ hact ha => exact ha.toQuiet.permitted (h.access hact)
  | deletedAll _ _ hact ha =>
      refine ha.toQuiet.permitted (Permitted.access (Permitted.record h ?_) hact)
      exact fun _ _ => nofun
  | @claimed call user _ _ hact _ ha =>
      have hclaim : Permitted env (s.claimBy call user) :=
        ⟨fun _ => hact, h.operations, h.accesses⟩
      exact ha.toQuiet.permitted hclaim
  | @served call t _ _ ht hclaimed hsender _ ha =>
      have hreach := (h.admitted ht).reachGated call
      have hact : env.MayAct call.sender s.device.claimedUser := hsender ▸ h.claim hclaimed
      rcases ha with ha | ha
      · exact ha.toQuiet.permitted hreach
      · exact ha.toQuiet.permitted (hreach.access hact)
  | @started call t _ name isVerify _ ht hclaimed hsender _ _ ha =>
      have hact : env.MayAct call.sender s.device.claimedUser := hsender ▸ h.claim hclaimed
      have huser : t.device.claimedUser = s.device.claimedUser := by rw [ht.eq]
      have hbase := ((h.admitted ht).reachGated call).access hact
      have hdevice : ((t.reachGated call).access s.device.claimedUser call.sender).device =
          t.device := by
        unfold System.reachGated
        split <;> rfl
      refine ha.toQuiet.permitted ⟨hbase.claim, fun op hmem => ?_, hbase.accesses⟩
      rcases List.mem_append.1 hmem with hmem | hmem
      · exact hbase.operations op hmem
      · obtain rfl := List.mem_singleton.1 hmem
        show env.MayAct call.sender
          ((t.reachGated call).access s.device.claimedUser call.sender).device.claimedUser
        rw [hdevice, huser]
        exact hact
  | @released call t _ _ ht _ _ _ ha =>
      exact ha.toQuiet.permitted ((h.admitted ht).releaseBy call.sender)
  | @disconnected name old more rest _ _ _ ha =>
      have hpop : Permitted env (s.popMessage rest) := ⟨h.claim, h.operations, h.accesses⟩
      exact ha.toQuiet.permitted (hpop.disconnect old)

theorem Permitted.operationTurn (h : Permitted env s) {op : EnrollVerify}
    (hmem : op ∈ s.operations) (hturn : OperationTurn s op s') : Permitted env s' := by
  have hact := h.operations op hmem
  cases hturn with
  | entered _ =>
      refine Permitted.setOperation ?_ hact
      exact ⟨h.claim, h.operations, h.accesses⟩
  | armed _ => exact h.setOperation hact
  | skipped _ _ _ => exact ⟨h.claim, h.operations, h.accesses⟩
  | @accepted _ _ requested rest t _ _ _ _ _ huse =>
      have hbase : Permitted env (System.record { s with imageQueue := rest }
          (.accepted op.id op.generation requested)) :=
        Permitted.record (s := { s with imageQueue := rest })
          ⟨h.claim, h.operations, h.accesses⟩ (by simp)
      have ht : Permitted env t := by
        rcases huse with hq | hq
        · exact hq.quiet.permitted hbase
        · exact hq.quiet.permitted (hbase.access hact)
      refine Permitted.setOperation (Permitted.record ht ?_) hact
      exact fun _ _ => nofun
  | stopped _ _ =>
      refine Permitted.setOperation ?_ hact
      exact ⟨h.claim, h.operations, h.accesses⟩
  | failed _ _ =>
      refine Permitted.setOperation (Permitted.record ?_ ?_) hact
      · exact ⟨h.claim, h.operations, h.accesses⟩
      · exact fun _ _ => nofun
  | next _ =>
      refine Permitted.setOperation ?_ hact
      exact ⟨h.claim, h.operations, h.accesses⟩
  | ended _ =>
      refine Permitted.setOperation ?_ hact
      exact ⟨h.claim, h.operations, h.accesses⟩
  | finished _ =>
      exact ⟨h.claim, fun o ho => h.operations o (List.mem_of_mem_filter ho), h.accesses⟩

theorem Shared.permitted (hs : Shared s s') (h : Permitted env s) : Permitted env s' := by
  refine h.shrink (fun _ => ?_) (fun op hmem => ?_) fun user client hmem => ?_
  · rw [hs.device]
    exact ⟨rfl, rfl, rfl⟩
  · rwa [← hs.operations]
  · rwa [← hs.log]

theorem Permitted.finishControl (h : Permitted env s) : Permitted env (finishControl s) := by
  refine h.shrink (fun hc => ?_) (fun op hmem => finishControl_operations s op hmem)
    fun user client hmem => ?_
  · have hdevice := finishControl_device s
    rw [hdevice] at hc ⊢
    split at hc
    · exact absurd hc nofun
    · rename_i halive
      rw [if_neg halive]
      exact ⟨rfl, rfl, rfl⟩
  · rwa [finishControl_log] at hmem

/-- What the control task has fetched. -/
theorem Permitted.fetched (h : Permitted env s) {event : Option FPCEvent}
    (hf : Fetched s event t) : Permitted env t := by
  cases hf with
  | waited _ => exact h
  | event _ _ => exact ⟨h.claim, h.operations, h.accesses⟩

theorem tlsReady_permitted {env' : Environment} (h : Permitted env t)
    (hready : tlsReady env' t = some s') : Permitted env s' := by
  unfold tlsReady at hready
  split at hready
  · exact absurd hready nofun
  · obtain rfl := Option.some.inj hready
    refine h.shrink (fun hc => ?_) (fun _ hmem => hmem) fun _ _ hmem => hmem
    dsimp only [System.transferThen, System.setControl] at hc ⊢
    cases halive : t.device.alive with
    | true => exact ⟨rfl, rfl, rfl⟩
    | false => exact absurd (halive ▸ hc) nofun

theorem Permitted.controlTurn (h : Permitted env s) {input : ControlInput}
    (hturn : ControlTurn s input s') : Permitted env s' := by
  cases hturn with
  | steady hf _ _ _ _ hs => exact hs.toShared.permitted (h.fetched hf)
  | asked hf _ _ _ _ hs =>
      have h := h.fetched hf
      exact hs.toShared.permitted ⟨h.claim, h.operations, h.accesses⟩
  | ignored hf hs => exact hs.toShared.permitted (h.fetched hf)
  | armed hf _ _ _ hs =>
      have h := h.fetched hf
      exact hs.toShared.permitted ⟨h.claim, h.operations, h.accesses⟩
  | touched hf hs =>
      have h := h.fetched hf
      exact hs.toShared.permitted ⟨h.claim, h.operations, h.accesses⟩
  | handed hf _ _ hs =>
      have h := h.fetched hf
      exact hs.toShared.permitted ⟨h.claim, h.operations, h.accesses⟩
  | told hf _ _ hs =>
      have h := h.fetched hf
      exact hs.toShared.permitted ⟨h.claim, h.operations, h.accesses⟩
  | cleaned hf _ hs =>
      have h := h.fetched hf
      exact hs.toShared.permitted ⟨h.claim, h.operations, h.accesses⟩
  | cleanedUp hf _ hs =>
      have h := h.fetched hf
      exact (hs.permitted ⟨h.claim, h.operations, h.accesses⟩).finishControl
  | gaveUp hf _ => exact (h.fetched hf).finishControl
  | ready hf hready => exact tlsReady_permitted (h.fetched hf) hready

theorem Permitted.gateTurn (h : Permitted env s) (gate : PolkitGate) (reply : PolkitReply) :
    Permitted env (stepGate s gate reply) := by
  unfold stepGate
  cases gate.pc with
  | sendCheck => exact ⟨h.claim, h.operations, h.accesses⟩
  | denying => exact ⟨h.claim, h.operations, h.accesses⟩
  | waiting =>
      dsimp only
      unfold checkDone
      split
      · have hgranted : Permitted env (s.record (.granted gate.call.key)) := h.record (by simp)
        exact ⟨hgranted.claim, hgranted.operations, hgranted.accesses⟩
      · refine h.shrink (fun _ => ⟨rfl, rfl, rfl⟩) (fun _ hmem => hmem) fun user client hmem => ?_
        exact (List.mem_cons.1 hmem).resolve_left nofun

theorem Permitted.listenTurn (h : Permitted env s) {listen : Listen} {success : Bool}
    (hturn : stepListen s listen success = some s') : Permitted env s' := by
  have hset : ∀ l, Permitted env (setListen s l) := fun _ =>
    ⟨h.claim, h.operations, h.accesses⟩
  have hfinish : Permitted env (finishListen s listen) := ⟨h.claim, h.operations, h.accesses⟩
  unfold stepListen at hturn
  split at hturn
  · exact Option.some.inj hturn ▸ hset _
  · obtain rfl := Option.some.inj hturn
    split
    · exact hset _
    · exact hfinish
  · split at hturn
    · exact Option.some.inj hturn ▸ hset _
    · exact absurd hturn nofun
  · exact Option.some.inj hturn ▸ hfinish

/-- Every step keeps the invariant. -/
theorem Permitted.step (h : Permitted env s) {action : Action}
    (hstep : step env s action = some s') : Permitted env s' := by
  cases step_turn hstep with
  | device _ hturn => exact h.deviceTurn hturn
  | gate _ _ => exact h.gateTurn _ _
  | listen _ hturn => exact h.listenTurn hturn
  | operation hmem hturn => exact h.operationTurn hmem hturn
  | control _ hturn => exact h.controlTurn hturn
  | rawDropped _ => exact h
  | _ => exact ⟨h.claim, h.operations, h.accesses⟩

theorem Permitted.start (hs : Started s) : Permitted env s := by
  obtain ⟨handle, file, rfl⟩ := hs
  exact ⟨nofun, nofun, nofun⟩

end Invariant

/-- **Every access in a run is on behalf of root or of the user**, and so are the claim and the
operations. -/
theorem accesses_permitted {env : Environment} {s : System}
    (h : Transition.Reachable (step env) Started s) :
    (s.device.claimed = true → env.MayAct s.device.claimedSender s.device.claimedUser) ∧
      (∀ op ∈ s.operations, env.MayAct op.client op.user) ∧
        ∀ user client, .accessed user client ∈ s.log → env.MayAct client user := by
  have hinv : Permitted env s :=
    Transition.Reaches.invariant (fun _ => Permitted.start)
      (fun _ hinv _ hstep => hinv.step hstep) h
  exact ⟨hinv.claim, hinv.operations, hinv.accesses⟩

/-! ### A claimed device -/

/-- Two accounts; a bus on which clients 1 and 2 run as the first and everyone else as root. -/
def homeEnvironment : Environment where
  cipher := plainCipher
  database := ascii "fpc9201-native.bin"
  uidOf client := if client = ascii ":1.1" ∨ client = ascii ":1.2" then 1000 else 0
  getpwuid uid := if uid = 1000 then some (ascii "anna") else if uid = 0 then some (ascii "root")
    else none

/-- Transfers succeed and the reader answers as it should. -/
def smoothControl : Action :=
  .control ⟨true, false, false, false, .opened, .supported, some (List.replicate 32 7)⟩

def smoothDevice : Action := .device ⟨true, Disk.sound (Vector.replicate 12 1)⟩

/-- A session is established and the device created. -/
def bootActions : List Action :=
  [smoothControl, smoothControl, smoothControl, smoothControl,
    .rawFrame (.initResult (some ⟨1, 0x0111, 112, 88⟩)), smoothControl, smoothControl,
    smoothControl, .tlsReady, smoothControl, smoothControl]

/-- A client makes a call, and the device deals with it in three turns. -/
def callActions (client : String) (serial : ℕ) (method : Method) (argument : Option String) :
    List Action :=
  [.call ⟨ascii client, serial, method, argument.map ascii⟩, smoothDevice, smoothDevice,
    smoothDevice]

/-- The daemon after the given actions. -/
def homeRun (actions : List Action) : Option System :=
  Transition.run (step homeEnvironment) (.start true none) actions

theorem homeRun_reachable {actions : List Action} {s : System} (h : homeRun actions = some s) :
    Transition.Reachable (step homeEnvironment) Started s :=
  Transition.reaches_of_run ⟨true, none, rfl⟩ h

/-- The same, when every step meets a condition. -/
def homeChecked (ok : System → Action → Prop) [∀ s a, Decidable (ok s a)] (actions : List Action) :
    Option System :=
  Transition.checkedRun (step homeEnvironment) ok (.start true none) actions

theorem homeChecked_reaches {ok : System → Action → Prop} [∀ s a, Decidable (ok s a)]
    {actions : List Action} {s : System} (h : homeChecked ok actions = some s) :
    Transition.Reaches (step homeEnvironment) ok Started s :=
  Transition.reaches_of_checkedRun (.start ⟨true, none, rfl⟩) h

/-- A client claims the device for its own account and verifies a finger of that account. -/
theorem accesses_permitted_claim :
    ∃ s, homeRun (bootActions ++ callActions ":1.1" 1 .claim (some "") ++
        callActions ":1.1" 2 .verifyStart (some "any")) = some s ∧
      s.device.claimed = true ∧ s.operations.length = 1 ∧
      .accessed (ascii "anna") (ascii ":1.1") ∈ s.log ∧
        homeEnvironment.MayAct s.device.claimedSender s.device.claimedUser ∧
        (∀ op ∈ s.operations, homeEnvironment.MayAct op.client op.user) ∧
        homeEnvironment.MayAct (ascii ":1.1") (ascii "anna") := by
  obtain ⟨s, hs, hclaimed, hoperation, haccess⟩ : ∃ s,
      homeRun (bootActions ++ callActions ":1.1" 1 .claim (some "") ++
        callActions ":1.1" 2 .verifyStart (some "any")) = some s ∧ s.device.claimed = true ∧
          s.operations.length = 1 ∧ .accessed (ascii "anna") (ascii ":1.1") ∈ s.log :=
    ⟨_, rfl, rfl, rfl, by decide⟩
  obtain ⟨hclaim, hoperations, haccesses⟩ := accesses_permitted (homeRun_reachable hs)
  exact ⟨s, hs, hclaimed, hoperation, haccess, hclaim hclaimed, hoperations,
    haccesses _ _ haccess⟩

end Fpc
