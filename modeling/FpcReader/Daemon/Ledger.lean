/-
**Who works on a call.**

A call waits in the queue, is parked with a gate or waits for the uid of its sender.  Together these
hold every call at most once; a turn hands a call on, answers it, or loses it, and it is known when
a call is lost.

Main definitions:

* `Fpc.System.working` — the keys of the calls being worked on;
* `Fpc.handledKeys`, `Fpc.repliedKeys` — the keys of the calls that reached a gated handler, and of
  those that were replied to;
* `Fpc.Gates` — the authorizations and the gate tasks belong together;
* `Fpc.Loses` — the ways a call is lost;
* `Fpc.Ledger` — what a turn does to the calls being worked on.
-/

import FpcReader.Daemon.Isolation
import Mathlib.Algebra.Order.Group.Multiset
import Mathlib.Tactic.Abel

set_option relaxedAutoImplicit false
set_option autoImplicit false

namespace Fpc

/-! ### Calls being worked on -/

/-- The keys of the calls in a queue. -/
def queuedKeys (messages : List Message) : Multiset Key :=
  ((messages.filterMap Message.caller).map Call.key : List Key)

/-- The keys of the calls whose gate has not been answered. -/
def parkedKeys (gates : List PolkitGate) : Multiset Key :=
  ((gates.filter fun gate => gate.pc ≠ .denying).map fun gate => gate.call.key : List Key)

/-- The key of the call whose uid is asked for. -/
def DevicePc.keys : DevicePc → Multiset Key
  | .checkUid call => {call.key}
  | _ => 0

/-- The keys of the calls being worked on. -/
def System.working (s : System) : Multiset Key :=
  queuedKeys s.device.messages + parkedKeys s.gates + s.device.pc.keys

def LogEntry.handledKey : LogEntry → Option Key
  | .handled c _ => some c.key
  | _ => none

def LogEntry.repliedKey : LogEntry → Option Key
  | .replied c _ => some c.key
  | _ => none

def handledKeys (log : List LogEntry) : Multiset Key :=
  (log.filterMap LogEntry.handledKey : List Key)

def repliedKeys (log : List LogEntry) : Multiset Key :=
  (log.filterMap LogEntry.repliedKey : List Key)

@[simp]
theorem queuedKeys_cons (message : Message) (rest : List Message) :
    queuedKeys (message :: rest) =
      (message.caller.toList.map Call.key : List Key) + queuedKeys rest := by
  cases message <;> simp [queuedKeys, Message.caller, List.filterMap_cons]

@[simp]
theorem queuedKeys_append (first second : List Message) :
    queuedKeys (first ++ second) = queuedKeys first + queuedKeys second := by
  simp [queuedKeys]

theorem handledKeys_cons (entry : LogEntry) (log : List LogEntry) :
    handledKeys (entry :: log) = (entry.handledKey.toList : List Key) + handledKeys log := by
  cases entry <;> simp [handledKeys, LogEntry.handledKey, List.filterMap_cons]

theorem repliedKeys_cons (entry : LogEntry) (log : List LogEntry) :
    repliedKeys (entry :: log) = (entry.repliedKey.toList : List Key) + repliedKeys log := by
  cases entry <;> simp [repliedKeys, LogEntry.repliedKey, List.filterMap_cons]

theorem handledKeys_append (news log : List LogEntry) :
    handledKeys (news ++ log) = handledKeys news + handledKeys log := by
  simp [handledKeys]

theorem repliedKeys_append (news log : List LogEntry) :
    repliedKeys (news ++ log) = repliedKeys news + repliedKeys log := by
  simp [repliedKeys]

/-- Sent entries handle nothing. -/
theorem handledKeys_sent {sent : List LogEntry} (h : ∀ entry ∈ sent, entry.Sent) :
    handledKeys sent = 0 := by
  have : sent.filterMap LogEntry.handledKey = [] := by
    refine List.filterMap_eq_nil_iff.2 fun entry hmem => ?_
    have := h entry hmem
    cases entry <;> first | rfl | exact this.elim
  simp [handledKeys, this]

theorem Quiet.handled_eq {s s' : System} (h : Quiet s s') :
    handledKeys s'.log = handledKeys s.log := by
  obtain ⟨sent, hlog, hsent⟩ := h.log
  rw [hlog, handledKeys_append, handledKeys_sent hsent, zero_add]

/-- The keys a handler answers. -/
def answerKeys (answer : Option Call) : Multiset Key := (answer.toList.map Call.key : List Key)

theorem Answered.replied_eq {answer : Option Call} {s s' : System} (h : Answered answer s s') :
    repliedKeys s'.log = answerKeys answer + repliedKeys s.log := by
  have hreplies := h.replies
  cases answer with
  | none => simp [answerKeys, show s'.log = s.log from hreplies]
  | some call =>
      obtain ⟨reply, hlog⟩ := hreplies
      rw [hlog, repliedKeys_cons]
      rfl

theorem DevicePc.keys_of_moved {pc : DevicePc} (h : ∀ call, pc ≠ .checkUid call) :
    pc.keys = 0 := by
  cases pc with
  | checkUid call => exact absurd rfl (h call)
  | _ => rfl

/-- The device has let go of the call it asked about. -/
theorem Answered.working {answer : Option Call} {s s' : System} (h : Answered answer s s') :
    s.working = s'.working + s.device.pc.keys := by
  rw [System.working, System.working, h.gates, DevicePc.keys_of_moved h.moved, add_zero]
  rw [show s'.device.messages = s.device.messages by rw [h.device]]

/-! ### Authorizations and gates -/

/-- The authorizations of the device and the gate tasks belong together. -/
structure Gates (s : System) : Prop where
  ids : (s.gates.map PolkitGate.id).Nodup
  gateFresh : ∀ gate ∈ s.gates, gate.id < s.nextTask
  entryFresh : ∀ entry ∈ s.device.authGates, entry.2.task < s.nextTask
  sender : ∀ entry ∈ s.device.authGates, entry.2.sender = entry.1.1
  task : ∀ entry ∈ s.device.authGates, ∀ gate ∈ s.gates, gate.id = entry.2.task →
    gate.call.key = entry.1
  pending : s.device.alive = true → ∀ gate ∈ s.gates, gate.pc ≠ .denying →
    (gate.call.key, ⟨gate.id, gate.call.sender, .pending⟩) ∈ s.device.authGates
  asking : ∀ entry ∈ s.device.authGates, entry.2.state = .pending →
    ∃ gate ∈ s.gates, gate.pc ≠ .denying ∧ gate.call.key = entry.1
  dead : s.device.alive = false → s.control.pc ≠ .finished → s.gates = []

/-- The next turn makes the device drop the authorizations of a client, because it releases the
device or has disconnected. -/
inductive Drops (s : System) (sender : Client) : Prop
  | released {call : Call} {rest : List Message} : s.device.pc = .run →
      s.device.messages = .call call :: rest → call.method = .release →
        s.device.claimed = true → s.device.claimedSender = call.sender → call.sender = sender →
          Drops s sender
  | disconnected {name : Name} {more : List Name} {rest : List Message} : s.device.pc = .run →
      s.device.messages = .nameOwnerChanged (name :: sender :: [] :: more) :: rest →
        Drops s sender

/-- The ways a call is lost: a copy of it is dropped, its gate is cancelled, the device has asked
for a uid without need, or the device ends. -/
inductive Loses (s s' : System) (key : Key) : Prop
  | dropped {call : Call} {gate : AuthGate} {rest : List Message} : s.device.pc = .run →
      s.device.messages = .call call :: rest → (call.key, gate) ∈ s.device.authGates →
        gate.state ≠ .authorized → key = call.key → Loses s s' key
  | withdrawn {gate : AuthGate} : (key, gate) ∈ s.device.authGates → gate.state = .pending →
      Drops s gate.sender → Loses s s' key
  | unnamed {call : Call} : s.device.pc = .checkUid call → call.method.namesUser = false →
      Loses s s' key
  | gone : s'.device.alive = false → Loses s s' key
  | replaced : s.device.alive = false → Loses s s' key

/-- What a turn does to the calls being worked on: some are answered, some of these have reached a
gated handler, and some are lost. -/
structure Ledger (s s' : System) (done handled lost : Multiset Key) : Prop where
  working : s.working = s'.working + done + lost
  handled_eq : handledKeys s'.log = handled + handledKeys s.log
  replied_eq : repliedKeys s'.log = done + repliedKeys s.log
  handled_le : handled ≤ done

/-! ### The device -/

theorem working_popMessage {s : System} {message : Message} {rest : List Message}
    (hmsg : s.device.messages = message :: rest) :
    s.working = (s.popMessage rest).working + answerKeys message.caller := by
  rw [System.working, hmsg, queuedKeys_cons]
  show answerKeys message.caller + queuedKeys rest + parkedKeys s.gates + s.device.pc.keys =
    queuedKeys rest + parkedKeys s.gates + s.device.pc.keys + answerKeys message.caller
  abel

/-- A call that has been taken from the queue. -/
theorem Admitted.working {s t : System} {call : Call} (ht : Admitted s call t) :
    s.working = t.working + {call.key} := by
  cases ht with
  | free hmsg _ => exact working_popMessage hmsg
  | authorized hmsg _ _ _ => exact working_popMessage hmsg

theorem Admitted.pc {s t : System} {call : Call} (ht : Admitted s call t) :
    t.device.pc = s.device.pc := by
  rw [ht.eq]

theorem Admitted.log {s t : System} {call : Call} (ht : Admitted s call t) : t.log = s.log := by
  rw [ht.eq]

theorem reachGated_device (s : System) (call : Call) : (s.reachGated call).device = s.device := by
  unfold System.reachGated
  split <;> rfl

theorem reachGated_gates (s : System) (call : Call) : (s.reachGated call).gates = s.gates := by
  unfold System.reachGated
  split <;> rfl

theorem reachGated_nextTask (s : System) (call : Call) :
    (s.reachGated call).nextTask = s.nextTask := by
  unfold System.reachGated
  split <;> rfl

theorem reachGated_working (s : System) (call : Call) :
    (s.reachGated call).working = s.working := by
  unfold System.reachGated
  split <;> rfl

/-- A handler is reached by the call at most, and only past a gate. -/
theorem reachGated_handles (s : System) (call : Call) :
    ∃ handled ≤ ({call.key} : Multiset Key),
      handledKeys (s.reachGated call).log = handled + handledKeys s.log ∧
        (call.method.gated = false → handled = 0) := by
  unfold System.reachGated
  split
  · rename_i hgated
    exact ⟨{call.key}, le_rfl, handledKeys_cons _ _, fun hfree => absurd hgated (by simp [hfree])⟩
  · exact ⟨0, Multiset.zero_le _, (zero_add _).symm, fun _ => rfl⟩

theorem reachGated_replied (s : System) (call : Call) :
    repliedKeys (s.reachGated call).log = repliedKeys s.log := by
  unfold System.reachGated
  split
  · exact (repliedKeys_cons _ _).trans (zero_add _)
  · rfl

/-- Gates that are kept and gates that are cancelled. -/
theorem parkedKeys_filter (gates : List PolkitGate) (p : PolkitGate → Bool) :
    parkedKeys gates = parkedKeys (gates.filter fun gate => !p gate) +
      parkedKeys (gates.filter p) := by
  unfold parkedKeys
  induction gates with
  | nil => rfl
  | cons gate gates ih =>
      cases hp : p gate <;> cases hpc : decide (gate.pc ≠ .denying) <;>
        simp_all [← Multiset.cons_coe, Multiset.cons_add, Multiset.add_cons]

/-- The gates that go with the authorizations of a sender. -/
def goesWith (s : System) (sender : Client) (gate : PolkitGate) : Bool :=
  (s.device.authGates.filter fun entry =>
    entry.2.sender = sender ∧ entry.2.state ≠ .authorized).any fun entry => entry.2.task = gate.id

theorem dropAuthGates_gates (s : System) (sender : Client) :
    (dropAuthGates s sender).gates = s.gates.filter fun gate => !goesWith s sender gate := rfl

theorem dropAuthGates_working (s : System) (sender : Client) :
    s.working = (dropAuthGates s sender).working +
      parkedKeys (s.gates.filter (goesWith s sender)) := by
  rw [System.working, System.working, dropAuthGates_gates,
    parkedKeys_filter s.gates (goesWith s sender)]
  show _ = queuedKeys s.device.messages + _ + s.device.pc.keys + _
  abel

theorem dropAuthGates_handled (s : System) (sender : Client) :
    handledKeys (dropAuthGates s sender).log = handledKeys s.log := by
  unfold dropAuthGates
  dsimp only
  rw [handledKeys_append, handledKeys_sent, zero_add]
  intro entry hmem
  obtain ⟨gate, -, rfl⟩ := List.mem_map.1 hmem
  trivial

theorem dropAuthGates_replied (s : System) (sender : Client) :
    repliedKeys (dropAuthGates s sender).log = repliedKeys s.log := by
  unfold dropAuthGates
  dsimp only
  rw [repliedKeys_append]
  refine (congrArg (· + _) ?_).trans (zero_add _)
  unfold repliedKeys
  refine congrArg _ (List.filterMap_eq_nil_iff.2 fun entry hmem => ?_)
  obtain ⟨gate, -, rfl⟩ := List.mem_map.1 hmem
  rfl

/-- A cancelled gate that was not answered belongs to a pending authorization of the sender. -/
theorem Gates.withdrawn {s : System} (h : Gates s) (halive : s.device.alive = true)
    {sender : Client} {key : Key}
    (hmem : key ∈ parkedKeys (s.gates.filter (goesWith s sender))) :
    ∃ gate, (key, gate) ∈ s.device.authGates ∧ gate.state = .pending ∧ gate.sender = sender := by
  obtain ⟨gate, hgate, rfl⟩ := List.mem_map.1 (Multiset.mem_coe.1 hmem)
  obtain ⟨hgate, hpc⟩ := List.mem_filter.1 hgate
  obtain ⟨hgate, hgoes⟩ := List.mem_filter.1 hgate
  obtain ⟨entry, hentry, htask⟩ := List.any_eq_true.1 hgoes
  obtain ⟨hentry, hsender⟩ := List.mem_filter.1 hentry
  simp only [decide_eq_true_eq] at hpc htask hsender
  have hkey := h.task entry hentry gate hgate htask.symm
  refine ⟨_, h.pending halive gate hgate hpc, rfl, ?_⟩
  rw [← hsender.1, h.sender entry hentry, ← hkey]
  rfl

/-- A call that is answered, with nothing lost. -/
theorem Answered.ledger {s t s' : System} {call : Call} (ha : Answered (some call) t s')
    (hworking : s.working = t.working + {call.key}) (hpc : t.device.pc.keys = 0)
    {handled : Multiset Key} (hle : handled ≤ {call.key})
    (hhandled : handledKeys t.log = handled + handledKeys s.log)
    (hreplied : repliedKeys t.log = repliedKeys s.log) : Ledger s s' {call.key} handled 0 where
  working := by rw [hworking, ha.working, hpc, add_zero, add_zero]
  handled_eq := by rw [ha.toQuiet.handled_eq, hhandled]
  replied_eq := by
    rw [ha.replied_eq, hreplied]
    rfl
  handled_le := hle

/-- Nothing is answered, and some calls may be lost. -/
theorem Answered.ledger_lost {s t s' : System} (ha : Answered none t s') {lost : Multiset Key}
    (hworking : s.working = t.working + lost) (hpc : t.device.pc.keys = 0)
    (hhandled : handledKeys t.log = handledKeys s.log)
    (hreplied : repliedKeys t.log = repliedKeys s.log) : Ledger s s' 0 0 lost where
  working := by rw [hworking, ha.working, hpc]
  handled_eq := by rw [ha.toQuiet.handled_eq, hhandled, zero_add]
  replied_eq := by rw [ha.replied_eq, hreplied]; rfl
  handled_le := le_rfl

/-- A call whose uid was asked for is answered. -/
theorem Answered.ledger_checked {s t s' : System} {call : Call} (ha : Answered (some call) t s')
    (hpc : s.device.pc = .checkUid call) (hworking : t.working = s.working)
    (hpc' : t.device.pc = s.device.pc) {handled : Multiset Key} (hle : handled ≤ {call.key})
    (hhandled : handledKeys t.log = handled + handledKeys s.log)
    (hreplied : repliedKeys t.log = repliedKeys s.log) : Ledger s s' {call.key} handled 0 where
  working := by
    rw [← hworking, ha.working, hpc', hpc, add_zero]
    rfl
  handled_eq := by rw [ha.toQuiet.handled_eq, hhandled]
  replied_eq := by
    rw [ha.replied_eq, hreplied]
    rfl
  handled_le := hle

/-- What happens to the calls in a step, apart from new ones. -/
def Accounted (s s' : System) : Prop :=
  ∃ done handled lost, Ledger s s' done handled lost ∧ ∀ key ∈ lost, Loses s s' key

theorem Ledger.accounted {s s' : System} {done handled : Multiset Key}
    (h : Ledger s s' done handled 0) : Accounted s s' :=
  ⟨done, handled, 0, h, fun _ hmem => absurd hmem (Multiset.notMem_zero _)⟩

/-- A step that leaves the queue, the gates, the device and the log alone. -/
theorem Ledger.same {s s' : System} (hworking : s'.working = s.working)
    (hlog : s'.log = s.log) : Ledger s s' 0 0 0 :=
  ⟨by rw [hworking, add_zero, add_zero], by rw [hlog, zero_add], by rw [hlog, zero_add], le_rfl⟩

theorem Accounted.same {s s' : System} (hworking : s'.working = s.working)
    (hlog : s'.log = s.log) : Accounted s s' :=
  (Ledger.same hworking hlog).accounted

theorem keys_of_run {pc : DevicePc} (h : pc = .run) : pc.keys = 0 := by rw [h]; rfl

theorem keys_of_sending {pc : DevicePc} {next : DeviceThen} (h : pc = .sending next) :
    pc.keys = 0 := by rw [h]; rfl

theorem releaseBy_fields (s : System) (sender : Client) :
    ∃ t : System, s.releaseBy sender = (dropAuthGates t sender).unclaim ∧
      t.device.authGates = s.device.authGates ∧ t.device.messages = s.device.messages ∧
        t.device.pc = s.device.pc ∧ t.gates = s.gates ∧ t.log = s.log ∧
          t.nextTask = s.nextTask ∧ t.device.alive = s.device.alive ∧ t.control = s.control := by
  refine ⟨cancelEnrollVerify (resumeNameOwnerChanged s), rfl, ?_⟩
  have hdevice := cancelEnrollVerify_device (resumeNameOwnerChanged s)
  rw [resumeNameOwnerChanged_device] at hdevice
  refine ⟨by rw [hdevice], by rw [hdevice], by rw [hdevice], ?_, ?_, ?_, by rw [hdevice], ?_⟩
  · unfold cancelEnrollVerify System.cancelOperation resumeNameOwnerChanged
    repeat' split
    all_goals rfl
  · rw [cancelEnrollVerify_log, resumeNameOwnerChanged_log]
  · unfold cancelEnrollVerify System.cancelOperation resumeNameOwnerChanged
    repeat' split
    all_goals rfl
  · unfold cancelEnrollVerify System.cancelOperation resumeNameOwnerChanged
    repeat' split
    all_goals rfl

theorem disconnect_fields (s : System) (oldOwner : Client) :
    ∃ t : System, s.disconnect oldOwner = (dropAuthGates t oldOwner).unclaim.putEvent .stopSensor ∧
      t.device.authGates = s.device.authGates ∧ t.device.messages = s.device.messages ∧
        t.device.pc = s.device.pc ∧ t.gates = s.gates ∧ t.log = s.log ∧
          t.nextTask = s.nextTask ∧ t.device.alive = s.device.alive ∧ t.control = s.control := by
  refine ⟨_, rfl, ?_⟩
  split
  · exact ⟨rfl, rfl, rfl, rfl, rfl, rfl, rfl, rfl⟩
  · have hdevice := cancelEnrollVerify_device s
    refine ⟨by rw [hdevice], by rw [hdevice], by rw [hdevice], ?_, cancelEnrollVerify_log s, ?_,
      by rw [hdevice], ?_⟩
    · show (cancelEnrollVerify s).gates = s.gates
      unfold cancelEnrollVerify System.cancelOperation
      repeat' split
      all_goals rfl
    · show (cancelEnrollVerify s).nextTask = s.nextTask
      unfold cancelEnrollVerify System.cancelOperation
      repeat' split
      all_goals rfl
    · show (cancelEnrollVerify s).control = s.control
      unfold cancelEnrollVerify System.cancelOperation
      repeat' split
      all_goals rfl

/-- Dropping the authorizations of a sender, between a state like the old one and the end. -/
theorem dropped_accounted {s t u s' : System} {sender : Client} {answer : Option Call}
    (h : Gates s) (halive : s.device.alive = true) (hdrops : Drops s sender)
    (ha : Answered answer u s')
    (hworking : s.working = t.working + answerKeys answer)
    (hauth : t.device.authGates = s.device.authGates) (htpc : t.device.pc = .run)
    (hgates : t.gates = s.gates) (hlog : t.log = s.log)
    (huworking : u.working = (dropAuthGates t sender).working)
    (hupc : u.device.pc = t.device.pc) (hulog : u.log = (dropAuthGates t sender).log) :
    Accounted s s' := by
  have hgoes : goesWith t sender = goesWith s sender := by
    funext gate
    rw [goesWith, goesWith, hauth]
  have hdropped := dropAuthGates_working t sender
  rw [hgates, hgoes, ← huworking] at hdropped
  refine ⟨answerKeys answer, 0, parkedKeys (s.gates.filter (goesWith s sender)), ?_,
    fun key hkey => ?_⟩
  · refine ⟨?_, ?_, ?_, Multiset.zero_le _⟩
    · rw [hworking, hdropped, ha.working, hupc, keys_of_run htpc]
      abel
    · rw [ha.toQuiet.handled_eq, hulog, dropAuthGates_handled, hlog, zero_add]
    · rw [ha.replied_eq, hulog, dropAuthGates_replied, hlog]
  · obtain ⟨gate, hmem, hstate, hsender⟩ := h.withdrawn halive hkey
    exact .withdrawn hmem hstate (hsender ▸ hdrops)

/-- A gate that is created takes over the call that it waits with. -/
theorem working_gateCreated {s : System} {call : Call} {rest : List Message}
    (hpc : s.device.pc = .run) (hmsg : s.device.messages = .call call :: rest) :
    s.working = queuedKeys rest + parkedKeys (s.gates ++ [⟨s.nextTask, call, .sendCheck⟩]) := by
  have hparked : parkedKeys (s.gates ++ [⟨s.nextTask, call, .sendCheck⟩]) =
      parkedKeys s.gates + {call.key} := by
    simp only [parkedKeys, List.filter_append, List.map_append]
    rfl
  rw [working_popMessage hmsg, hparked]
  show queuedKeys rest + parkedKeys s.gates + s.device.pc.keys + {call.key} = _
  rw [hpc]
  show queuedKeys rest + parkedKeys s.gates + 0 + {call.key} = _
  abel

/-- A call that has come to its handler is still being worked on, and is handled at most. -/
theorem Admitted.reached {s t : System} {call : Call} (ht : Admitted s call t)
    (hpc : s.device.pc = .run) :
    s.working = (t.reachGated call).working + {call.key} ∧
      (t.reachGated call).device.pc.keys = 0 ∧
      repliedKeys (t.reachGated call).log = repliedKeys s.log ∧
      ∃ handled ≤ ({call.key} : Multiset Key),
        handledKeys (t.reachGated call).log = handled + handledKeys s.log := by
  refine ⟨by rw [reachGated_working, ht.working], ?_, by rw [reachGated_replied, ht.log], ?_⟩
  · rw [reachGated_device]
    exact keys_of_run (ht.pc.trans hpc)
  · obtain ⟨handled, hle, hhandled, -⟩ := reachGated_handles t call
    exact ⟨handled, hle, by rw [hhandled, ht.log]⟩


theorem DeviceTurn.accounted {env : Environment} {s s' : System} (h : Gates s)
    (halive : s.device.alive = true) (hturn : DeviceTurn env s s') : Accounted s s' := by
  cases hturn with
  | sent hpc ha =>
      have hworking : s.working = s.working + 0 := (add_zero _).symm
      exact (ha.ledger_lost hworking (keys_of_sending hpc) rfl rfl).accounted
  | stopSent hpc ha =>
      have hworking : s.working = s.leaveStop.working + 0 := (add_zero _).symm
      exact (ha.ledger_lost hworking (keys_of_sending hpc) rfl rfl).accounted
  | @skipped message rest _ hpc hmsg ha =>
      have hworking := working_popMessage hmsg
      cases message with
      | call call =>
          exact (ha.ledger hworking (keys_of_run hpc) (Multiset.zero_le _) (zero_add _).symm
            rfl).accounted
      | nameOwnerChanged args =>
          exact (ha.ledger_lost hworking (keys_of_run hpc) rfl rfl).accounted
  | @dropped call gate rest _ hpc hmsg hmem hstate ha =>
      refine ⟨0, 0, {call.key}, ha.ledger_lost (working_popMessage hmsg) (keys_of_run hpc) rfl rfl,
        fun key hkey => ?_⟩
      exact .dropped hpc hmsg hmem hstate (Multiset.mem_singleton.1 hkey)
  | @gateCreated call rest hpc hmsg _ _ =>
      refine .same ?_ rfl
      rw [working_gateCreated hpc hmsg]
      show queuedKeys rest + parkedKeys (s.gates ++ [⟨s.nextTask, call, .sendCheck⟩]) +
        DevicePc.run.keys = _
      exact add_zero _
  | @asked call t hpc ht _ =>
      refine .same ?_ ht.log
      have hpc' : t.device.pc.keys = 0 := keys_of_run (ht.pc.trans hpc)
      rw [ht.working]
      show queuedKeys t.device.messages + parkedKeys t.gates + {call.key} =
        queuedKeys t.device.messages + parkedKeys t.gates + t.device.pc.keys + {call.key}
      rw [hpc', add_zero]
  | @rejected call t _ hpc ht ha =>
      exact (ha.ledger ht.working (keys_of_run (ht.pc.trans hpc)) (Multiset.zero_le _)
        (by rw [ht.log, zero_add]) (by rw [ht.log])).accounted
  | @unchecked call _ hpc ha =>
      exact (ha.ledger_checked hpc rfl rfl (Multiset.zero_le _) (zero_add _).symm rfl).accounted
  | @unnamed call _ hpc hnames ha =>
      refine ⟨0, 0, {call.key}, ?_, fun key _ => .unnamed hpc hnames⟩
      refine ⟨?_, by rw [ha.toQuiet.handled_eq, zero_add], by rw [ha.replied_eq]; rfl, le_rfl⟩
      rw [ha.working, hpc, add_zero]
      rfl
  | @listed call user _ hpc _ ha =>
      exact (ha.ledger_checked hpc rfl rfl (Multiset.zero_le _) (handledKeys_cons _ _)
        ((repliedKeys_cons _ _).trans (zero_add _))).accounted
  | @deletedAll call user _ hpc _ _ ha =>
      refine (ha.ledger_checked hpc rfl rfl le_rfl ?_ ?_).accounted
      · exact (handledKeys_cons _ _).trans ((zero_add _).trans (handledKeys_cons _ _))
      · exact (repliedKeys_cons _ _).trans ((zero_add _).trans
          ((repliedKeys_cons _ _).trans (zero_add _)))
  | @claimed call user _ hpc _ _ ha =>
      exact (ha.ledger_checked hpc rfl rfl (Multiset.zero_le _) (zero_add _).symm rfl).accounted
  | @served call t _ hpc ht _ _ _ ha =>
      obtain ⟨hworking, hpc', hreplied, handled, hle, hhandled⟩ := ht.reached hpc
      rcases ha with ha | ha
      · exact (ha.ledger hworking hpc' hle hhandled hreplied).accounted
      · exact (ha.ledger hworking hpc' hle
          ((handledKeys_cons _ _).trans ((zero_add _).trans hhandled))
          ((repliedKeys_cons _ _).trans ((zero_add _).trans hreplied))).accounted
  | @started call t _ name isVerify hpc ht _ _ _ _ ha =>
      obtain ⟨hworking, hpc', hreplied, handled, hle, hhandled⟩ := ht.reached hpc
      exact (ha.ledger hworking hpc' hle
        ((handledKeys_cons _ _).trans ((zero_add _).trans hhandled))
        ((repliedKeys_cons _ _).trans ((zero_add _).trans hreplied))).accounted
  | @released call t _ hpc ht hclaimed hsender hmethod ha =>
      cases ht with
      | authorized _ hgated _ _ => exact absurd hgated (by rw [hmethod]; simp [Method.gated])
      | @free rest hmsg _ =>
          obtain ⟨u, hu, hauth, hmessages, hupc, hgates, hlog, -, -, -⟩ :=
            releaseBy_fields (s.popMessage rest) call.sender
          have hworking : s.working = u.working + answerKeys (some call) := by
            rw [working_popMessage hmsg, System.working, System.working, hmessages, hupc, hgates]
            rfl
          exact dropped_accounted h halive (.released hpc hmsg hmethod hclaimed hsender rfl) ha
            hworking hauth (hupc.trans hpc) hgates hlog (by rw [hu]; rfl) (by rw [hu]; rfl)
            (by rw [hu]; rfl)
  | @disconnected name old more rest _ hpc hmsg ha =>
      obtain ⟨u, hu, hauth, hmessages, hupc, hgates, hlog, -, -, -⟩ :=
        disconnect_fields (s.popMessage rest) old
      have hworking : s.working = u.working + answerKeys none := by
        rw [working_popMessage hmsg, System.working, System.working, hmessages, hupc, hgates]
        rfl
      exact dropped_accounted h halive (.disconnected hpc hmsg) ha hworking hauth
        (hupc.trans hpc) hgates hlog (by rw [hu]; rfl) (by rw [hu]; rfl) (by rw [hu]; rfl)

/-! ### Gate tasks -/

theorem mem_parkedKeys {gates : List PolkitGate} {gate : PolkitGate} (hmem : gate ∈ gates)
    (hpc : gate.pc ≠ .denying) : gate.call.key ∈ parkedKeys gates :=
  Multiset.mem_coe.2 (List.mem_map.2 ⟨gate, List.mem_filter.2 ⟨hmem, by simpa using hpc⟩, rfl⟩)

/-- Replacing a gate by one that parks the same call. -/
theorem parkedKeys_map {gates : List PolkitGate} {f : PolkitGate → PolkitGate}
    (hf : ∀ gate ∈ gates, (f gate).call = gate.call ∧
      ((f gate).pc = .denying ↔ gate.pc = .denying)) :
    parkedKeys (gates.map f) = parkedKeys gates := by
  unfold parkedKeys
  congr 1
  induction gates with
  | nil => rfl
  | cons gate gates ih =>
      have ih := ih fun g hg => hf g (List.mem_cons_of_mem _ hg)
      obtain ⟨hcall, hpc⟩ := hf gate List.mem_cons_self
      by_cases hdenying : gate.pc = .denying
      · rw [List.map_cons, List.filter_cons_of_neg (by simp [hpc, hdenying]),
          List.filter_cons_of_neg (by simp [hdenying]), ih]
      · rw [List.map_cons, List.filter_cons_of_pos (by simpa [hpc] using hdenying),
          List.filter_cons_of_pos (by simpa using hdenying), List.map_cons, List.map_cons, ih,
          hcall]

/-- Taking out the gate of a given number. -/
theorem parkedKeys_erase {gates : List PolkitGate} {gate : PolkitGate}
    (hids : (gates.map PolkitGate.id).Nodup) (hmem : gate ∈ gates) :
    parkedKeys gates = parkedKeys (gates.filter fun g => g.id ≠ gate.id) +
      parkedKeys [gate] := by
  have hsame : gates.filter (fun g => decide (g.id = gate.id)) = [gate] := by
    induction gates with
    | nil => exact absurd hmem List.not_mem_nil
    | cons g gates ih =>
        obtain ⟨hnew, hids⟩ := List.nodup_cons.1 hids
        rcases List.mem_cons.1 hmem with rfl | hmem
        · rw [List.filter_cons_of_pos (by simp)]
          congr 1
          refine List.filter_eq_nil_iff.2 fun g hg hid => hnew ?_
          simp only [decide_eq_true_eq] at hid
          exact hid ▸ List.mem_map_of_mem hg
        · have hne : g.id ≠ gate.id := fun hid =>
            hnew (hid ▸ List.mem_map_of_mem hmem)
          rw [List.filter_cons_of_neg (by simpa using hne), ih hids hmem]
  have h := parkedKeys_filter gates fun g => decide (g.id = gate.id)
  rw [hsame] at h
  rw [h]
  congr 2
  refine List.filter_congr fun g _ => ?_
  simp

/-- Replacing a gate by one that does not park its call any more. -/
theorem parkedKeys_deny {gates : List PolkitGate} {gate : PolkitGate}
    (hids : (gates.map PolkitGate.id).Nodup) (hmem : gate ∈ gates) :
    parkedKeys gates = parkedKeys (gates.map fun g =>
      if g.id = gate.id then { gate with pc := .denying } else g) + parkedKeys [gate] := by
  rw [parkedKeys_erase hids hmem]
  congr 1
  unfold parkedKeys
  congr 1
  clear hmem hids
  induction gates with
  | nil => rfl
  | cons g gates ih =>
      by_cases hid : g.id = gate.id
      · simpa [hid] using ih
      · by_cases hpc : g.pc = .denying <;> simp_all

theorem Gates.inj {s : System} (h : Gates s) {gate gate' : PolkitGate} (hmem : gate ∈ s.gates)
    (hmem' : gate' ∈ s.gates) (hid : gate.id = gate'.id) : gate = gate' :=
  List.inj_on_of_nodup_map h.ids hmem hmem' hid

/-- A turn of a gate loses nothing. -/
theorem Gates.gateTurn_ledger {s : System} (h : Gates s) {gate : PolkitGate}
    (hmem : gate ∈ s.gates) (reply : PolkitReply) :
    ∃ done, Ledger s (stepGate s gate reply) done 0 0 := by
  unfold stepGate
  cases hpc : gate.pc with
  | sendCheck =>
      refine ⟨0, .same ?_ rfl⟩
      show queuedKeys s.device.messages + parkedKeys (s.gates.map _) + _ = _
      rw [parkedKeys_map]
      · rfl
      · intro g hg
        split
        · rename_i hid
          obtain rfl := h.inj hg hmem hid
          simp [hpc]
        · exact ⟨rfl, Iff.rfl⟩
  | denying =>
      refine ⟨0, .same ?_ rfl⟩
      have herase := parkedKeys_erase h.ids hmem
      have hnone : parkedKeys [gate] = 0 := by simp [parkedKeys, hpc]
      rw [hnone, add_zero] at herase
      show queuedKeys s.device.messages + parkedKeys (s.gates.filter _) + _ = _
      rw [← herase]
      rfl
  | waiting =>
      have hone : parkedKeys [gate] = {gate.call.key} := by simp [parkedKeys, hpc]
      dsimp only
      unfold checkDone
      split
      · -- the call goes from the gate to the queue
        have herase := parkedKeys_erase h.ids hmem
        refine ⟨0, ?_, ?_, ?_, le_rfl⟩
        · rw [add_zero, add_zero]
          show _ = queuedKeys (s.device.messages ++ [.call gate.call]) +
            parkedKeys (s.gates.filter fun g => g.id ≠ gate.id) + s.device.pc.keys
          rw [System.working, herase, queuedKeys_append, hone]
          have hcall : queuedKeys [.call gate.call] = {gate.call.key} := rfl
          rw [hcall]
          abel
        · exact handledKeys_cons _ _
        · exact repliedKeys_cons _ _
      · have hdeny := parkedKeys_deny h.ids hmem
        refine ⟨{gate.call.key}, ?_, ?_, ?_, Multiset.zero_le _⟩
        · rw [add_zero]
          show _ = queuedKeys s.device.messages + parkedKeys (s.gates.map _) +
            s.device.pc.keys + _
          rw [System.working, hdeny, hone]
          abel
        · exact handledKeys_cons _ _
        · exact repliedKeys_cons _ _

theorem Gates.gateTurn_accounted {s : System} (h : Gates s) {gate : PolkitGate}
    (hmem : gate ∈ s.gates) (reply : PolkitReply) : Accounted s (stepGate s gate reply) := by
  obtain ⟨done, hledger⟩ := h.gateTurn_ledger hmem reply
  exact hledger.accounted

end Fpc
