/-
**Gated calls are handled once, granted, and by the claimer.**

A copy of a call that comes back from its gate finds its authorization, which was written when
polkit granted the call.  So the log shows the grant before the handler, and the ledger shows the
handler at most once.

Main definitions:

* `Fpc.Justified` — every call that was handled had been granted before;
* `Fpc.Authorized` — the authorizations and the call whose uid is asked for were granted.

Main results:

* `Fpc.DeviceTurn.granted`, `Fpc.granted_of_step` — only a gate that polkit answers grants a call;
* `Fpc.Authorized.step` — every step keeps the invariant;
* `Fpc.handled_once_granted` — **gated calls are handled once, granted, and by the claimer**.
-/

import FpcReader.Daemon.Gating

set_option relaxedAutoImplicit false
set_option autoImplicit false

namespace Fpc

/-! ### Grants -/

section Grants

variable {env : Environment} {s s' t : System} {key : Key}

theorem granted_reach {call : Call} :
    LogEntry.granted key ∈ (s.reach call).log ↔ .granted key ∈ s.log :=
  List.mem_cons.trans (or_iff_right nofun)

theorem granted_reachGated {call : Call} :
    LogEntry.granted key ∈ (s.reachGated call).log ↔ .granted key ∈ s.log := by
  unfold System.reachGated
  split
  · exact granted_reach
  · exact Iff.rfl

theorem granted_access {user : Name} {client : Client} :
    LogEntry.granted key ∈ (s.access user client).log ↔ .granted key ∈ s.log :=
  List.mem_cons.trans (or_iff_right nofun)

theorem Admitted.granted_iff {call : Call} (ht : Admitted s call t) :
    LogEntry.granted key ∈ t.log ↔ .granted key ∈ s.log := by rw [ht.log]

theorem granted_releaseBy {sender : Client} :
    LogEntry.granted key ∈ (s.releaseBy sender).log ↔ .granted key ∈ s.log := by
  obtain ⟨u, hu, -, -, -, -, hlog, -, -, -⟩ := releaseBy_fields s sender
  rw [hu, ← hlog]
  exact mem_dropAuthGates_log id

theorem granted_disconnect {old : Client} :
    LogEntry.granted key ∈ (s.disconnect old).log ↔ .granted key ∈ s.log := by
  obtain ⟨u, hu, -, -, -, -, hlog, -, -, -⟩ := disconnect_fields s old
  rw [hu, ← hlog]
  exact mem_dropAuthGates_log id

/-- The device grants nothing. -/
theorem DeviceTurn.granted (hturn : DeviceTurn env s s') :
    LogEntry.granted key ∈ s'.log ↔ .granted key ∈ s.log := by
  cases hturn with
  | sent _ ha | stopSent _ ha | skipped _ _ ha | dropped _ _ _ _ ha | unchecked _ ha
  | unnamed _ _ ha | claimed _ _ _ ha => exact ha.toQuiet.mem_log id
  | gateCreated _ _ _ _ => exact Iff.rfl
  | asked _ ht _ => exact ht.granted_iff
  | rejected _ ht ha => exact (ha.toQuiet.mem_log id).trans ht.granted_iff
  | listed _ _ ha => exact (ha.toQuiet.mem_log id).trans granted_access
  | deletedAll _ _ _ ha =>
      exact (ha.toQuiet.mem_log id).trans (granted_access.trans granted_reach)
  | @served call t _ _ ht _ _ _ ha =>
      have hreach : LogEntry.granted key ∈ (t.reachGated call).log ↔ .granted key ∈ s.log :=
        granted_reachGated.trans ht.granted_iff
      rcases ha with ha | ha
      · exact (ha.toQuiet.mem_log id).trans hreach
      · exact (ha.toQuiet.mem_log id).trans (granted_access.trans hreach)
  | @started call t _ name isVerify _ ht _ _ _ _ ha =>
      refine (ha.toQuiet.mem_log id).trans ?_
      exact (granted_access (s := t.reachGated call)).trans
        (granted_reachGated.trans ht.granted_iff)
  | released _ ht _ _ _ ha =>
      exact (ha.toQuiet.mem_log id).trans (granted_releaseBy.trans ht.granted_iff)
  | @disconnected _ old _ rest _ _ _ ha =>
      exact (ha.toQuiet.mem_log id).trans (granted_disconnect (s := s.popMessage rest))

theorem OperationTurn.granted {op : EnrollVerify} (hturn : OperationTurn s op s') :
    LogEntry.granted key ∈ s'.log ↔ .granted key ∈ s.log := by
  obtain ⟨-, -, -, -, -, news, hlog, hnews⟩ := hturn.calls
  rw [hlog, List.mem_append]
  exact or_iff_right fun hmem => (hnews _ hmem).2.2 key rfl

theorem ControlTurn.log {input : ControlInput} (hturn : ControlTurn s input s') :
    s'.log = s.log := by
  rcases hturn.calls with hsame | ⟨u, hsame, rfl⟩ | ⟨-, -, -, -, -, hlog⟩
  · exact hsame.log
  · exact (finishControl_log u).trans hsame.log
  · exact hlog

/-- What a gate adds to the log, and to the authorizations. -/
theorem stepGate_cases (s : System) (gate : PolkitGate) (reply : PolkitReply) :
    ((stepGate s gate reply).log = s.log ∧ (stepGate s gate reply).device = s.device) ∨
      (gate.pc = .waiting ∧ reply = .methodReturn (some true) ∧
        (stepGate s gate reply).log = .granted gate.call.key :: s.log ∧
          (stepGate s gate reply).device.pc = s.device.pc ∧
            (stepGate s gate reply).device.authGates =
              (resolveGate s gate.call.key .authorized).device.authGates) ∨
        (gate.pc = .waiting ∧ reply ≠ .methodReturn (some true) ∧
          (∃ answer, (stepGate s gate reply).log = .replied gate.call answer :: s.log) ∧
            (stepGate s gate reply).device.pc = s.device.pc ∧
              (stepGate s gate reply).device.authGates =
                (resolveGate s gate.call.key .finished).device.authGates) := by
  unfold stepGate
  cases hpc : gate.pc with
  | sendCheck => exact Or.inl ⟨rfl, rfl⟩
  | denying => exact Or.inl ⟨rfl, rfl⟩
  | waiting =>
      dsimp only
      unfold checkDone
      split
      · rename_i hgranted
        exact Or.inr (Or.inl ⟨rfl, hgranted, rfl, rfl, rfl⟩)
      · rename_i hdenied
        exact Or.inr (Or.inr ⟨rfl, hdenied, ⟨_, rfl⟩, rfl, rfl⟩)

/-- A call is granted when polkit answers its gate with a method return that starts with true. -/
theorem granted_of_step {action : Action} (hstep : step env s action = some s')
    (hmem : .granted key ∈ s'.log) :
    .granted key ∈ s.log ∨ ∃ id gate, action = .gate id (.methodReturn (some true)) ∧
      gate ∈ s.gates ∧ gate.pc = .waiting ∧ gate.call.key = key := by
  cases step_turn hstep with
  | device _ hturn => exact Or.inl (hturn.granted.1 hmem)
  | @gate id reply gate hgate _ =>
      rcases stepGate_cases s gate reply with ⟨hlog, -⟩ | ⟨hpc, rfl, hlog, -⟩ | ⟨-, -, ⟨_, hlog⟩, -⟩
      · exact Or.inl (hlog ▸ hmem)
      · rw [hlog] at hmem
        rcases List.mem_cons.1 hmem with heq | hmem
        · exact Or.inr ⟨id, gate, rfl, hgate, hpc, (LogEntry.granted.inj heq).symm⟩
        · exact Or.inl hmem
      · rw [hlog] at hmem
        exact Or.inl ((List.mem_cons.1 hmem).resolve_left nofun)
  | listen _ hturn =>
      rw [stepListen_fields hturn] at hmem
      exact Or.inl hmem
  | operation _ hturn => exact Or.inl (hturn.granted.1 hmem)
  | control _ hturn => exact Or.inl (hturn.log ▸ hmem)
  | _ => exact Or.inl hmem

end Grants

/-! ### Authorized calls -/

/-- Every call that was handled had been granted before, and its sender had claimed the device if
the call acts on the claim. -/
def Justified : List LogEntry → Prop
  | [] => True
  | .handled call claimer :: older =>
      .granted call.key ∈ older ∧
        (call.method ≠ .deleteEnrolledFingers → claimer = some call.sender) ∧ Justified older
  | _ :: older => Justified older

/-- The authorizations were granted, and so were the calls that were handled. -/
structure Granted (s : System) : Prop where
  entries : ∀ entry ∈ s.device.authGates, entry.2.state = .authorized → .granted entry.1 ∈ s.log
  log : Justified s.log

/-- The call whose uid is asked for was granted, too. -/
structure Authorized (s : System) : Prop extends Granted s where
  checking : ∀ call, s.device.pc = .checkUid call →
    call.method.namesUser = true ∧ (call.method.gated = true → .granted call.key ∈ s.log)

theorem justified_cons {entry : LogEntry} {log : List LogEntry} (h : Justified log)
    (hentry : entry.handledKey = none) : Justified (entry :: log) := by
  cases entry with
  | handled call claimer => exact absurd hentry nofun
  | _ => exact h

theorem justified_append {news log : List LogEntry} (h : Justified log)
    (hnews : ∀ entry ∈ news, entry.handledKey = none) : Justified (news ++ log) := by
  induction news with
  | nil => exact h
  | cons entry news ih =>
      exact justified_cons (ih fun e he => hnews e (List.mem_cons_of_mem _ he))
        (hnews entry List.mem_cons_self)

theorem LogEntry.Sent.handledKey {entry : LogEntry} (h : entry.Sent) : entry.handledKey = none := by
  cases entry <;> first | rfl | exact h.elim

section Authorized

variable {env : Environment} {s s' t : System}

/-- The same authorizations or fewer, after some steps of the log. -/
theorem Granted.frame (h : Granted s)
    (hentries : ∀ entry ∈ s'.device.authGates, entry.2.state = .authorized →
      entry ∈ s.device.authGates)
    (hgranted : ∀ key, .granted key ∈ s.log → .granted key ∈ s'.log) (hlog : Justified s'.log) :
    Granted s' :=
  ⟨fun entry hmem hstate => hgranted _ (h.entries entry (hentries entry hmem hstate) hstate), hlog⟩

/-- The device has dealt with something. -/
theorem Granted.answered {answer : Option Call} (h : Granted t) (ha : Answered answer t s') :
    Authorized s' := by
  obtain ⟨sent, hlog, hsent⟩ := ha.toQuiet.log
  refine ⟨h.frame (fun entry hmem _ => ?_) (fun key => (ha.toQuiet.mem_log id).2) ?_,
    fun call hpc => absurd hpc (ha.moved call)⟩
  · rwa [ha.toQuiet.device] at hmem
  · rw [hlog]
    exact justified_append h.log fun entry hmem => (hsent entry hmem).handledKey

theorem Granted.admitted (h : Granted s) {call : Call} (ht : Admitted s call t) : Granted t := by
  cases ht with
  | free _ _ => exact ⟨h.entries, h.log⟩
  | authorized _ _ _ _ =>
      exact h.frame (fun entry hmem _ => List.mem_of_mem_filter hmem) (fun _ => id) h.log

/-- A gated call that has passed was granted. -/
theorem Granted.passed (h : Granted s) {call : Call} (ht : Admitted s call t)
    (hgated : call.method.gated = true) : .granted call.key ∈ t.log := by
  rw [ht.log]
  cases ht with
  | free _ hfree => exact absurd hgated (by rw [hfree]; nofun)
  | authorized _ _ hmem hstate => exact h.entries _ hmem hstate

theorem Granted.reach (h : Granted s) {call : Call} (hgranted : .granted call.key ∈ s.log)
    (hclaim : call.method ≠ .deleteEnrolledFingers →
      s.device.claimed = true ∧ s.device.claimedSender = call.sender) : Granted (s.reach call) := by
  refine h.frame (fun entry hmem _ => hmem) (fun _ => granted_reach.2) ⟨hgranted, ?_, h.log⟩
  intro hmethod
  obtain ⟨hclaimed, hsender⟩ := hclaim hmethod
  rw [if_pos hclaimed, hsender]

theorem Granted.reachGated (h : Granted s) {call : Call}
    (hgranted : call.method.gated = true → .granted call.key ∈ s.log)
    (hclaim : call.method ≠ .deleteEnrolledFingers →
      s.device.claimed = true ∧ s.device.claimedSender = call.sender) :
    Granted (s.reachGated call) := by
  unfold System.reachGated
  split
  · rename_i hgated
    exact h.reach (hgranted hgated) hclaim
  · exact h

theorem Granted.access (h : Granted s) (user : Name) (client : Client) :
    Granted (s.access user client) :=
  h.frame (fun _ hmem _ => hmem) (fun _ => granted_access.2) h.log

theorem Granted.dropAuthGates (h : Granted s) (sender : Client) :
    Granted (dropAuthGates s sender) := by
  refine h.frame (fun entry hmem hstate => ?_) (fun key => (mem_dropAuthGates_log id).2) ?_
  · obtain ⟨old, hold, -, -, -, hcase⟩ := mem_dropAuthGates hmem
    split at hcase
    · rw [hcase] at hstate
      exact absurd hstate nofun
    · exact hcase ▸ hold
  · unfold Fpc.dropAuthGates
    refine justified_append h.log fun entry hmem => ?_
    obtain ⟨gate, -, rfl⟩ := List.mem_map.1 hmem
    rfl

theorem Authorized.deviceTurn (h : Authorized s) (hturn : DeviceTurn env s s') :
    Authorized s' := by
  have hg := h.toGranted
  cases hturn with
  | sent _ ha | unchecked _ ha | unnamed _ _ ha => exact hg.answered ha
  | stopSent _ ha => exact Granted.answered (t := s.leaveStop) ⟨hg.entries, hg.log⟩ ha
  | @skipped _ rest _ _ _ ha =>
      exact Granted.answered (t := s.popMessage rest) ⟨hg.entries, hg.log⟩ ha
  | dropped _ _ _ _ ha =>
      refine Granted.answered ?_ ha
      exact hg.frame (fun entry hmem _ => List.mem_of_mem_filter hmem) (fun _ => id) hg.log
  | gateCreated _ _ _ _ =>
      refine ⟨hg.frame (fun entry hmem hstate => ?_) (fun _ => id) hg.log, nofun⟩
      rcases List.mem_append.1 hmem with hmem | hmem
      · exact List.mem_of_mem_filter hmem
      · obtain rfl := List.mem_singleton.1 hmem
        exact absurd hstate nofun
  | @asked call t _ ht hnames =>
      have hgt := hg.admitted ht
      refine ⟨⟨hgt.entries, hgt.log⟩, fun call' hpc => ?_⟩
      obtain rfl := DevicePc.checkUid.inj hpc
      exact ⟨hnames, hg.passed (t := t) ht⟩
  | rejected _ ht ha => exact (hg.admitted ht).answered ha
  | listed _ _ ha => exact (hg.access _ _).answered ha
  | @deletedAll call user _ hpc hmethod _ ha =>
      have hgranted := (h.checking call hpc).2 (by rw [hmethod]; rfl)
      exact ((hg.reach hgranted fun hne => absurd hmethod hne).access _ _).answered ha
  | @claimed call user _ _ _ _ ha =>
      exact Granted.answered (t := s.claimBy call user) ⟨hg.entries, hg.log⟩ ha
  | @served call t _ _ ht hclaimed hsender _ ha =>
      have hdevice : t.device.claimed = true ∧ t.device.claimedSender = call.sender := by
        rw [ht.eq]
        exact ⟨hclaimed, hsender⟩
      have hreach := (hg.admitted ht).reachGated (hg.passed ht) fun _ => hdevice
      rcases ha with ha | ha
      · exact hreach.answered ha
      · exact (hreach.access _ _).answered ha
  | @started call t _ name isVerify _ ht hclaimed hsender _ _ ha =>
      have hdevice : t.device.claimed = true ∧ t.device.claimedSender = call.sender := by
        rw [ht.eq]
        exact ⟨hclaimed, hsender⟩
      have hbase := ((hg.admitted ht).reachGated (hg.passed ht) fun _ => hdevice).access
        s.device.claimedUser call.sender
      have hstart : Granted (startOperation
          ((t.reachGated call).access s.device.claimedUser call.sender) call name isVerify) :=
        ⟨hbase.entries, hbase.log⟩
      exact hstart.answered ha
  | @released call t _ _ ht _ _ _ ha =>
      obtain ⟨u, hu, hauth, -, -, -, hlog, -⟩ := releaseBy_fields t call.sender
      have hgt := hg.admitted ht
      have hgu : Granted u := ⟨by rw [hauth, hlog]; exact hgt.entries, by rw [hlog]; exact hgt.log⟩
      rw [hu] at ha
      have hdrop := hgu.dropAuthGates call.sender
      exact Granted.answered (t := (Fpc.dropAuthGates u call.sender).unclaim)
        ⟨hdrop.entries, hdrop.log⟩ ha
  | @disconnected _ old _ rest _ _ _ ha =>
      obtain ⟨u, hu, hauth, -, -, -, hlog, -⟩ := disconnect_fields (s.popMessage rest) old
      have hgu : Granted u := ⟨by rw [hauth, hlog]; exact hg.entries, by rw [hlog]; exact hg.log⟩
      rw [hu] at ha
      have hdrop := hgu.dropAuthGates old
      exact Granted.answered (t := (Fpc.dropAuthGates u old).unclaim.putEvent .stopSensor)
        ⟨hdrop.entries, hdrop.log⟩ ha

theorem Authorized.gateTurn (h : Authorized s) (gate : PolkitGate) (reply : PolkitReply) :
    Authorized (stepGate s gate reply) := by
  rcases stepGate_cases s gate reply with ⟨hlog, hdevice⟩ | ⟨-, -, hlog, hpc, hauth⟩ |
    ⟨-, -, ⟨answer, hlog⟩, hpc, hauth⟩
  · refine ⟨⟨?_, ?_⟩, ?_⟩
    · rw [hlog, hdevice]
      exact h.entries
    · rw [hlog]
      exact h.log
    · rw [hlog, hdevice]
      exact h.checking
  · refine ⟨⟨fun entry hmem hstate => ?_, ?_⟩, fun call hcall => ?_⟩
    · rw [hlog]
      obtain ⟨old, hold, hkey, -, -, hcase⟩ := mem_resolveGate (hauth ▸ hmem)
      split at hcase
      · rename_i hsame
        rw [← hkey, hsame]
        exact List.mem_cons_self
      · subst hcase
        exact List.mem_cons_of_mem _ (h.entries old hold hstate)
    · rw [hlog]
      exact justified_cons h.log rfl
    · rw [hpc] at hcall
      obtain ⟨hnames, hgranted⟩ := h.checking call hcall
      rw [hlog]
      exact ⟨hnames, fun hgated => List.mem_cons_of_mem _ (hgranted hgated)⟩
  · refine ⟨⟨fun entry hmem hstate => ?_, ?_⟩, fun call hcall => ?_⟩
    · rw [hlog]
      obtain ⟨old, hold, -, -, -, hcase⟩ := mem_resolveGate (hauth ▸ hmem)
      split at hcase
      · rw [hcase] at hstate
        exact absurd hstate nofun
      · subst hcase
        exact List.mem_cons_of_mem _ (h.entries old hold hstate)
    · rw [hlog]
      exact justified_cons h.log rfl
    · rw [hpc] at hcall
      obtain ⟨hnames, hgranted⟩ := h.checking call hcall
      rw [hlog]
      exact ⟨hnames, fun hgated => List.mem_cons_of_mem _ (hgranted hgated)⟩

theorem Authorized.controlTurn (h : Authorized s) {input : ControlInput}
    (hturn : ControlTurn s input s') : Authorized s' := by
  have hlog := hturn.log
  have hcreated : ∀ device : Device, device.authGates = [] → device.pc = .run →
      s'.device = device → Authorized s' := by
    rintro device hauth hpc rfl
    refine ⟨⟨?_, hlog ▸ h.log⟩, ?_⟩
    · rw [hauth]
      nofun
    · rw [hpc]
      nofun
  have hkept : s'.device = s.device → Authorized s' := by
    intro hdevice
    refine ⟨⟨?_, hlog ▸ h.log⟩, ?_⟩
    · rw [hdevice, hlog]
      exact h.entries
    · rw [hdevice, hlog]
      exact h.checking
  rcases hturn.calls with hsame | ⟨u, hsame, rfl⟩ | ⟨-, hdevice, -⟩
  · exact hkept hsame.device
  · have hdevice := finishControl_device u
    split at hdevice
    · exact hcreated _ rfl rfl hdevice
    · exact hkept (hdevice.trans hsame.device)
  · exact hcreated _ rfl rfl hdevice

/-- Every step keeps the invariant. -/
theorem Authorized.step (h : Authorized s) {action : Action}
    (hstep : step env s action = some s') : Authorized s' := by
  cases step_turn hstep with
  | device _ hturn => exact h.deviceTurn hturn
  | gate _ _ => exact h.gateTurn _ _
  | listen _ hturn =>
      rw [stepListen_fields hturn]
      exact ⟨⟨h.entries, h.log⟩, h.checking⟩
  | operation _ hturn =>
      obtain ⟨hdevice, -, -, -, -, news, hlog, hnews⟩ := hturn.calls
      refine ⟨⟨?_, ?_⟩, ?_⟩
      · rw [hdevice]
        exact fun entry hmem hstate => hturn.granted.2 (h.entries entry hmem hstate)
      · rw [hlog]
        exact justified_append h.log fun entry hmem => (hnews entry hmem).1
      · rw [hdevice]
        exact fun call hpc => ⟨(h.checking call hpc).1, fun hgated =>
          hturn.granted.2 ((h.checking call hpc).2 hgated)⟩
  | control _ hturn => exact h.controlTurn hturn
  | rawDropped _ => exact h
  | _ => exact ⟨⟨h.entries, h.log⟩, h.checking⟩

theorem Authorized.start (hs : Started s) : Authorized s := by
  obtain ⟨handle, file, rfl⟩ := hs
  exact ⟨⟨nofun, trivial⟩, nofun⟩

theorem Ledgered.of_reaches {ok : System → Action → Prop}
    (h : Transition.Reaches (Fpc.step env) ok Started s) : Ledgered s :=
  Transition.Reaches.invariant (fun _ => Ledgered.start) (fun _ hinv _ hstep => hinv.step hstep) h

theorem Authorized.of_reaches {ok : System → Action → Prop}
    (h : Transition.Reaches (Fpc.step env) ok Started s) : Authorized s :=
  Transition.Reaches.invariant (fun _ => Authorized.start)
    (fun _ hinv _ hstep => hinv.step hstep) h

end Authorized

/-- **Gated calls are handled once, granted, and by the claimer.**  In every run a call reaches a
gated handler at most once, after its gate was answered with a method return that starts with true;
and the calls that act on the claim reach it only while their sender holds the claim. -/
theorem handled_once_granted {env : Environment} {s : System}
    (h : Transition.Reachable (step env) Started s) :
    (∀ key, (handledKeys s.log).count key ≤ 1) ∧ Justified s.log ∧
      ∀ action s', step env s action = some s' → ∀ key, .granted key ∈ s'.log →
        .granted key ∈ s.log ∨ ∃ id gate, action = .gate id (.methodReturn (some true)) ∧
          gate ∈ s.gates ∧ gate.pc = .waiting ∧ gate.call.key = key := by
  have hledger := Ledgered.of_reaches h
  have hauth := Authorized.of_reaches h
  refine ⟨fun key => ?_, hauth.log, fun action s' hstep key => granted_of_step hstep⟩
  exact Multiset.nodup_iff_count_le_one.1 (Multiset.nodup_add.1 hledger.handled).2.1 key

/-- Root deletes the prints of an account, with an authorization. -/
def deleteActions : List Action :=
  bootActions ++ [.call ⟨ascii ":1.9", 1, .deleteEnrolledFingers, some (ascii "anna")⟩,
    smoothDevice, .gate 0 .error, .gate 0 (.methodReturn (some true)), smoothDevice, smoothDevice]

theorem handled_once_granted_delete :
    ∃ s, homeRun deleteActions = some s ∧
      .handled ⟨ascii ":1.9", 1, .deleteEnrolledFingers, some (ascii "anna")⟩ none ∈ s.log ∧
        Justified s.log := by
  obtain ⟨s, hs, hmem⟩ : ∃ s, homeRun deleteActions = some s ∧
      .handled ⟨ascii ":1.9", 1, .deleteEnrolledFingers, some (ascii "anna")⟩ none ∈ s.log :=
    ⟨_, rfl, by exact .tail _ (.tail _ (.head _))⟩
  exact ⟨s, hs, hmem, (handled_once_granted (homeRun_reachable hs)).2.1⟩

end Fpc
