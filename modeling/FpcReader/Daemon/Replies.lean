/-
**One reply to a call.**

A call is answered by whoever works on it last, so it is answered at most once.  It stays without an
answer when the device drops it, and the device drops calls of a connected client only when the
client releases the device: then a check that is still pending is cancelled, and a call that has
been authorized meets a finished authorization when it comes back.

Main definitions:

* `Fpc.AnsweredOnce` — the calls of a client that nobody works on have been answered once;
* `Fpc.StaysConnected` — no signal says that the client has disconnected;
* `Fpc.SettledRelease` — a client that releases the device waits for no authorization;
* `Fpc.Answering` — the calls of the client are being worked on or have been answered.

Main results:

* `Fpc.Answering.step` — steps that meet the two conditions keep the invariant;
* `Fpc.answered_once` — **a connected client that waits for no authorization when it releases gets
  one reply to every call**;
* `Fpc.answered_once_withdrawn` — a client that releases too early does not.
-/

import FpcReader.Daemon.CallTurns

set_option relaxedAutoImplicit false
set_option autoImplicit false

namespace Fpc

open Bytes

/-! ### What is asked of a run -/

/-- The calls of a client are answered at most once, and those that nobody works on exactly once. -/
def AnsweredOnce (client : Client) (s : System) : Prop :=
  ∀ key ∈ s.calls, key.1 = client → (repliedKeys s.log).count key ≤ 1 ∧
    (key ∉ s.working → (repliedKeys s.log).count key = 1)

/-- No signal says that the client has disconnected. -/
def StaysConnected (client : Client) (_ : System) : Action → Prop
  | .nameOwnerChanged _ args => (Message.nameOwnerChanged args).tellsEnd client = false
  | _ => True

/-- When the client releases the device, no authorization of its calls is pending or waits to be
used. -/
def SettledRelease (client : Client) (s : System) : Action → Prop
  | .device _ => Releases s client → ∀ entry ∈ s.device.authGates, entry.2.sender = client →
      entry.2.state = .finished
  | _ => True

instance (client : Client) : ∀ s action, Decidable (StaysConnected client s action)
  | _, .nameOwnerChanged _ _ => inferInstanceAs (Decidable (_ = _))
  | _, .call _ | _, .device _ | _, .gate _ _ | _, .listen _ _ | _, .operation _ _ _
  | _, .control _ | _, .rawFrame _ | _, .tlsFrame _ | _, .answer _ | _, .tlsReady
  | _, .transportFailed | _, .prepareForSleep _ => isTrue trivial

instance (client : Client) : ∀ s action, Decidable (SettledRelease client s action)
  | _, .device _ => inferInstanceAs (Decidable (_ → _))
  | _, .call _ | _, .nameOwnerChanged _ _ | _, .gate _ _ | _, .listen _ _ | _, .operation _ _ _
  | _, .control _ | _, .rawFrame _ | _, .tlsFrame _ | _, .answer _ | _, .tlsReady
  | _, .transportFailed | _, .prepareForSleep _ => isTrue trivial

/-- The calls of a client are being worked on or have been answered; an authorization of it that is
finished belongs to a call that was denied. -/
structure Answering (client : Client) (s : System) : Prop where
  connected : ∀ message ∈ s.device.messages, message.tellsEnd client = false
  finished : ∀ entry ∈ s.device.authGates, entry.2.sender = client → entry.2.state = .finished →
    entry.1 ∈ repliedKeys s.log
  owed : s.device.alive = true → ∀ key ∈ s.calls, key.1 = client →
    key ∈ s.working + repliedKeys s.log
  unborn : s.device.alive = false → s.control.pc ≠ .finished → s.calls = []

section Invariant

variable {env : Environment} {s s' : System} {client : Client}

/-! ### The ledger of one call -/

theorem Ledger.kept {done handled : Multiset Key} {key : Key} (h : Ledger s s' done handled 0)
    (hmem : key ∈ s.working + repliedKeys s.log) : key ∈ s'.working + repliedKeys s'.log := by
  rw [h.working, add_zero] at hmem
  rw [h.replied_eq, ← add_assoc]
  exact hmem

theorem Accounted.kept {key : Key} (h : Accounted s s') (hkept : ¬Loses s s' key)
    (hmem : key ∈ s.working + repliedKeys s.log) : key ∈ s'.working + repliedKeys s'.log := by
  obtain ⟨done, handled, lost, hledger, hlost⟩ := h
  rw [hledger.working] at hmem
  rw [hledger.replied_eq, ← add_assoc]
  simp only [Multiset.mem_add] at hmem ⊢
  rcases hmem with ((hmem | hmem) | hmem) | hmem
  · exact Or.inl (Or.inl hmem)
  · exact Or.inl (Or.inr hmem)
  · exact absurd (hlost key hmem) hkept
  · exact Or.inr hmem

/-- Replies are not taken back. -/
theorem Accounted.replied {key : Key} (h : Accounted s s') (hmem : key ∈ repliedKeys s.log) :
    key ∈ repliedKeys s'.log := by
  obtain ⟨done, handled, lost, hledger, -⟩ := h
  rw [hledger.replied_eq]
  exact Multiset.mem_add.2 (Or.inr hmem)

/-- The client drops its authorizations only by releasing the device. -/
theorem Answering.releases (h : Answering client s) (hdrops : Drops s client) :
    Releases s client := by
  refine (drops_iff.1 hdrops).resolve_right ?_
  rintro ⟨-, message, hmsg, hends⟩
  rw [h.connected message (List.mem_of_mem_head? hmsg)] at hends
  exact absurd hends nofun

/-- A call of the client is not lost in a turn of the device. -/
theorem Answering.not_loses (h : Answering client s) (hl : Ledgered s) (ha : Authorized s)
    (halive : s.device.alive = true) (halive' : s'.device.alive = true)
    (hsettled : Releases s client → ∀ entry ∈ s.device.authGates, entry.2.sender = client →
      entry.2.state = .finished) {key : Key} (hkey : key.1 = client) : ¬Loses s s' key := by
  rintro (⟨hpc, hmsg, hmem, hstate, rfl⟩ | ⟨hmem, hstate, hdrops⟩ | ⟨hpc, hnames⟩ | hgone | hdead)
  · -- a queued call is neither parked nor answered
    rename_i call gate rest
    have hqueued : call.key ∈ queuedKeys s.device.messages := by
      rw [hmsg, queuedKeys_cons]
      exact Multiset.mem_add.2 (Or.inl (by simp [Message.caller]))
    cases hcase : gate.state with
    | authorized => exact hstate hcase
    | pending =>
        obtain ⟨parked, hparked, hpc', hsame⟩ := hl.gates.asking _ hmem hcase
        have hnodup := (Multiset.nodup_add.1 hl.working).1
        exact Multiset.disjoint_left.1 (Multiset.nodup_add.1 hnodup).2.2 hqueued
          (by
            rw [← show parked.call.key = call.key from hsame]
            exact mem_parkedKeys hparked hpc')
    | finished =>
        have hsender : gate.sender = client := (hl.gates.sender _ hmem).trans hkey
        refine Multiset.disjoint_left.1 (Multiset.nodup_add.1 hl.replied).2.2 ?_
          (h.finished _ hmem hsender hcase)
        exact Multiset.mem_add.2 (Or.inl (Multiset.mem_add.2 (Or.inl hqueued)))
  · rename_i gate
    have hsender : gate.sender = client := (hl.gates.sender _ hmem).trans hkey
    rw [hsender] at hdrops
    have hfinished := hsettled (h.releases hdrops) _ hmem hsender
    simp [hstate] at hfinished
  · exact absurd (ha.checking _ hpc).1 (by simp [hnames])
  · simp [halive'] at hgone
  · simp [halive] at hdead

/-! ### Steps -/

/-- A step that leaves the device, the gates and the log alone. -/
theorem Answering.frame (h : Answering client s) (hdevice : s'.device = s.device)
    (hgates : s'.gates = s.gates) (hreplied : repliedKeys s'.log = repliedKeys s.log)
    (hcalls : s'.calls = s.calls)
    (hpc : s'.control.pc ≠ .finished → s.control.pc ≠ .finished) : Answering client s' where
  connected := by rw [hdevice]; exact h.connected
  finished := by rw [hdevice, hreplied]; exact h.finished
  owed := by
    rw [System.working, hdevice, hgates, hreplied, hcalls]
    exact h.owed
  unborn hdead hrunning := by
    rw [hcalls]
    exact h.unborn (hdevice ▸ hdead) (hpc hrunning)

/-- The messages and the authorizations a turn of the device leaves. -/
theorem Answering.callTurn (h : Answering client s) (hturn : CallTurn s s')
    (hsettled : Releases s client → ∀ entry ∈ s.device.authGates, entry.2.sender = client →
      entry.2.state = .finished) :
    (∀ message ∈ s'.device.messages, message ∈ s.device.messages) ∧
      ∀ entry ∈ s'.device.authGates, entry.2.sender = client → entry.2.state = .finished →
        entry ∈ s.device.authGates := by
  cases hturn with
  | waited _ hmessages hauth _ _ _ _ =>
      rw [hmessages, hauth]
      exact ⟨fun _ => id, fun _ hmem _ _ => hmem⟩
  | taken _ hmsg hauth _ _ _ =>
      rw [hmsg, hauth]
      exact ⟨fun _ => List.mem_cons_of_mem _, fun _ hmem _ _ => hmem⟩
  | spent _ hmsg _ hauth _ _ _ _ _ =>
      rw [hmsg, hauth]
      exact ⟨fun _ => List.mem_cons_of_mem _, fun _ hmem _ _ => List.mem_of_mem_filter hmem⟩
  | opened _ hmsg _ _ hauth _ _ _ =>
      rw [hmsg, hauth]
      refine ⟨fun _ => List.mem_cons_of_mem _, fun entry hmem _ hstate => ?_⟩
      rcases List.mem_append.1 hmem with hmem | hmem
      · exact List.mem_of_mem_filter hmem
      · obtain rfl := List.mem_singleton.1 hmem
        exact absurd hstate nofun
  | @dropped sender message hdrops hmsg hauth _ _ _ =>
      rw [hauth]
      refine ⟨fun m => hmsg ▸ List.mem_cons_of_mem _, fun entry hmem hsender _ => ?_⟩
      rcases kept_or_finished hmem with ⟨hmem, -⟩ | ⟨-, hdropped, hold⟩
      · exact hmem
      · -- the client itself drops its authorizations: they are all finished already
        obtain rfl : sender = client := hdropped.symm.trans hsender
        exact absurd (hsettled (h.releases hdrops) _ hold hsender) nofun

theorem Answering.arrive (h : Answering client s) (halive : s.device.alive = true) (call : Call) :
    Answering client { s.putMessage (.call call) with calls := call.key :: s.calls } where
  connected message hmem := by
    rcases List.mem_append.1 hmem with hmem | hmem
    · exact h.connected message hmem
    · obtain rfl := List.mem_singleton.1 hmem
      rfl
  finished := h.finished
  owed _ key hkey hclient := by
    rw [arrive_working]
    rcases List.mem_cons.1 hkey with rfl | hkey
    · exact Multiset.mem_add.2 (Or.inl (Multiset.mem_add.2 (Or.inr
        (Multiset.mem_singleton_self _))))
    · have hmem := h.owed halive key hkey hclient
      simp only [Multiset.mem_add] at hmem ⊢
      exact hmem.imp_left Or.inl
  unborn hdead := absurd (halive.symm.trans hdead) nofun

theorem Answering.gateTurn (h : Answering client s) (hl : Ledgered s)
    (halive : s.device.alive = true) {gate : PolkitGate} (hmem : gate ∈ s.gates)
    (reply : PolkitReply) : Answering client (stepGate s gate reply) := by
  obtain ⟨done, hledger⟩ := hl.gates.gateTurn_ledger hmem reply
  have howed : ∀ key ∈ (stepGate s gate reply).calls, key.1 = client →
      key ∈ (stepGate s gate reply).working + repliedKeys (stepGate s gate reply).log := by
    intro key hkey hclient
    rw [stepGate_calls] at hkey
    exact hledger.kept (h.owed halive key hkey hclient)
  have hreplied : ∀ key ∈ repliedKeys s.log, key ∈ repliedKeys (stepGate s gate reply).log :=
    fun key hkey => hledger.accounted.replied hkey
  have hlive : (stepGate s gate reply).device.alive = s.device.alive := by rw [stepGate_eq]
  have hunborn : (stepGate s gate reply).device.alive = false →
      (stepGate s gate reply).control.pc ≠ .finished → (stepGate s gate reply).calls = [] :=
    fun hdead => absurd (halive.symm.trans (hlive.symm.trans hdead)) nofun
  -- an authorization that was not marked finished just now was finished before
  have hentry : ∀ state, ∀ entry ∈ (resolveGate s gate.call.key state).device.authGates,
      (state = .finished → gate.call.key ∈ repliedKeys (stepGate s gate reply).log) →
        entry.2.sender = client → entry.2.state = .finished →
          entry.1 ∈ repliedKeys (stepGate s gate reply).log := by
    intro state entry hentry hdenied hsender hstate
    obtain ⟨old, hold, hkey, -, hsame, hcase⟩ := mem_resolveGate hentry
    split at hcase
    · rename_i hgate
      rw [← hkey, hgate]
      exact hdenied (hcase.symm.trans hstate)
    · subst hcase
      exact hreplied _ (h.finished old hold hsender hstate)
  cases stepGate_turn hmem reply with
  | moved hdevice _ _ =>
      refine ⟨?_, ?_, fun _ => howed, hunborn⟩
      · rw [hdevice]
        exact h.connected
      · rw [hdevice]
        exact fun entry hmem hsender hstate => hreplied _ (h.finished entry hmem hsender hstate)
  | granted _ hmessages hauth _ _ _ =>
      refine ⟨fun message hmem => ?_, fun entry hmem => ?_, fun _ => howed, hunborn⟩
      · rw [hmessages] at hmem
        rcases List.mem_append.1 hmem with hmem | hmem
        · exact h.connected message hmem
        · obtain rfl := List.mem_singleton.1 hmem
          rfl
      · exact hentry .authorized entry (hauth ▸ hmem) nofun
  | denied _ hmessages hauth _ _ _ hdenied =>
      refine ⟨?_, fun entry hmem => ?_, fun _ => howed, hunborn⟩
      · rw [hmessages]
        exact h.connected
      · exact hentry .finished entry (hauth ▸ hmem) fun _ => hdenied

theorem Answering.controlTurn (h : Answering client s) (hrunning : s.control.pc ≠ .finished)
    {input : ControlInput} (hturn : ControlTurn s input s') : Answering client s' := by
  have hcreated : s'.device.messages = [] → s'.device.authGates = [] →
      (s'.device.alive = true → s'.calls = []) →
        (s'.device.alive = false → s'.control.pc ≠ .finished → s'.calls = []) →
          Answering client s' := by
    intro hmessages hauth hnone hunborn
    refine ⟨?_, ?_, fun halive key hkey => ?_, hunborn⟩
    · rw [hmessages]
      exact fun _ hmem => absurd hmem List.not_mem_nil
    · rw [hauth]
      nofun
    · rw [hnone halive] at hkey
      exact absurd hkey List.not_mem_nil
  rcases hturn.calls with hsame | ⟨u, hsame, rfl⟩ | ⟨hdead, hdevice, -, -, hcalls, -⟩
  · exact h.frame hsame.device hsame.gates (by rw [hsame.log]) hsame.calls fun _ => hrunning
  · obtain ⟨hgates, -, hcalls, hpc⟩ := finishControl_fields u
    have hdevice := finishControl_device u
    split at hdevice
    · exact hcreated (by rw [hdevice]; rfl) (by rw [hdevice]; rfl)
        (fun halive => absurd (hdevice ▸ halive) nofun) fun _ hnot => absurd hpc hnot
    · exact h.frame (hdevice.trans hsame.device) (hgates.trans hsame.gates)
        (by rw [finishControl_log, hsame.log]) (hcalls.trans hsame.calls) fun _ => hrunning
  · have hnone := hcalls.trans (h.unborn hdead hrunning)
    exact hcreated (by rw [hdevice]; rfl) (by rw [hdevice]; rfl) (fun _ => hnone) fun _ _ => hnone

/-- Steps that meet the two conditions keep the invariant. -/
theorem Answering.step (h : Answering client s) (hl : Ledgered s) (ha : Authorized s)
    {action : Action} (hstays : StaysConnected client s action)
    (hsettled : SettledRelease client s action) (hstep : step env s action = some s') :
    Answering client s' := by
  cases step_turn hstep with
  | arrived halive _ => exact h.arrive halive _
  | @device input _ halive hturn =>
      obtain ⟨-, hrun⟩ := step_device hstep
      have haccounted := hturn.accounted hl.gates halive
      have hlive := hturn.alive_eq
      obtain ⟨hmessages, hentries⟩ := h.callTurn (stepDevice_callTurn hrun) hsettled
      refine ⟨fun message hmem => h.connected message (hmessages message hmem),
        fun entry hmem hsender hstate => haccounted.replied
          (h.finished entry (hentries entry hmem hsender hstate) hsender hstate),
        fun halive' key hkey hclient => ?_,
        fun hdead => by simp [hlive, halive] at hdead⟩
      rw [hturn.calls_eq] at hkey
      exact haccounted.kept (h.not_loses hl ha halive halive' hsettled hclient)
        (h.owed halive key hkey hclient)
  | gate hmem halive => exact h.gateTurn hl halive hmem _
  | listen _ hturn =>
      rw [stepListen_fields hturn]
      exact h.frame rfl rfl rfl rfl id
  | @forwarded id args listen _ halive _ =>
      refine ⟨fun message hmem => ?_, h.finished, fun _ key hkey hclient => ?_,
        fun hdead => by simp [System.putMessage, halive] at hdead⟩
      · rcases List.mem_append.1 hmem with hmem | hmem
        · exact h.connected message hmem
        · obtain rfl := List.mem_singleton.1 hmem
          exact hstays
      · rw [forward_working]
        exact h.owed halive key hkey hclient
  | operation _ hturn =>
      obtain ⟨hdevice, hgates, -, hcalls, hcontrol, news, hlog, hnews⟩ := hturn.calls
      refine h.frame hdevice hgates ?_ hcalls (by rw [hcontrol]; exact id)
      rw [hlog, repliedKeys_append]
      refine (congrArg (· + _) ?_).trans (zero_add _)
      exact congrArg _ (List.filterMap_eq_nil_iff.2 fun entry hmem => (hnews entry hmem).2.1)
  | control hrunning hturn => exact h.controlTurn hrunning hturn
  | rawDropped _ => exact h
  | _ => exact h.frame rfl rfl rfl rfl id

theorem Answering.start (hs : Started s) : Answering client s := by
  obtain ⟨handle, file, rfl⟩ := hs
  exact ⟨nofun, nofun, nofun, fun _ _ => rfl⟩

end Invariant

/-! ### Runs -/

/-- **A connected client that waits for no authorization when it releases gets one reply to every
call**: one at most while somebody works on the call, and one afterwards. -/
theorem answered_once {env : Environment} {client : Client} {s : System}
    (h : Transition.Reaches (step env) (fun s action =>
      StaysConnected client s action ∧ SettledRelease client s action) Started s)
    (halive : s.device.alive = true) : AnsweredOnce client s := by
  have hledger := Ledgered.of_reaches h
  have hinv : Answering client s := by
    refine Transition.Reaches.invariant ?_ ?_ h
    · exact fun _ => Answering.start
    · intro s action s' hreach hinv hok hstep
      exact hinv.step (.of_reaches hreach) (.of_reaches hreach) hok.1 hok.2 hstep
  intro key hkey hclient
  have hcount : (repliedKeys s.log).count key ≤ 1 :=
    Multiset.nodup_iff_count_le_one.1 (Multiset.nodup_add.1 hledger.replied).2.1 key
  refine ⟨hcount, fun hidle => le_antisymm hcount (Multiset.one_le_count_iff_mem.2 ?_)⟩
  exact (Multiset.mem_add.1 (hinv.owed halive key hkey hclient)).resolve_left hidle

/-- A client that waits is told that it may not delete the finger. -/
theorem answered_once_denied :
    ∃ s, homeRun (deleteParked ++ [.gate 1 .error, .gate 1 .error]) = some s ∧
      AnsweredOnce (ascii ":1.1") s := by
  obtain ⟨s, hs, hok, halive⟩ : ∃ s,
      homeRun (deleteParked ++ [.gate 1 .error, .gate 1 .error]) = some s ∧
        homeChecked (fun s action => StaysConnected (ascii ":1.1") s action ∧
          SettledRelease (ascii ":1.1") s action)
            (deleteParked ++ [.gate 1 .error, .gate 1 .error]) = some s ∧
          s.device.alive = true := ⟨_, rfl, rfl, rfl⟩
  exact ⟨s, hs, answered_once (homeChecked_reaches hok) halive⟩

/-- The same client releases the device before polkit has answered. -/
def releaseEarly : List Action :=
  deleteParked ++ [.call ⟨ascii ":1.1", 3, .release, none⟩, smoothDevice, smoothDevice]

/-- A client that releases too early gets no reply. -/
theorem answered_once_withdrawn :
    ¬∀ (env : Environment) (client : Client) (s : System),
      Transition.Reaches (step env) (StaysConnected client) Started s →
        s.device.alive = true → AnsweredOnce client s := by
  intro hclaim
  obtain ⟨s, hok, halive, hmade, hidle, hreplied⟩ : ∃ s,
      homeChecked (StaysConnected (ascii ":1.1")) releaseEarly = some s ∧
        s.device.alive = true ∧ (ascii ":1.1", 2) ∈ s.calls ∧ (ascii ":1.1", 2) ∉ s.working ∧
          (ascii ":1.1", 2) ∉ repliedKeys s.log :=
    ⟨_, rfl, rfl, by decide, by decide, by decide⟩
  have hone := (hclaim homeEnvironment (ascii ":1.1") s (homeChecked_reaches hok) halive _ hmade
    rfl).2 hidle
  rw [Multiset.count_eq_zero_of_notMem hreplied] at hone
  exact absurd hone nofun

end Fpc
