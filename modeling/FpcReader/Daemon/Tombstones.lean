/-
**Calls of a client that has released the device.**

When a client releases the device or disconnects, its pending gates are cancelled, and a call that
has been authorized and waits in the queue again finds its authorization marked finished.  That mark
is what keeps the call from running.  It stays as long as the device creates no gate and drops no
authorizations of the same client before it gets to the call.

Main definitions:

* `Fpc.KeepsTombstone` — the mark of a call outlives the copy in the queue;
* `Fpc.Marked` — a copy in the queue has an authorization;
* `Fpc.Cancelled` — the call has been cancelled;
* `Fpc.NoFurther` — the call is not executed, not asked about, and its copy is dropped.

Main results:

* `Fpc.Marked.step`, `Fpc.Cancelled.step` — steps that keep the mark keep the invariants;
* `Fpc.release_cancels` — **a call whose gate existed does not run after a release of its client**;
* `Fpc.release_cancels_pruned` — it may run when the mark is lost.
-/

import FpcReader.Daemon.CallTurns

set_option relaxedAutoImplicit false
set_option autoImplicit false

namespace Fpc

open Bytes

/-! ### Marks -/

/-- While a copy of a cancelled call is in the queue, the device creates no gate and drops no
authorizations of the client. -/
def KeepsTombstone (key : Key) (s : System) : Action → Prop
  | .device _ => (∃ entry ∈ s.device.authGates, entry.1 = key ∧ entry.2.state = .finished) →
      key ∈ queuedKeys s.device.messages → ¬OpensGate s ∧ ¬Drops s key.1
  | _ => True

instance (key : Key) : ∀ s action, Decidable (KeepsTombstone key s action)
  | _, .device _ => inferInstanceAs (Decidable (_ → _ → _))
  | _, .call _ | _, .nameOwnerChanged _ _ | _, .gate _ _ | _, .listen _ _ | _, .operation _ _ _
  | _, .control _ | _, .rawFrame _ | _, .tlsFrame _ | _, .answer _ | _, .tlsReady
  | _, .transportFailed | _, .prepareForSleep _ => isTrue trivial

/-- The call has been made; a copy of it in the queue needs an authorization and has one. -/
structure Marked (key : Key) (s : System) : Prop where
  made : key ∈ s.calls
  queued : ∀ call, .call call ∈ s.device.messages → call.key = key →
    call.method.gated = true ∧ ∃ entry ∈ s.device.authGates, entry.1 = key

/-- The call has been cancelled: its authorization is finished, its gate is over, and the device is
not at work on it. -/
structure Cancelled (key : Key) (s : System) : Prop extends Marked key s where
  finished : ∀ entry ∈ s.device.authGates, entry.1 = key → entry.2.state = .finished
  parked : ∀ gate ∈ s.gates, gate.call.key = key → gate.pc = .denying
  idle : ∀ call, s.device.pc = .checkUid call → call.key ≠ key

/-- Every gate asks about a call that needs an authorization. -/
def AllGated (s : System) : Prop := ∀ gate ∈ s.gates, gate.call.method.gated = true

section Turns

variable {env : Environment} {s s' : System} {key : Key}

theorem mem_queuedKeys {messages : List Message} {call : Call} (hmem : .call call ∈ messages) :
    call.key ∈ queuedKeys messages :=
  Multiset.mem_coe.2 (List.mem_map_of_mem (List.mem_filterMap.2 ⟨_, hmem, rfl⟩))

/-! ### Gates ask about gated calls -/

theorem AllGated.step (h : AllGated s) {action : Action} (hstep : step env s action = some s') :
    AllGated s' := by
  cases step_turn hstep with
  | @device input _ halive hturn =>
      obtain ⟨-, hrun⟩ := step_device hstep
      cases stepDevice_callTurn hrun with
      | waited _ _ _ hgates _ _ _ | taken _ _ _ hgates _ _ | spent _ _ _ _ hgates _ _ _ _ =>
          unfold AllGated
          rw [hgates]
          exact h
      | opened _ _ hgated _ _ hgates _ _ =>
          intro gate hmem
          rw [hgates] at hmem
          rcases List.mem_append.1 hmem with hmem | hmem
          · exact h gate hmem
          · obtain rfl := List.mem_singleton.1 hmem
            exact hgated
      | dropped _ _ _ hgates _ _ =>
          intro gate hmem
          rw [hgates] at hmem
          exact h gate (List.mem_of_mem_filter hmem)
  | @gate id reply gate hmem halive =>
      intro gate' hgate'
      have hkept : ∃ g ∈ s.gates, g.call = gate'.call := by
        unfold stepGate at hgate'
        cases hpc : gate.pc with
        | sendCheck =>
            rw [hpc] at hgate'
            obtain ⟨g, hg, rfl⟩ := List.mem_map.1 hgate'
            split
            · exact ⟨gate, hmem, rfl⟩
            · exact ⟨g, hg, rfl⟩
        | denying =>
            rw [hpc] at hgate'
            exact ⟨gate', List.mem_of_mem_filter hgate', rfl⟩
        | waiting =>
            rw [hpc] at hgate'
            dsimp only at hgate'
            unfold checkDone at hgate'
            split at hgate'
            · exact ⟨gate', List.mem_of_mem_filter hgate', rfl⟩
            · obtain ⟨g, hg, rfl⟩ := List.mem_map.1 hgate'
              split
              · exact ⟨gate, hmem, rfl⟩
              · exact ⟨g, hg, rfl⟩
      obtain ⟨g, hg, hcall⟩ := hkept
      exact hcall ▸ h g hg
  | listen _ hturn =>
      rw [stepListen_fields hturn]
      exact h
  | operation _ hturn =>
      obtain ⟨-, hgates, -⟩ := hturn.calls
      unfold AllGated
      rw [hgates]
      exact h
  | control _ hturn =>
      unfold AllGated
      rcases hturn.calls with hsame | ⟨u, hsame, rfl⟩ | ⟨-, -, hgates, -⟩
      · rw [hsame.gates]
        exact h
      · rw [(finishControl_fields u).1, hsame.gates]
        exact h
      · rw [hgates]
        exact h
  | _ => exact h

theorem AllGated.of_reaches {ok : System → Action → Prop}
    (h : Transition.Reaches (Fpc.step env) ok Started s) : AllGated s := by
  refine Transition.Reaches.invariant ?_ (fun _ hinv _ hstep => hinv.step hstep) h
  rintro _ ⟨handle, file, rfl⟩
  nofun

/-! ### Copies keep their authorization -/

/-- What is not dropped is kept or marked. -/
theorem dropAuthGates_keeps {sender : Client} {entry : Key × AuthGate}
    (hmem : entry ∈ s.device.authGates)
    (hkept : entry.2.sender ≠ sender ∨ entry.2.state = .authorized) :
    ∃ entry' ∈ (dropAuthGates s sender).device.authGates, entry'.1 = entry.1 := by
  refine ⟨_, List.mem_map_of_mem (List.mem_filter.2 ⟨hmem, ?_⟩), ?_⟩
  · rcases hkept with hkept | hkept <;> simp [hkept]
  · split <;> rfl

/-- A queued call does not wait for polkit. -/
theorem Ledgered.not_pending (hl : Ledgered s) {call : Call}
    (hqueued : .call call ∈ s.device.messages) {entry : Key × AuthGate}
    (hmem : entry ∈ s.device.authGates) (hkey : entry.1 = call.key) :
    entry.2.state ≠ .pending := by
  intro hstate
  obtain ⟨gate, hgate, hpc, hsame⟩ := hl.gates.asking entry hmem hstate
  have hnodup := (Multiset.nodup_add.1 hl.working).1
  refine Multiset.disjoint_left.1 (Multiset.nodup_add.1 hnodup).2.2 (mem_queuedKeys hqueued) ?_
  rw [← hkey, ← hsame]
  exact mem_parkedKeys hgate hpc

/-- The next call is not queued a second time. -/
theorem Ledgered.head_fresh (hl : Ledgered s) {call : Call} {rest : List Message}
    (hmsg : s.device.messages = .call call :: rest) {other : Call}
    (hmem : .call other ∈ rest) : other.key ≠ call.key := by
  intro hkey
  have hnodup := (Multiset.nodup_add.1 (Multiset.nodup_add.1 hl.working).1).1
  rw [hmsg, queuedKeys_cons] at hnodup
  refine Multiset.disjoint_left.1 (Multiset.nodup_add.1 hnodup).2.2 ?_ (mem_queuedKeys hmem)
  rw [hkey]
  simp [Message.caller]

theorem Marked.callTurn (h : Marked key s) (hl : Ledgered s)
    (hkeeps : (∃ entry ∈ s.device.authGates, entry.1 = key ∧ entry.2.state = .finished) →
      key ∈ queuedKeys s.device.messages → ¬OpensGate s ∧ ¬Drops s key.1)
    (hturn : CallTurn s s') (hcalls : s'.calls = s.calls) : Marked key s' := by
  refine ⟨hcalls ▸ h.made, fun call hmem hkey => ?_⟩
  cases hturn with
  | waited _ hmessages hauth _ _ _ _ =>
      rw [hauth]
      exact h.queued call (hmessages ▸ hmem) hkey
  | taken _ hmsg hauth _ _ _ =>
      rw [hauth]
      exact h.queued call (hmsg ▸ List.mem_cons_of_mem _ hmem) hkey
  | @spent spent _ _ _ hmsg _ hauth _ _ _ _ _ =>
      obtain ⟨hgated, entry, hentry, hsame⟩ :=
        h.queued call (hmsg ▸ List.mem_cons_of_mem _ hmem) hkey
      have hne := hl.head_fresh hmsg hmem
      refine ⟨hgated, entry, ?_, hsame⟩
      rw [hauth]
      refine List.mem_filter.2 ⟨hentry, ?_⟩
      simpa [hsame, ← hkey] using hne
  | opened hopens hmsg _ _ hauth _ _ _ =>
      have hold : .call call ∈ s.device.messages := hmsg ▸ List.mem_cons_of_mem _ hmem
      obtain ⟨hgated, entry, hentry, hsame⟩ := h.queued call hold hkey
      refine ⟨hgated, entry, ?_, hsame⟩
      rw [hauth]
      refine List.mem_append_left _ (List.mem_filter.2 ⟨hentry, ?_⟩)
      -- a mark that is lost would leave the copy behind
      simp only [ne_eq, decide_eq_true_eq]
      exact fun hstate => (hkeeps ⟨entry, hentry, hsame, hstate⟩
        (hkey ▸ mem_queuedKeys hold)).1 hopens
  | @dropped sender _ hdrops hmsg hauth _ _ _ =>
      have hold : .call call ∈ s.device.messages := hmsg ▸ List.mem_cons_of_mem _ hmem
      obtain ⟨hgated, entry, hentry, hsame⟩ := h.queued call hold hkey
      have hkept : entry.2.sender ≠ sender ∨ entry.2.state = .authorized := by
        by_cases hsender : entry.2.sender = sender
        · refine Or.inr ?_
          cases hstate : entry.2.state with
          | authorized => rfl
          | pending => exact absurd hstate (hl.not_pending hold hentry (hsame.trans hkey.symm))
          | finished =>
              refine absurd ?_ (hkeeps ⟨entry, hentry, hsame, hstate⟩
                (hkey ▸ mem_queuedKeys hold)).2
              rw [← hsame, ← hl.gates.sender entry hentry, hsender]
              exact hdrops
        · exact Or.inl hsender
      obtain ⟨entry', hentry', hsame'⟩ := dropAuthGates_keeps hentry hkept
      exact ⟨hgated, entry', hauth ▸ hentry', hsame'.trans hsame⟩

/-- A result that is noted forgets no authorization. -/
theorem resolveGate_keeps {resolved : Key} {state : AuthState} {entry : Key × AuthGate}
    (hmem : entry ∈ s.device.authGates) :
    ∃ entry' ∈ (resolveGate s resolved state).device.authGates, entry'.1 = entry.1 := by
  refine ⟨_, List.mem_map_of_mem hmem, ?_⟩
  split <;> rfl

theorem Marked.gateTurn (h : Marked key s) (hl : Ledgered s) (hall : AllGated s)
    (halive : s.device.alive = true) {gate : PolkitGate} (hmem : gate ∈ s.gates)
    (reply : PolkitReply) : Marked key (stepGate s gate reply) := by
  refine ⟨(stepGate_calls s gate reply).symm ▸ h.made, fun call hcall hkey => ?_⟩
  have hresolved : ∀ state, (stepGate s gate reply).device.authGates =
      (resolveGate s gate.call.key state).device.authGates →
        (∃ entry ∈ s.device.authGates, entry.1 = key) →
          ∃ entry ∈ (stepGate s gate reply).device.authGates, entry.1 = key := by
    rintro state hauth ⟨entry, hentry, hsame⟩
    obtain ⟨entry', hentry', hsame'⟩ := resolveGate_keeps hentry
    exact ⟨entry', hauth ▸ hentry', hsame'.trans hsame⟩
  cases stepGate_turn hmem reply with
  | moved hdevice _ _ =>
      rw [hdevice] at hcall ⊢
      exact h.queued call hcall hkey
  | granted hpc hmessages hauth _ _ _ =>
      rw [hmessages] at hcall
      rcases List.mem_append.1 hcall with hcall | hcall
      · obtain ⟨hgated, hentry⟩ := h.queued call hcall hkey
        exact ⟨hgated, hresolved _ hauth hentry⟩
      · -- the copy comes from the gate, whose authorization is there
        obtain rfl := Message.call.inj (List.mem_singleton.1 hcall)
        have hentry := hl.gates.pending halive gate hmem (by rw [hpc]; nofun)
        exact ⟨hall gate hmem, hresolved _ hauth ⟨_, hentry, hkey⟩⟩
  | denied _ hmessages hauth _ _ _ _ =>
      obtain ⟨hgated, hentry⟩ := h.queued call (hmessages ▸ hcall) hkey
      exact ⟨hgated, hresolved _ hauth hentry⟩

theorem Marked.controlTurn (h : Marked key s) {input : ControlInput}
    (hturn : ControlTurn s input s') : Marked key s' := by
  have hempty : s'.device.messages = [] → s'.calls = s.calls → Marked key s' := by
    intro hmessages hcalls
    refine ⟨hcalls ▸ h.made, fun call hcall => ?_⟩
    rw [hmessages] at hcall
    exact absurd hcall List.not_mem_nil
  have hsame : s'.device = s.device → s'.calls = s.calls → Marked key s' := by
    intro hdevice hcalls
    refine ⟨hcalls ▸ h.made, ?_⟩
    rw [hdevice]
    exact h.queued
  rcases hturn.calls with hkept | ⟨u, hkept, rfl⟩ | ⟨-, hdevice, -, -, hcalls, -⟩
  · exact hsame hkept.device hkept.calls
  · have hcalls := (finishControl_fields u).2.2.1.trans hkept.calls
    have hdevice := finishControl_device u
    split at hdevice
    · exact hempty (by rw [hdevice]; rfl) hcalls
    · exact hsame (hdevice.trans hkept.device) hcalls
  · exact hempty (by rw [hdevice]; rfl) hcalls

/-- Steps that keep the mark of the call keep the invariant. -/
theorem Marked.step (h : Marked key s) (hl : Ledgered s) (hall : AllGated s) {action : Action}
    (hkeeps : KeepsTombstone key s action) (hstep : step env s action = some s') :
    Marked key s' := by
  cases step_turn hstep with
  | @arrived call _ hnew =>
      refine ⟨List.mem_cons_of_mem _ h.made, fun other hmem hkey => ?_⟩
      rcases List.mem_append.1 hmem with hmem | hmem
      · exact h.queued other hmem hkey
      · obtain rfl := Message.call.inj (List.mem_singleton.1 hmem)
        exact absurd (hkey ▸ h.made) hnew
  | @device input _ halive hturn =>
      obtain ⟨-, hrun⟩ := step_device hstep
      exact h.callTurn hl hkeeps (stepDevice_callTurn hrun) hturn.calls_eq
  | gate hmem halive => exact h.gateTurn hl hall halive hmem _
  | listen _ hturn =>
      rw [stepListen_fields hturn]
      exact ⟨h.made, h.queued⟩
  | forwarded _ _ _ =>
      refine ⟨h.made, fun other hmem hkey => ?_⟩
      rcases List.mem_append.1 hmem with hmem | hmem
      · exact h.queued other hmem hkey
      · simp at hmem
  | operation _ hturn =>
      obtain ⟨hdevice, -, -, hcalls, -⟩ := hturn.calls
      refine ⟨hcalls ▸ h.made, ?_⟩
      rw [hdevice]
      exact h.queued
  | control _ hturn => exact h.controlTurn hturn
  | rawDropped _ => exact h
  | _ => exact ⟨h.made, h.queued⟩

/-! ### Cancelled calls stay cancelled -/

theorem Cancelled.callTurn (h : Cancelled key s) (hmarked : Marked key s')
    (hturn : CallTurn s s') : Cancelled key s' := by
  cases hturn with
  | waited _ _ hauth hgates hidle _ _ =>
      refine ⟨hmarked, ?_, ?_, fun call hc => absurd hc (hidle call)⟩
      · rw [hauth]
        exact h.finished
      · rw [hgates]
        exact h.parked
  | taken _ hmsg hauth hgates hidle _ =>
      refine ⟨hmarked, ?_, ?_, fun call hc hkey => ?_⟩
      · rw [hauth]
        exact h.finished
      · rw [hgates]
        exact h.parked
      · obtain ⟨rfl, hfree⟩ := hidle call hc
        have hgated := (h.queued call (hmsg ▸ List.mem_cons_self) hkey).1
        exact absurd (hfree.symm.trans hgated) nofun
  | spent _ _ hentry hauth hgates hidle _ _ _ =>
      refine ⟨hmarked, fun entry hmem => ?_, ?_, fun call hc hkey => ?_⟩
      · rw [hauth] at hmem
        exact h.finished entry (List.mem_of_mem_filter hmem)
      · rw [hgates]
        exact h.parked
      · obtain ⟨rfl, hstate⟩ := hidle call hc
        exact absurd ((h.finished _ hentry hkey).symm.trans hstate) nofun
  | @opened call _ hmsg _ hnew hauth hgates hpc _ =>
      -- the gate belongs to another call: this one would have an authorization
      have hother : call.key ≠ key := by
        intro hkey
        obtain ⟨-, entry, hentry, hsame⟩ := h.queued call (hmsg ▸ List.mem_cons_self) hkey
        exact hnew entry hentry (hsame.trans hkey.symm)
      refine ⟨hmarked, fun entry hmem hkey => ?_, fun gate hmem hkey => ?_, fun c hc => ?_⟩
      · rw [hauth] at hmem
        rcases List.mem_append.1 hmem with hmem | hmem
        · exact h.finished entry (List.mem_of_mem_filter hmem) hkey
        · obtain rfl := List.mem_singleton.1 hmem
          exact absurd hkey hother
      · rw [hgates] at hmem
        rcases List.mem_append.1 hmem with hmem | hmem
        · exact h.parked gate hmem hkey
        · obtain rfl := List.mem_singleton.1 hmem
          exact absurd hkey hother
      · exact absurd (hpc.symm.trans hc) nofun
  | dropped _ _ hauth hgates hidle _ =>
      refine ⟨hmarked, fun entry hmem hkey => ?_, fun gate hmem => ?_,
        fun call hc => absurd hc (hidle call)⟩
      · rw [hauth] at hmem
        rcases kept_or_finished hmem with ⟨hmem, -⟩ | ⟨hstate, -⟩
        · exact h.finished entry hmem hkey
        · exact hstate
      · rw [hgates] at hmem
        exact h.parked gate (List.mem_of_mem_filter hmem)

/-- A cancelled call is not executed. -/
theorem Cancelled.handled (h : Cancelled key s) (hturn : CallTurn s s') :
    (handledKeys s'.log).count key = (handledKeys s.log).count key := by
  cases hturn with
  | @waited handled _ _ _ _ _ hhandled hle =>
      rw [hhandled, Multiset.count_add]
      refine (congrArg (· + _) (Multiset.count_eq_zero_of_notMem fun hmem => ?_)).trans (zero_add _)
      have hmem := Multiset.mem_of_le hle hmem
      cases hpc : s.device.pc with
      | checkUid call =>
          rw [hpc] at hmem
          exact h.idle call hpc (Multiset.mem_singleton.1 hmem).symm
      | _ =>
          rw [hpc] at hmem
          exact absurd hmem (Multiset.notMem_zero key)
  | @spent call gate handled _ _ hentry _ _ _ hhandled hle hnone =>
      rw [hhandled, Multiset.count_add]
      refine (congrArg (· + _) (Multiset.count_eq_zero_of_notMem fun hmem => ?_)).trans (zero_add _)
      have hkey := Multiset.mem_singleton.1 (Multiset.mem_of_le hle hmem)
      have hstate := h.finished _ hentry hkey.symm
      rw [hnone (by rw [hstate]; nofun)] at hmem
      exact absurd hmem (Multiset.notMem_zero key)
  | taken _ _ _ _ _ hhandled | opened _ _ _ _ _ _ _ hhandled | dropped _ _ _ _ _ hhandled =>
      rw [hhandled]

theorem Cancelled.gateTurn (h : Cancelled key s) {gate : PolkitGate} (hmem : gate ∈ s.gates)
    {reply : PolkitReply} (hmarked : Marked key (stepGate s gate reply)) :
    Cancelled key (stepGate s gate reply) ∧
      handledKeys (stepGate s gate reply).log = handledKeys s.log := by
  -- polkit has answered another call
  have hresolved : gate.pc = .waiting → ∀ state,
      ∀ entry ∈ (resolveGate s gate.call.key state).device.authGates, entry.1 = key →
        entry.2.state = .finished := by
    intro hpc state entry hentry hkey
    obtain ⟨old, hold, hsame, -, -, hcase⟩ := mem_resolveGate hentry
    split at hcase
    · rename_i hgate
      have := h.parked gate hmem (hgate.symm.trans (hsame.trans hkey))
      exact absurd (hpc.symm.trans this) nofun
    · subst hcase
      exact h.finished old hold hkey
  cases stepGate_turn hmem reply with
  | moved hdevice hlog hgates =>
      refine ⟨⟨hmarked, ?_, fun g' hg' hkey => ?_, ?_⟩, by rw [hlog]⟩
      · rw [hdevice]
        exact h.finished
      · obtain ⟨g, hg, hcall, hpc⟩ := hgates g' hg'
        by_contra hasked
        exact hpc hasked (h.parked g hg (hcall ▸ hkey))
      · rw [hdevice]
        exact h.idle
  | granted hpc _ hauth hidle hgates hhandled =>
      refine ⟨⟨hmarked, fun entry hentry => hresolved hpc _ entry (hauth ▸ hentry),
        fun g' hg' => h.parked g' (hgates g' hg'), ?_⟩, hhandled⟩
      rw [hidle]
      exact h.idle
  | denied hpc _ hauth hidle hgates hhandled _ =>
      refine ⟨⟨hmarked, fun entry hentry => hresolved hpc _ entry (hauth ▸ hentry),
        fun g' hg' hkey => ?_, ?_⟩, hhandled⟩
      · rcases hgates g' hg' with hold | hdenying
        · exact h.parked g' hold hkey
        · exact hdenying
      · rw [hidle]
        exact h.idle

theorem Cancelled.controlTurn (h : Cancelled key s) {input : ControlInput}
    (hturn : ControlTurn s input s') : Cancelled key s' := by
  have hmarked := h.toMarked.controlTurn hturn
  have hempty : s'.device.authGates = [] → s'.device.pc = .run → s'.gates = s.gates →
      Cancelled key s' := by
    intro hauth hpc hgates
    refine ⟨hmarked, ?_, ?_, ?_⟩
    · rw [hauth]
      nofun
    · rw [hgates]
      exact h.parked
    · rw [hpc]
      nofun
  have hsame : s'.device = s.device → s'.gates = s.gates → Cancelled key s' := by
    intro hdevice hgates
    refine ⟨hmarked, ?_, ?_, ?_⟩
    · rw [hdevice]
      exact h.finished
    · rw [hgates]
      exact h.parked
    · rw [hdevice]
      exact h.idle
  rcases hturn.calls with hkept | ⟨u, hkept, rfl⟩ | ⟨-, hdevice, hgates, -⟩
  · exact hsame hkept.device hkept.gates
  · have hgates := (finishControl_fields u).1.trans hkept.gates
    have hdevice := finishControl_device u
    split at hdevice
    · exact hempty (by rw [hdevice]; rfl) (by rw [hdevice]; rfl) hgates
    · exact hsame (hdevice.trans hkept.device) hgates
  · exact hempty (by rw [hdevice]; rfl) (by rw [hdevice]; rfl) hgates

/-- Steps that keep the mark of the call neither revive nor execute it. -/
theorem Cancelled.step (h : Cancelled key s) (hl : Ledgered s) (hall : AllGated s)
    {action : Action} (hkeeps : KeepsTombstone key s action)
    (hstep : step env s action = some s') :
    Cancelled key s' ∧ (handledKeys s'.log).count key = (handledKeys s.log).count key := by
  have hmarked := h.toMarked.step hl hall hkeeps hstep
  cases step_turn hstep with
  | @device input _ halive hturn =>
      obtain ⟨-, hrun⟩ := step_device hstep
      exact ⟨h.callTurn hmarked (stepDevice_callTurn hrun), h.handled (stepDevice_callTurn hrun)⟩
  | gate hmem halive =>
      obtain ⟨hcancelled, hhandled⟩ := h.gateTurn hmem hmarked
      exact ⟨hcancelled, by rw [hhandled]⟩
  | listen _ hturn =>
      rw [stepListen_fields hturn] at hmarked ⊢
      exact ⟨⟨hmarked, h.finished, h.parked, h.idle⟩, rfl⟩
  | operation _ hturn =>
      obtain ⟨hdevice, hgates, -, -, -, news, hlog, hnews⟩ := hturn.calls
      refine ⟨⟨hmarked, ?_, ?_, ?_⟩, ?_⟩
      · rw [hdevice]
        exact h.finished
      · rw [hgates]
        exact h.parked
      · rw [hdevice]
        exact h.idle
      · rw [hlog, handledKeys_append, Multiset.count_add]
        refine (congrArg (· + _) ?_).trans (zero_add _)
        have hnone : news.filterMap LogEntry.handledKey = [] :=
          List.filterMap_eq_nil_iff.2 fun entry hmem => (hnews entry hmem).1
        simp [handledKeys, hnone]
  | control _ hturn => exact ⟨h.controlTurn hturn, by rw [hturn.log]⟩
  | rawDropped _ => exact ⟨h, rfl⟩
  | _ => exact ⟨⟨hmarked, h.finished, h.parked, h.idle⟩, rfl⟩

/-! ### The release -/

/-- Once the authorizations of its sender have been dropped, a marked call is cancelled. -/
theorem Marked.cancelled (h : Marked key s) (hl : Ledgered s) (halive : s.device.alive = true)
    {input : DeviceInput} (hdrops : Drops s key.1) (hkeeps : KeepsTombstone key s (.device input))
    (hstep : stepDevice env s input = some s') : Cancelled key s' := by
  have hmarked := h.callTurn hl hkeeps (stepDevice_callTurn hstep)
    (stepDevice_turn hstep).calls_eq
  obtain ⟨hauth, hgates, -, hmoved⟩ := stepDevice_drops hdrops hstep
  have hdropped := hl.gates.dropAuthGates key.1
  refine ⟨hmarked, fun entry hmem hkey => ?_, fun gate hmem hkey => ?_,
    fun call hc => absurd hc (hmoved call)⟩
  · rw [hauth] at hmem
    rcases kept_or_finished hmem with ⟨hmem, hother⟩ | ⟨hstate, -⟩
    · exact absurd ((hl.gates.sender entry hmem).trans (congrArg Prod.fst hkey)) hother
    · exact hstate
  · -- a gate that still asks has an authorization, which is not finished
    by_contra hasked
    rw [hgates] at hmem
    have hentry := hdropped.pending halive gate hmem hasked
    rcases kept_or_finished hentry with ⟨-, hother⟩ | ⟨hstate, -⟩
    · exact hother (congrArg Prod.fst hkey)
    · exact absurd hstate nofun

end Turns

/-! ### Runs -/

/-- Between two states a call has not been executed; in the second one no gate asks about it, and a
copy of it that is next in the queue is dropped, whatever the bus says. -/
structure NoFurther (env : Environment) (key : Key) (s s' : System) : Prop where
  handled : (handledKeys s'.log).count key = (handledKeys s.log).count key
  asked : ∀ gate ∈ s'.gates, gate.call.key = key → gate.pc = .denying
  dropped : ∀ call rest input, s'.device.pc = .run →
    s'.device.messages = .call call :: rest → call.key = key →
      stepDevice env s' input = some (eraseGate (s'.popMessage rest) key).runDevice

theorem Cancelled.dropped {env : Environment} {s : System} {key : Key} (h : Cancelled key s)
    {call : Call} {rest : List Message} {input : DeviceInput} (hpc : s.device.pc = .run)
    (hmsg : s.device.messages = .call call :: rest) (hkey : call.key = key) :
    stepDevice env s input = some (eraseGate (s.popMessage rest) key).runDevice := by
  obtain ⟨hgated, entry, hentry, hsame⟩ := h.queued call (hmsg ▸ List.mem_cons_self) hkey
  subst hkey
  have hpolkit : checkPolkit env input.disk (s.popMessage rest) call =
      (eraseGate (s.popMessage rest) call.key).runDevice := by
    unfold checkPolkit
    cases hfind : (s.popMessage rest).device.authGates.find? fun e => e.1 = call.key with
    | none => exact absurd hsame (by simpa using List.find?_eq_none.1 hfind entry hentry)
    | some found =>
        obtain ⟨key, gate⟩ := found
        have hkey : key = call.key := by simpa using List.find?_some hfind
        have hstate : gate.state = .finished :=
          h.finished _ (List.mem_of_find?_eq_some hfind) hkey
        dsimp only
        rw [if_pos (by rw [hstate]; nofun)]
  rw [stepDevice_message hpc hmsg, handleMessage_gated hgated, hpolkit]

/-- **A call whose gate existed does not run after a release of its client**: after a release or a
disconnect has been handled, no step executes the call or asks polkit about it again, and a copy of
it in the queue is dropped. -/
theorem release_cancels {env : Environment} {s₀ s₁ s₂ s₃ : System} {gate : PolkitGate}
    {input : DeviceInput} (h₀ : Transition.Reachable (step env) Started s₀)
    (hgate : gate ∈ s₀.gates) (hasked : gate.pc ≠ .denying)
    (h₁ : Transition.Reaches (step env) (KeepsTombstone gate.call.key) (· = s₀) s₁)
    (hdrops : Drops s₁ gate.call.sender)
    (hkeeps : KeepsTombstone gate.call.key s₁ (.device input))
    (h₂ : step env s₁ (.device input) = some s₂)
    (h₃ : Transition.Reaches (step env) (KeepsTombstone gate.call.key) (· = s₂) s₃) :
    NoFurther env gate.call.key s₂ s₃ := by
  have hmarked₀ : Marked gate.call.key s₀ := by
    have hl := Ledgered.of_reaches h₀
    have hparked := mem_parkedKeys hgate hasked
    have hworking : gate.call.key ∈ s₀.working :=
      Multiset.mem_add.2 (Or.inl (Multiset.mem_add.2 (Or.inr hparked)))
    refine ⟨hl.known _ (Multiset.mem_add.2 (Or.inl (Multiset.mem_add.2 (Or.inl hworking)))),
      fun call hmem hkey => ?_⟩
    have hnodup := (Multiset.nodup_add.1 hl.working).1
    exact absurd hparked (Multiset.disjoint_left.1 (Multiset.nodup_add.1 hnodup).2.2
      (hkey ▸ mem_queuedKeys hmem))
  -- up to the release the copy of the call keeps its authorization
  have hmarked₁ : Marked gate.call.key s₁ := by
    refine Transition.Reaches.invariant ?_ (fun hreach hinv hok hstep => ?_) h₁
    · rintro _ rfl
      exact hmarked₀
    · have hreach := h₀.trans hreach
      exact hinv.step (.of_reaches hreach) (.of_reaches hreach) hok hstep
  have hreach₁ := h₀.trans h₁
  have hcancelled₂ : Cancelled gate.call.key s₂ := by
    have halive : s₁.device.alive = true := by
      by_contra hdead
      simp [step, hdead] at h₂
    have hrun : stepDevice env s₁ input = some s₂ := by simpa only [step, if_pos halive] using h₂
    exact hmarked₁.cancelled (.of_reaches hreach₁) halive hdrops hkeeps hrun
  have hreach₂ : Transition.Reachable (step env) Started s₂ := .step hreach₁ trivial h₂
  have hinv : Cancelled gate.call.key s₃ ∧
      (handledKeys s₃.log).count gate.call.key = (handledKeys s₂.log).count gate.call.key := by
    induction h₃ with
    | start heq =>
        subst heq
        exact ⟨hcancelled₂, rfl⟩
    | step hreach hok hstep ih =>
        have hreach := hreach₂.trans hreach
        obtain ⟨hcancelled, hcount⟩ :=
          ih.1.step (.of_reaches hreach) (.of_reaches hreach) hok hstep
        exact ⟨hcancelled, hcount.trans ih.2⟩
  exact ⟨hinv.2, hinv.1.parked, fun _ _ _ hpc hmsg hkey => hinv.1.dropped hpc hmsg hkey⟩

/-- Polkit authorizes the call while a release by the client waits. -/
def authorizedLate : List Action :=
  [.gate 1 .error, .call ⟨ascii ":1.1", 3, .release, none⟩, .gate 1 (.methodReturn (some true))]

/-- The same, when root has asked for the prints of the account to be deleted in between. -/
def authorizedLater : List Action :=
  [.gate 1 .error, .call ⟨ascii ":1.1", 3, .release, none⟩,
    .call ⟨ascii ":1.9", 1, .deleteEnrolledFingers, some (ascii "anna")⟩,
    .gate 1 (.methodReturn (some true))]

/-- The gate of the call. -/
def deleteGate : PolkitGate :=
  ⟨1, ⟨ascii ":1.1", 2, .deleteEnrolledFinger, some (ascii "left-thumb")⟩, .sendCheck⟩

/-- What the device is told about a uid, and a sound disk. -/
def smoothInput : DeviceInput := ⟨true, Disk.sound (Vector.replicate 12 1)⟩

theorem release_cancels_late :
    ∃ s₂ s₃, Transition.checkedRun (step homeEnvironment) (KeepsTombstone (ascii ":1.1", 2)) s₂
        [smoothDevice, smoothDevice] = some s₃ ∧
      NoFurther homeEnvironment (ascii ":1.1", 2) s₂ s₃ := by
  obtain ⟨s₀, s₁, s₂, s₃, h₀, hgate, h₁, hdrops, hkeeps, h₂, h₃⟩ :
      ∃ s₀ s₁ s₂ s₃, homeRun deleteParked = some s₀ ∧ deleteGate ∈ s₀.gates ∧
        Transition.checkedRun (step homeEnvironment) (KeepsTombstone (ascii ":1.1", 2)) s₀
          authorizedLate = some s₁ ∧ Drops s₁ (ascii ":1.1") ∧
        KeepsTombstone (ascii ":1.1", 2) s₁ (.device smoothInput) ∧
        step homeEnvironment s₁ (.device smoothInput) = some s₂ ∧
        Transition.checkedRun (step homeEnvironment) (KeepsTombstone (ascii ":1.1", 2)) s₂
          [smoothDevice, smoothDevice] = some s₃ :=
    ⟨_, _, _, _, rfl, by decide, rfl, by decide, by decide, rfl, rfl⟩
  exact ⟨s₂, s₃, h₃, release_cancels (homeRun_reachable h₀) hgate nofun
    (Transition.reaches_of_checkedRun (.start rfl) h₁) hdrops hkeeps h₂
    (Transition.reaches_of_checkedRun (.start rfl) h₃)⟩

/-- The gate of another call takes the mark away, and the copy of the released client asks polkit
again. -/
theorem release_cancels_pruned :
    ¬∀ (env : Environment) (s₀ s₁ s₂ s₃ : System) (gate : PolkitGate) (input : DeviceInput),
      Transition.Reachable (step env) Started s₀ → gate ∈ s₀.gates → gate.pc ≠ .denying →
        Transition.Reachable (step env) (· = s₀) s₁ → Drops s₁ gate.call.sender →
          step env s₁ (.device input) = some s₂ →
            Transition.Reachable (step env) (· = s₂) s₃ →
              NoFurther env gate.call.key s₂ s₃ := by
  intro hclaim
  obtain ⟨s₀, s₁, s₂, s₃, h₀, hgate, h₁, hdrops, h₂, h₃, hagain⟩ :
      ∃ s₀ s₁ s₂ s₃, homeRun deleteParked = some s₀ ∧ deleteGate ∈ s₀.gates ∧
        Transition.run (step homeEnvironment) s₀ authorizedLater = some s₁ ∧
        Drops s₁ (ascii ":1.1") ∧ step homeEnvironment s₁ (.device smoothInput) = some s₂ ∧
        Transition.run (step homeEnvironment) s₂ [smoothDevice, smoothDevice, smoothDevice] =
          some s₃ ∧ ∃ gate ∈ s₃.gates, gate.call.key = (ascii ":1.1", 2) ∧ gate.pc ≠ .denying :=
    ⟨_, _, _, _, rfl, by decide, rfl, by decide, rfl, rfl, by decide⟩
  have hnone := hclaim homeEnvironment s₀ s₁ s₂ s₃ deleteGate smoothInput (homeRun_reachable h₀)
    hgate nofun (Transition.reaches_of_run rfl h₁) hdrops h₂ (Transition.reaches_of_run rfl h₃)
  obtain ⟨gate, hmem, hkey, hasked⟩ := hagain
  exact hasked (hnone.asked gate hmem hkey)

end Fpc
