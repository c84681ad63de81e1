/-
**Authorizations and gates stay together.**

The authorizations of the device and the gate tasks belong together whatever the order of turns, so
a call is worked on in one place at most, and none is handled or replied to twice.

Main definitions:

* `Fpc.SameCalls` — a change that is not about calls;
* `Fpc.Ledgered` — every call is worked on, handled and replied to at most once.

Main results:

* `Fpc.Gates.deviceTurn`, `Fpc.Gates.gateTurn`, `Fpc.Gates.controlTurn` — turns keep authorizations
  and gates together;
* `Fpc.Ledgered.account` — a turn keeps the ledger;
* `Fpc.Ledgered.step` — **every step keeps the ledger**.
-/

import FpcReader.Daemon.Ledger

set_option relaxedAutoImplicit false
set_option autoImplicit false

namespace Fpc

/-! ### Authorizations and gates stay together -/

section Frame

variable {s s' t : System}

/-- Only the queues of the device and what is not about gates has changed. -/
theorem Gates.frame (h : Gates s) (hgates : s'.gates = s.gates)
    (hauth : s'.device.authGates = s.device.authGates) (hnext : s.nextTask ≤ s'.nextTask)
    (halive : s'.device.alive = s.device.alive)
    (hpc : s'.control.pc ≠ .finished → s.control.pc ≠ .finished) : Gates s' where
  ids := by rw [hgates]; exact h.ids
  gateFresh gate hmem := lt_of_lt_of_le (h.gateFresh gate (hgates ▸ hmem)) hnext
  entryFresh entry hmem := lt_of_lt_of_le (h.entryFresh entry (hauth ▸ hmem)) hnext
  sender entry hmem := h.sender entry (hauth ▸ hmem)
  task entry hmem gate hgate := h.task entry (hauth ▸ hmem) gate (hgates ▸ hgate)
  pending hlive gate hmem hstate := by
    rw [hauth]
    exact h.pending (halive ▸ hlive) gate (hgates ▸ hmem) hstate
  asking entry hmem hstate := by
    rw [hgates]
    exact h.asking entry (hauth ▸ hmem) hstate
  dead hlive hrunning := by
    rw [hgates]
    exact h.dead (halive ▸ hlive) (hpc hrunning)

theorem Gates.quiet (h : Gates s) (hq : Quiet s s') : Gates s' :=
  h.frame hq.gates (by rw [hq.device]) hq.nextTask.ge (by rw [hq.device])
    (by rw [hq.control]; exact id)

theorem Gates.shared (h : Gates s) (hs : Shared s s')
    (hpc : s'.control.pc ≠ .finished → s.control.pc ≠ .finished) : Gates s' :=
  h.frame hs.gates (by rw [hs.device]) hs.nextTask.ge (by rw [hs.device]) hpc

/-- Forgetting the authorization of a call that no gate parks. -/
theorem Gates.eraseGate (h : Gates s) {key : Key} (hkey : key ∉ parkedKeys s.gates) :
    Gates (eraseGate s key) where
  ids := h.ids
  gateFresh := h.gateFresh
  entryFresh entry hmem := h.entryFresh entry (List.mem_of_mem_filter hmem)
  sender entry hmem := h.sender entry (List.mem_of_mem_filter hmem)
  task entry hmem := h.task entry (List.mem_of_mem_filter hmem)
  pending halive gate hmem hpc := by
    refine List.mem_filter.2 ⟨h.pending halive gate hmem hpc, ?_⟩
    simp only [ne_eq, decide_eq_true_eq]
    rintro rfl
    exact hkey (mem_parkedKeys hmem hpc)
  asking entry hmem := h.asking entry (List.mem_of_mem_filter hmem)
  dead := h.dead

theorem Gates.createGate (h : Gates s) (halive : s.device.alive = true) (call : Call) :
    Gates (createGate s call) where
  ids := by
    show ((s.gates ++ [_]).map PolkitGate.id).Nodup
    rw [List.map_append, List.nodup_append]
    refine ⟨h.ids, by simp, ?_⟩
    rintro _ hid _ hnew rfl
    obtain ⟨gate, hmem, rfl⟩ := List.mem_map.1 hid
    have := h.gateFresh gate hmem
    simp only [List.map_cons, List.map_nil, List.mem_singleton] at hnew
    omega
  gateFresh gate hmem := by
    rcases List.mem_append.1 hmem with hmem | hmem
    · exact Nat.lt_succ_of_lt (h.gateFresh gate hmem)
    · obtain rfl := List.mem_singleton.1 hmem
      exact Nat.lt_succ_self _
  entryFresh entry hmem := by
    rcases List.mem_append.1 hmem with hmem | hmem
    · exact Nat.lt_succ_of_lt (h.entryFresh entry (List.mem_of_mem_filter hmem))
    · obtain rfl := List.mem_singleton.1 hmem
      exact Nat.lt_succ_self _
  sender entry hmem := by
    rcases List.mem_append.1 hmem with hmem | hmem
    · exact h.sender entry (List.mem_of_mem_filter hmem)
    · obtain rfl := List.mem_singleton.1 hmem
      rfl
  task entry hmem gate hgate hid := by
    rcases List.mem_append.1 hmem with hmem | hmem <;>
      rcases List.mem_append.1 hgate with hgate | hgate
    · exact h.task entry (List.mem_of_mem_filter hmem) gate hgate hid
    · obtain rfl := List.mem_singleton.1 hgate
      have := h.entryFresh entry (List.mem_of_mem_filter hmem)
      simp only at hid
      omega
    · obtain rfl := List.mem_singleton.1 hmem
      have := h.gateFresh gate hgate
      simp only at hid
      omega
    · obtain rfl := List.mem_singleton.1 hmem
      obtain rfl := List.mem_singleton.1 hgate
      rfl
  pending _ gate hmem hpc := by
    rcases List.mem_append.1 hmem with hmem | hmem
    · exact List.mem_append_left _
        (List.mem_filter.2 ⟨h.pending halive gate hmem hpc, by simp⟩)
    · obtain rfl := List.mem_singleton.1 hmem
      exact List.mem_append_right _ (List.mem_singleton_self _)
  asking entry hmem hstate := by
    rcases List.mem_append.1 hmem with hmem | hmem
    · obtain ⟨gate, hgate, hpc, hkey⟩ := h.asking entry (List.mem_of_mem_filter hmem) hstate
      exact ⟨gate, List.mem_append_left _ hgate, hpc, hkey⟩
    · obtain rfl := List.mem_singleton.1 hmem
      exact ⟨_, List.mem_append_right _ (List.mem_singleton_self _), nofun, rfl⟩
  dead hdead := absurd (halive.symm.trans hdead) nofun

/-- What is left of the authorizations when those of a sender are dropped. -/
theorem mem_dropAuthGates {sender : Client} {entry : Key × AuthGate}
    (hmem : entry ∈ (dropAuthGates s sender).device.authGates) :
    ∃ old ∈ s.device.authGates, old.1 = entry.1 ∧ old.2.task = entry.2.task ∧
      old.2.sender = entry.2.sender ∧
        (if old.2.sender = sender then entry.2.state = .finished else old = entry) := by
  obtain ⟨old, hold, rfl⟩ := List.mem_map.1 hmem
  refine ⟨old, List.mem_of_mem_filter hold, ?_⟩
  split <;> simp

theorem Gates.dropAuthGates (h : Gates s) (sender : Client) : Gates (dropAuthGates s sender) where
  ids := (h.ids.sublist (List.filter_sublist.map _))
  gateFresh gate hmem := h.gateFresh gate (List.mem_of_mem_filter hmem)
  entryFresh entry hmem := by
    obtain ⟨old, hold, -, htask, -⟩ := mem_dropAuthGates hmem
    exact htask ▸ h.entryFresh old hold
  sender entry hmem := by
    obtain ⟨old, hold, hkey, -, hsender, -⟩ := mem_dropAuthGates hmem
    rw [← hsender, ← hkey]
    exact h.sender old hold
  task entry hmem gate hgate hid := by
    obtain ⟨old, hold, hkey, htask, -⟩ := mem_dropAuthGates hmem
    exact hkey ▸ h.task old hold gate (List.mem_of_mem_filter hgate) (hid.trans htask.symm)
  pending halive gate hmem hpc := by
    have hmem : gate ∈ s.gates.filter fun g => !goesWith s sender g := hmem
    obtain ⟨hmem, hstays⟩ := List.mem_filter.1 hmem
    have hentry := h.pending halive gate hmem hpc
    have hother : gate.call.sender ≠ sender := by
      rintro rfl
      have : goesWith s gate.call.sender gate = true :=
        List.any_eq_true.2 ⟨_, List.mem_filter.2 ⟨hentry, by simp⟩, by simp⟩
      simp [this] at hstays
    refine List.mem_map.2 ⟨_, List.mem_filter.2 ⟨hentry, ?_⟩, ?_⟩
    · simp [hother]
    · simp [hother]
  asking entry hmem hstate := by
    obtain ⟨old, hold, hkey, -, hsender, hcase⟩ := mem_dropAuthGates hmem
    split at hcase
    · rw [hcase] at hstate
      exact absurd hstate nofun
    · rename_i hother
      subst hcase
      obtain ⟨gate, hgate, hpc, hgatekey⟩ := h.asking old hold hstate
      refine ⟨gate, List.mem_filter.2 ⟨hgate, ?_⟩, hpc, hgatekey⟩
      -- a gate that goes with the sender would park a call of the sender
      rw [Bool.not_eq_true', ← Bool.not_eq_true]
      intro hgoes
      obtain ⟨found, hfound, htask⟩ := List.any_eq_true.1 hgoes
      obtain ⟨hfound, hfoundSender⟩ := List.mem_filter.1 hfound
      simp only [decide_eq_true_eq] at htask hfoundSender
      have hfoundKey := h.task found hfound gate hgate htask.symm
      refine hother ?_
      rw [h.sender old hold, ← hgatekey, hfoundKey, ← h.sender found hfound]
      exact hfoundSender.1
  dead hdead hrunning := by
    show s.gates.filter _ = []
    rw [h.dead hdead hrunning]
    rfl

/-- The gates other than a given one. -/
theorem Gates.mem_filter_ne (h : Gates s) {gate other : PolkitGate} (hmem : gate ∈ s.gates)
    (hother : other ∈ s.gates) (hne : other ≠ gate) :
    other ∈ s.gates.filter fun g => g.id ≠ gate.id :=
  List.mem_filter.2 ⟨hother, by simpa using fun hid => hne (h.inj hother hmem hid)⟩

/-- Two gates do not park the same call. -/
theorem parked_inj {gates : List PolkitGate} (hnodup : (parkedKeys gates).Nodup)
    {gate other : PolkitGate} (hmem : gate ∈ gates) (hother : other ∈ gates)
    (hpc : gate.pc ≠ .denying) (hpc' : other.pc ≠ .denying)
    (hkey : gate.call.key = other.call.key) : gate = other :=
  List.inj_on_of_nodup_map (Multiset.coe_nodup.1 hnodup)
    (List.mem_filter.2 ⟨hmem, by simpa using hpc⟩)
    (List.mem_filter.2 ⟨hother, by simpa using hpc'⟩) hkey

/-- An authorization whose result has been noted. -/
theorem mem_resolveGate {key : Key} {state : AuthState} {entry : Key × AuthGate}
    (hmem : entry ∈ (resolveGate s key state).device.authGates) :
    ∃ old ∈ s.device.authGates, old.1 = entry.1 ∧ old.2.task = entry.2.task ∧
      old.2.sender = entry.2.sender ∧
        (if old.1 = key then entry.2.state = state else old = entry) := by
  obtain ⟨old, hold, rfl⟩ := List.mem_map.1 hmem
  refine ⟨old, hold, ?_⟩
  split <;> simp

/-- A check that has come to a result: the gate `gate` is answered and ends or is replaced. -/
theorem Gates.resolve (h : Gates s) (hnodup : (parkedKeys s.gates).Nodup) {gate : PolkitGate}
    (hmem : gate ∈ s.gates) (hpc : gate.pc = .waiting) (state : AuthState)
    (hstate : state ≠ .pending) {t : System}
    (hauth : t.device.authGates = (resolveGate s gate.call.key state).device.authGates)
    (halive : t.device.alive = s.device.alive) (hcontrol : t.control = s.control)
    (hnext : t.nextTask = s.nextTask) (hids : (t.gates.map PolkitGate.id).Nodup)
    (hgates : ∀ other ∈ t.gates, (other ∈ s.gates ∧ other ≠ gate) ∨
      (other.id = gate.id ∧ other.call = gate.call ∧ other.pc = .denying))
    (hkept : ∀ other ∈ s.gates, other ≠ gate → other ∈ t.gates) : Gates t where
  ids := hids
  gateFresh other hother := by
    rw [hnext]
    rcases hgates other hother with ⟨hother, -⟩ | ⟨hid, -, -⟩
    · exact h.gateFresh other hother
    · exact hid ▸ h.gateFresh gate hmem
  entryFresh entry hentry := by
    obtain ⟨old, hold, -, htask, -⟩ := mem_resolveGate (hauth ▸ hentry)
    rw [hnext, ← htask]
    exact h.entryFresh old hold
  sender entry hentry := by
    obtain ⟨old, hold, hkey, -, hsender, -⟩ := mem_resolveGate (hauth ▸ hentry)
    rw [← hsender, ← hkey]
    exact h.sender old hold
  task entry hentry other hother hid := by
    obtain ⟨old, hold, hkey, htask, -⟩ := mem_resolveGate (hauth ▸ hentry)
    rw [← hkey]
    rcases hgates other hother with ⟨hother, -⟩ | ⟨hsame, hcall, -⟩
    · exact h.task old hold other hother (hid.trans htask.symm)
    · rw [hcall]
      exact h.task old hold gate hmem (hsame.symm.trans (hid.trans htask.symm))
  pending hlive other hother hpc' := by
    rcases hgates other hother with ⟨hother, hne⟩ | ⟨-, -, hdenying⟩
    · rw [hauth]
      refine List.mem_map.2 ⟨_, h.pending (halive ▸ hlive) other hother hpc', ?_⟩
      have hkey : other.call.key ≠ gate.call.key := fun hkey =>
        hne (parked_inj hnodup hother hmem hpc' (by rw [hpc]; nofun) hkey)
      simp [hkey]
    · exact absurd hdenying hpc'
  asking entry hentry hpending := by
    obtain ⟨old, hold, -, -, -, hcase⟩ := mem_resolveGate (hauth ▸ hentry)
    split at hcase
    · exact absurd (hcase.symm.trans hpending) hstate
    · rename_i hother
      subst hcase
      obtain ⟨other, hmem', hpc', hkey⟩ := h.asking old hold hpending
      refine ⟨other, hkept other hmem' fun heq => hother ?_, hpc', hkey⟩
      rw [← hkey, heq]
  dead hdead hrunning := by
    rw [halive] at hdead
    rw [hcontrol] at hrunning
    rw [h.dead hdead hrunning] at hmem
    exact absurd hmem List.not_mem_nil

/-- Gates that are replaced keep their numbers. -/
theorem map_id_setGate (gates : List PolkitGate) (gate : PolkitGate) :
    (gates.map fun g => if g.id = gate.id then gate else g).map PolkitGate.id =
      gates.map PolkitGate.id := by
  rw [List.map_map]
  refine List.map_congr_left fun g _ => ?_
  simp only [Function.comp_apply]
  split
  · rename_i hid
    exact hid.symm
  · rfl

/-- A gate after one has moved on is an old one or this one. -/
theorem mem_setGate {gate other : PolkitGate} {pc : GatePc}
    (hother : other ∈ (setGate s { gate with pc }).gates) :
    (other ∈ s.gates ∧ other ≠ gate) ∨ other = { gate with pc } := by
  obtain ⟨old, hold, rfl⟩ := List.mem_map.1 hother
  split
  · exact Or.inr rfl
  · rename_i hid
    exact Or.inl ⟨hold, fun heq => hid (by rw [heq])⟩

/-- The other gates are kept. -/
theorem Gates.mem_setGate_of_ne (h : Gates s) {gate other : PolkitGate} (hmem : gate ∈ s.gates)
    (hother : other ∈ s.gates) (hne : other ≠ gate) (pc : GatePc) :
    other ∈ (setGate s { gate with pc }).gates :=
  List.mem_map.2 ⟨other, hother, if_neg fun hid => hne (h.inj hother hmem hid)⟩

/-- A gate sends its request. -/
theorem Gates.asked (h : Gates s) {gate : PolkitGate} (hmem : gate ∈ s.gates)
    (hpc : gate.pc = .sendCheck) : Gates (setGate s { gate with pc := .waiting }) := by
  have hold : ∀ other ∈ (setGate s { gate with pc := .waiting }).gates, ∃ old ∈ s.gates,
      old.id = other.id ∧ old.call = other.call ∧ (old.pc = .denying ↔ other.pc = .denying) := by
    intro other hother
    rcases mem_setGate hother with ⟨hold, -⟩ | rfl
    · exact ⟨other, hold, rfl, rfl, Iff.rfl⟩
    · exact ⟨gate, hmem, rfl, rfl, by simp [hpc]⟩
  exact {
    ids := by
      show ((s.gates.map _).map _).Nodup
      rw [map_id_setGate s.gates { gate with pc := .waiting }]
      exact h.ids
    gateFresh := fun other hother => by
      obtain ⟨old, hmem', hid, -⟩ := hold other hother
      exact hid ▸ h.gateFresh old hmem'
    entryFresh := h.entryFresh
    sender := h.sender
    task := fun entry hentry other hother hid => by
      obtain ⟨old, hmem', hid', hcall, -⟩ := hold other hother
      exact hcall ▸ h.task entry hentry old hmem' (hid'.trans hid)
    pending := fun halive other hother hpc' => by
      obtain ⟨old, hmem', hid, hcall, hiff⟩ := hold other hother
      rw [← hid, ← hcall]
      exact h.pending halive old hmem' fun hdenying => hpc' (hiff.1 hdenying)
    asking := fun entry hentry hstate => by
      obtain ⟨old, hmem', hpc', hkey⟩ := h.asking entry hentry hstate
      by_cases heq : old = gate
      · refine ⟨{ gate with pc := .waiting }, List.mem_map.2 ⟨gate, hmem, by simp⟩, nofun, ?_⟩
        rw [← hkey, heq]
      · exact ⟨old, h.mem_setGate_of_ne hmem hmem' heq .waiting, hpc', hkey⟩
    dead := fun hdead hrunning => by
      rw [h.dead hdead hrunning] at hmem
      exact absurd hmem List.not_mem_nil }

/-- A gate that has denied its call ends. -/
theorem Gates.denied (h : Gates s) {gate : PolkitGate} (hmem : gate ∈ s.gates)
    (hpc : gate.pc = .denying) : Gates (finishGate s gate) where
  ids := h.ids.sublist (List.filter_sublist.map _)
  gateFresh other hother := h.gateFresh other (List.mem_of_mem_filter hother)
  entryFresh := h.entryFresh
  sender := h.sender
  task entry hentry other hother := h.task entry hentry other (List.mem_of_mem_filter hother)
  pending halive other hother := h.pending halive other (List.mem_of_mem_filter hother)
  asking entry hentry hstate := by
    obtain ⟨old, hold, hpc', hkey⟩ := h.asking entry hentry hstate
    refine ⟨old, h.mem_filter_ne hmem hold fun heq => hpc' ?_, hpc', hkey⟩
    rw [heq, hpc]
  dead hdead hrunning := by
    rw [h.dead hdead hrunning] at hmem
    exact absurd hmem List.not_mem_nil

theorem Gates.gateTurn (h : Gates s) (hnodup : (parkedKeys s.gates).Nodup) {gate : PolkitGate}
    (hmem : gate ∈ s.gates) (reply : PolkitReply) : Gates (stepGate s gate reply) := by
  unfold stepGate
  cases hpc : gate.pc with
  | sendCheck => exact h.asked hmem hpc
  | denying => exact h.denied hmem hpc
  | waiting =>
      dsimp only
      unfold checkDone
      split
      · refine h.resolve hnodup hmem hpc .authorized nofun rfl rfl rfl rfl ?_ ?_ ?_
        · exact h.ids.sublist (List.filter_sublist.map _)
        · intro other hother
          obtain ⟨hother, hid⟩ := List.mem_filter.1 hother
          exact Or.inl ⟨hother, fun heq => by simp [heq] at hid⟩
        · exact fun other hother hne => h.mem_filter_ne hmem hother hne
      · refine h.resolve hnodup hmem hpc .finished nofun rfl rfl rfl rfl ?_ ?_ ?_
        · show ((s.gates.map _).map _).Nodup
          rw [map_id_setGate s.gates { gate with pc := .denying }]
          exact h.ids
        · intro other hother
          rcases mem_setGate (s := s) hother with hold | rfl
          · exact Or.inl hold
          · exact Or.inr ⟨rfl, rfl, rfl⟩
        · exact fun other hother hne => h.mem_setGate_of_ne hmem hother hne .denying

end Frame

/-! ### Turns -/

section Turns

variable {env : Environment} {s s' t : System}

theorem Admitted.gates (h : Gates s) (hnodup : s.working.Nodup) {call : Call}
    (ht : Admitted s call t) : Gates t := by
  cases ht with
  | free _ _ => exact h.frame rfl rfl le_rfl rfl id
  | @authorized rest _ hmsg _ _ _ =>
      have hpop : Gates (s.popMessage rest) := h.frame rfl rfl le_rfl rfl id
      refine hpop.eraseGate fun hparked => ?_
      -- the call would wait in the queue and be parked at the same time
      rw [working_popMessage hmsg, System.working] at hnodup
      have hdisjoint := (Multiset.nodup_add.1 hnodup).2.2
      exact Multiset.disjoint_left.1 hdisjoint
        (Multiset.mem_add.2 (Or.inl (Multiset.mem_add.2 (Or.inr hparked))))
        (Multiset.mem_singleton_self _)

theorem Gates.reachGated (h : Gates s) (call : Call) : Gates (s.reachGated call) :=
  h.frame (reachGated_gates s call) (by rw [reachGated_device]) (reachGated_nextTask s call).ge
    (by rw [reachGated_device]) (by unfold System.reachGated; split <;> exact id)

theorem Gates.deviceTurn (h : Gates s) (hnodup : s.working.Nodup)
    (halive : s.device.alive = true) (hturn : DeviceTurn env s s') : Gates s' := by
  cases hturn with
  | sent _ ha => exact h.quiet ha.toQuiet
  | stopSent _ ha => exact Gates.quiet (s := s.leaveStop) (h.frame rfl rfl le_rfl rfl id) ha.toQuiet
  | @skipped _ rest _ _ _ ha =>
      exact Gates.quiet (s := s.popMessage rest) (h.frame rfl rfl le_rfl rfl id) ha.toQuiet
  | @dropped call gate rest _ _ hmsg _ _ ha =>
      have hpop : Gates (s.popMessage rest) := h.frame rfl rfl le_rfl rfl id
      refine (hpop.eraseGate fun hparked => ?_).quiet ha.toQuiet
      rw [working_popMessage hmsg, System.working] at hnodup
      have hdisjoint := (Multiset.nodup_add.1 hnodup).2.2
      exact Multiset.disjoint_left.1 hdisjoint
        (Multiset.mem_add.2 (Or.inl (Multiset.mem_add.2 (Or.inr hparked))))
        (Multiset.mem_singleton_self _)
  | @gateCreated call rest _ _ _ _ =>
      have hpop : Gates (s.popMessage rest) := h.frame rfl rfl le_rfl rfl id
      exact hpop.createGate halive call
  | @asked call t _ ht _ => exact (ht.gates h hnodup).frame rfl rfl le_rfl rfl id
  | rejected _ ht ha => exact (ht.gates h hnodup).quiet ha.toQuiet
  | unchecked _ ha => exact h.quiet ha.toQuiet
  | unnamed _ _ ha => exact h.quiet ha.toQuiet
  | @listed call user _ _ _ ha =>
      exact Gates.quiet (s := s.access user call.sender) (h.frame rfl rfl le_rfl rfl id) ha.toQuiet
  | @deletedAll call user _ _ _ _ ha =>
      exact Gates.quiet (s := (s.reach call).access user call.sender)
        (h.frame rfl rfl le_rfl rfl id) ha.toQuiet
  | @claimed call user _ _ _ _ ha =>
      exact Gates.quiet (s := s.claimBy call user) (h.frame rfl rfl (Nat.le_succ _) rfl id)
        ha.toQuiet
  | @served call t _ _ ht _ _ _ ha =>
      have hreach : Gates (t.reachGated call) := (ht.gates h hnodup).reachGated call
      rcases ha with ha | ha
      · exact hreach.quiet ha.toQuiet
      · exact Gates.quiet (s := (t.reachGated call).access s.device.claimedUser call.sender)
          (hreach.frame rfl rfl le_rfl rfl id) ha.toQuiet
  | @started call t _ name isVerify _ ht _ _ _ _ ha =>
      have hreach : Gates (t.reachGated call) := (ht.gates h hnodup).reachGated call
      have hstart : Gates (startOperation
          ((t.reachGated call).access s.device.claimedUser call.sender) call name isVerify) :=
        hreach.frame rfl rfl (Nat.le_succ _) rfl id
      exact hstart.quiet ha.toQuiet
  | @released call t _ _ ht _ _ _ ha =>
      obtain ⟨u, hu, hauth, -, -, hgates, -, hnext, hlive, hcontrol⟩ :=
        releaseBy_fields t call.sender
      have hbase : Gates u := (ht.gates h hnodup).frame hgates hauth hnext.ge hlive
        (by rw [hcontrol]; exact id)
      have hdrop : Gates (t.releaseBy call.sender) := by
        rw [hu]
        exact (hbase.dropAuthGates call.sender).frame rfl rfl le_rfl rfl id
      exact hdrop.quiet ha.toQuiet
  | @disconnected name old more rest _ _ hmsg ha =>
      obtain ⟨u, hu, hauth, -, -, hgates, -, hnext, hlive, hcontrol⟩ :=
        disconnect_fields (s.popMessage rest) old
      have hbase : Gates u := h.frame hgates hauth hnext.ge hlive (by rw [hcontrol]; exact id)
      have hdrop : Gates ((s.popMessage rest).disconnect old) := by
        rw [hu]
        exact (hbase.dropAuthGates old).frame rfl rfl le_rfl rfl id
      exact hdrop.quiet ha.toQuiet

/-- A state with the same gates, device and log as another. -/
structure SameCalls (s s' : System) : Prop where
  device : s'.device = s.device
  gates : s'.gates = s.gates
  nextTask : s'.nextTask = s.nextTask
  calls : s'.calls = s.calls
  log : s'.log = s.log

theorem Shared.sameCalls (h : Shared s s') : SameCalls s s' :=
  ⟨h.device, h.gates, h.nextTask, h.calls, h.log⟩

theorem SameCalls.trans {u : System} (h : SameCalls s t) (h' : SameCalls t u) : SameCalls s u :=
  ⟨h'.device.trans h.device, h'.gates.trans h.gates, h'.nextTask.trans h.nextTask,
    h'.calls.trans h.calls, h'.log.trans h.log⟩

theorem SameCalls.working (h : SameCalls s s') : s'.working = s.working := by
  rw [System.working, System.working, h.device, h.gates]

theorem SameCalls.accounted (h : SameCalls s s') : Accounted s s' := .same h.working h.log

theorem SameCalls.keepGates (h : SameCalls s s') (hg : Gates s)
    (hpc : s'.control.pc ≠ .finished → s.control.pc ≠ .finished) : Gates s' :=
  hg.frame h.gates (by rw [h.device]) h.nextTask.ge (by rw [h.device]) hpc

theorem finishControl_fields (s : System) :
    (finishControl s).gates = s.gates ∧ (finishControl s).nextTask = s.nextTask ∧
      (finishControl s).calls = s.calls ∧ (finishControl s).control.pc = .finished := by
  unfold finishControl cleanupDevice cancelDevice cancelEnrollVerify System.cancelOperation
    resumeNameOwnerChanged
  dsimp only
  refine ⟨?_, ?_, ?_, rfl⟩ <;>
  · repeat' split
    all_goals rfl

/-- The end of the control task takes the device with it. -/
theorem finishControl_accounted (s : System) : Accounted s (finishControl s) := by
  obtain ⟨hgates, -, -, -⟩ := finishControl_fields s
  have hdevice := finishControl_device s
  have hlog := finishControl_log s
  cases halive : s.device.alive with
  | false =>
      rw [halive, if_neg (by simp)] at hdevice
      refine .same ?_ hlog
      rw [System.working, System.working, hdevice, hgates]
  | true =>
      rw [halive, if_pos rfl] at hdevice
      refine ⟨0, 0, queuedKeys s.device.messages + s.device.pc.keys, ⟨?_, ?_, ?_, le_rfl⟩,
        fun _ _ => .gone (by rw [hdevice]; rfl)⟩
      · rw [System.working, System.working, hdevice, hgates]
        show queuedKeys s.device.messages + parkedKeys s.gates + s.device.pc.keys =
          0 + parkedKeys s.gates + 0 + 0 + (queuedKeys s.device.messages + s.device.pc.keys)
        abel
      · rw [hlog, zero_add]
      · rw [hlog, zero_add]

theorem Gates.finishControl (h : Gates s) : Gates (finishControl s) := by
  obtain ⟨hgates, hnext, -, hpc⟩ := finishControl_fields s
  have hdevice := finishControl_device s
  cases halive : s.device.alive with
  | false =>
      rw [halive, if_neg (by simp)] at hdevice
      exact h.frame hgates (by rw [hdevice]) hnext.ge (by rw [hdevice]) (absurd hpc)
  | true =>
      rw [halive, if_pos rfl] at hdevice
      have hnone : (Fpc.finishControl s).device.authGates = [] := by rw [hdevice]; rfl
      have hdead : (Fpc.finishControl s).device.alive = false := by rw [hdevice]; rfl
      exact {
        ids := by rw [hgates]; exact h.ids
        gateFresh := by rw [hgates, hnext]; exact h.gateFresh
        entryFresh := by rw [hnone]; nofun
        sender := by rw [hnone]; nofun
        task := by rw [hnone]; nofun
        pending := by rw [hdead]; nofun
        asking := by rw [hnone]; nofun
        dead := fun _ => absurd hpc }

theorem Fetched.sameCalls {event : Option FPCEvent} (hf : Fetched s event t) : SameCalls s t := by
  cases hf <;> exact ⟨rfl, rfl, rfl, rfl, rfl⟩

theorem Fetched.control {event : Option FPCEvent} (hf : Fetched s event t) :
    t.control = s.control := by
  cases hf <;> rfl

/-- The session is ready: the device stays, or it is created. -/
theorem tlsReady_calls {env' : Environment} (hready : tlsReady env' t = some s') :
    (t.device.alive = true ∧ SameCalls t s') ∨
      (t.device.alive = false ∧ s'.device = { Device.initial with alive := true } ∧
        s'.gates = t.gates ∧ s'.nextTask = t.nextTask ∧ s'.calls = t.calls ∧ s'.log = t.log) := by
  unfold tlsReady at hready
  split at hready
  · exact absurd hready nofun
  · obtain rfl := Option.some.inj hready
    cases halive : t.device.alive with
    | true =>
        refine Or.inl ⟨rfl, ?_, rfl, rfl, rfl, rfl⟩
        dsimp only [System.transferThen, System.setControl]
        rw [if_pos rfl]
    | false =>
        refine Or.inr ⟨rfl, ?_, rfl, rfl, rfl, rfl⟩
        dsimp only [System.transferThen, System.setControl]
        rw [if_neg (by simp)]

/-- What a turn of the control task does to the calls. -/
theorem ControlTurn.calls {input : ControlInput} (hturn : ControlTurn s input s') :
    SameCalls s s' ∨ (∃ u, SameCalls s u ∧ s' = finishControl u) ∨
      (s.device.alive = false ∧ s'.device = { Device.initial with alive := true } ∧
        s'.gates = s.gates ∧ s'.nextTask = s.nextTask ∧ s'.calls = s.calls ∧ s'.log = s.log) := by
  cases hturn with
  | steady hf _ _ _ _ hs => exact Or.inl (hf.sameCalls.trans hs.toShared.sameCalls)
  | asked hf _ _ _ _ hs =>
      exact Or.inl (hf.sameCalls.trans ⟨hs.device, hs.gates, hs.nextTask, hs.calls, hs.log⟩)
  | ignored hf hs => exact Or.inl (hf.sameCalls.trans hs.toShared.sameCalls)
  | armed hf _ _ _ hs =>
      exact Or.inl (hf.sameCalls.trans ⟨hs.device, hs.gates, hs.nextTask, hs.calls, hs.log⟩)
  | touched hf hs =>
      exact Or.inl (hf.sameCalls.trans ⟨hs.device, hs.gates, hs.nextTask, hs.calls, hs.log⟩)
  | handed hf _ _ hs =>
      exact Or.inl (hf.sameCalls.trans ⟨hs.device, hs.gates, hs.nextTask, hs.calls, hs.log⟩)
  | told hf _ _ hs =>
      exact Or.inl (hf.sameCalls.trans ⟨hs.device, hs.gates, hs.nextTask, hs.calls, hs.log⟩)
  | cleaned hf _ hs =>
      exact Or.inl (hf.sameCalls.trans ⟨hs.device, hs.gates, hs.nextTask, hs.calls, hs.log⟩)
  | cleanedUp hf _ hs =>
      exact Or.inr (Or.inl ⟨_,
        hf.sameCalls.trans ⟨hs.device, hs.gates, hs.nextTask, hs.calls, hs.log⟩, rfl⟩)
  | gaveUp hf _ => exact Or.inr (Or.inl ⟨_, hf.sameCalls, rfl⟩)
  | ready hf hready =>
      have hsame := hf.sameCalls
      rcases tlsReady_calls hready with ⟨-, hcalls⟩ | ⟨halive, hdevice, hgates, hnext, hcalls, hlog⟩
      · exact Or.inl (hsame.trans hcalls)
      · refine Or.inr (Or.inr ⟨?_, hdevice, hgates.trans hsame.gates, hnext.trans hsame.nextTask,
          hcalls.trans hsame.calls, hlog.trans hsame.log⟩)
        rw [← hsame.device]
        exact halive

theorem ControlTurn.accounted {input : ControlInput} (hturn : ControlTurn s input s') :
    Accounted s s' := by
  rcases hturn.calls with hsame | ⟨u, hsame, rfl⟩ | ⟨hdead, hdevice, hgates, -, -, hlog⟩
  · exact hsame.accounted
  · obtain ⟨done, handled, lost, hledger, hlost⟩ := finishControl_accounted u
    refine ⟨done, handled, lost, ?_, fun key hkey => ?_⟩
    · refine ⟨?_, ?_, ?_, hledger.handled_le⟩
      · rw [← hsame.working, hledger.working]
      · rw [hledger.handled_eq, hsame.log]
      · rw [hledger.replied_eq, hsame.log]
    · have hdevice := finishControl_device u
      refine .gone ?_
      rw [hdevice]
      split
      · rfl
      · rename_i halive
        simpa using halive
  · refine ⟨0, 0, queuedKeys s.device.messages + s.device.pc.keys, ⟨?_, ?_, ?_, le_rfl⟩,
      fun _ _ => .replaced hdead⟩
    · rw [System.working, System.working, hdevice, hgates]
      show queuedKeys s.device.messages + parkedKeys s.gates + s.device.pc.keys =
        0 + parkedKeys s.gates + 0 + 0 + (queuedKeys s.device.messages + s.device.pc.keys)
      abel
    · rw [hlog, zero_add]
    · rw [hlog, zero_add]

theorem Gates.controlTurn (h : Gates s) (hrunning : s.control.pc ≠ .finished)
    {input : ControlInput} (hturn : ControlTurn s input s') : Gates s' := by
  rcases hturn.calls with hsame | ⟨u, hsame, rfl⟩ | ⟨hdead, hdevice, hgates, hnext, -, -⟩
  · exact hsame.keepGates h fun _ => hrunning
  · exact (hsame.keepGates h fun _ => hrunning).finishControl
  · have hnone := h.dead hdead hrunning
    have hauth : s'.device.authGates = [] := by rw [hdevice]; rfl
    rw [hnone] at hgates
    exact {
      ids := by rw [hgates]; exact List.nodup_nil
      gateFresh := by rw [hgates]; nofun
      entryFresh := by rw [hauth]; nofun
      sender := by rw [hauth]; nofun
      task := by rw [hauth]; nofun
      pending := by rw [hgates]; nofun
      asking := by rw [hauth]; nofun
      dead := fun _ _ => hgates }

theorem reachGated_calls (s : System) (call : Call) : (s.reachGated call).calls = s.calls := by
  unfold System.reachGated
  split <;> rfl

theorem Admitted.calls {call : Call} (ht : Admitted s call t) : t.calls = s.calls := by rw [ht.eq]

/-- The device makes no calls. -/
theorem DeviceTurn.calls_eq (hturn : DeviceTurn env s s') : s'.calls = s.calls := by
  cases hturn with
  | sent _ ha | stopSent _ ha | skipped _ _ ha | dropped _ _ _ _ ha => exact ha.toQuiet.calls
  | gateCreated _ _ _ _ => rfl
  | asked _ ht _ => exact ht.calls
  | rejected _ ht ha => exact ha.toQuiet.calls.trans ht.calls
  | unchecked _ ha | unnamed _ _ ha | listed _ _ ha | deletedAll _ _ _ ha | claimed _ _ _ ha =>
      exact ha.toQuiet.calls
  | @served call t _ _ ht _ _ _ ha =>
      have hreach := (reachGated_calls t call).trans ht.calls
      rcases ha with ha | ha
      · exact ha.toQuiet.calls.trans hreach
      · exact ha.toQuiet.calls.trans hreach
  | @started call t _ _ _ _ ht _ _ _ _ ha =>
      exact ha.toQuiet.calls.trans ((reachGated_calls t call).trans ht.calls)
  | @released call t _ _ ht _ _ _ ha =>
      refine ha.toQuiet.calls.trans (Eq.trans ?_ ht.calls)
      show (cancelEnrollVerify (resumeNameOwnerChanged t)).calls = t.calls
      unfold cancelEnrollVerify System.cancelOperation resumeNameOwnerChanged
      repeat' split
      all_goals rfl
  | @disconnected _ old _ rest _ _ _ ha =>
      refine ha.toQuiet.calls.trans ?_
      unfold System.disconnect
      split
      · rfl
      · show (cancelEnrollVerify (s.popMessage rest)).calls = _
        unfold cancelEnrollVerify System.cancelOperation
        repeat' split
        all_goals rfl

theorem stepGate_calls (s : System) (gate : PolkitGate) (reply : PolkitReply) :
    (stepGate s gate reply).calls = s.calls := by
  rw [stepGate_eq]

/-- A turn of an operation leaves the calls alone; what it logs is not about them. -/
theorem OperationTurn.calls {op : EnrollVerify} (hturn : OperationTurn s op s') :
    s'.device = s.device ∧ s'.gates = s.gates ∧ s'.nextTask = s.nextTask ∧ s'.calls = s.calls ∧
      s'.control = s.control ∧ ∃ news, s'.log = news ++ s.log ∧
        ∀ entry ∈ news, entry.handledKey = none ∧ entry.repliedKey = none ∧
          ∀ key, entry ≠ .granted key := by
  cases hturn with
  | @accepted _ _ requested rest t status terminal _ _ _ huse =>
      have hfields : t.device = s.device ∧ t.gates = s.gates ∧ t.nextTask = s.nextTask ∧
          t.calls = s.calls ∧ t.control = s.control := by
        rcases huse with ⟨heq, -⟩ | ⟨heq, -⟩
        · rw [heq]
          exact ⟨rfl, rfl, rfl, rfl, rfl⟩
        · rw [heq]
          exact ⟨rfl, rfl, rfl, rfl, rfl⟩
      obtain ⟨hdevice, hgates, hnext, hcalls, hcontrol⟩ := hfields
      refine ⟨hdevice, hgates, hnext, hcalls, hcontrol, ?_⟩
      rcases huse with ⟨heq, -⟩ | ⟨heq, -⟩
      · refine ⟨[.signalled op.id status terminal, .accepted op.id op.generation requested], ?_,
          by simp [LogEntry.handledKey, LogEntry.repliedKey]⟩
        show .signalled op.id status terminal :: t.log = _
        rw [heq]
        rfl
      · refine ⟨[.signalled op.id status terminal, .accessed op.user op.client,
          .accepted op.id op.generation requested], ?_,
          by simp [LogEntry.handledKey, LogEntry.repliedKey]⟩
        show .signalled op.id status terminal :: t.log = _
        rw [heq]
        rfl
  | @failed _ status _ _ =>
      exact ⟨rfl, rfl, rfl, rfl, rfl, [.signalled op.id status true], rfl,
        by simp [LogEntry.handledKey, LogEntry.repliedKey]⟩
  | _ => exact ⟨rfl, rfl, rfl, rfl, rfl, [], rfl, by simp⟩

theorem OperationTurn.accounted {op : EnrollVerify} (hturn : OperationTurn s op s') :
    Accounted s s' := by
  obtain ⟨hdevice, hgates, -, -, -, news, hlog, hnews⟩ := hturn.calls
  refine Ledger.accounted (?_ : Ledger _ _ 0 0 0)
  refine ⟨?_, ?_, ?_, le_rfl⟩
  · rw [System.working, System.working, hdevice, hgates, add_zero, add_zero]
  · rw [hlog, handledKeys_append]
    refine congrArg (· + _) (congrArg _ (List.filterMap_eq_nil_iff.2 fun entry hmem => ?_))
    exact (hnews entry hmem).1
  · rw [hlog, repliedKeys_append]
    refine congrArg (· + _) (congrArg _ (List.filterMap_eq_nil_iff.2 fun entry hmem => ?_))
    exact (hnews entry hmem).2.1

/-- A listener changes nothing but listeners. -/
theorem stepListen_fields {listen : Listen} {success : Bool}
    (hturn : stepListen s listen success = some s') :
    s' = { s with listens := s'.listens } := by
  unfold stepListen at hturn
  split at hturn
  · exact Option.some.inj hturn ▸ rfl
  · obtain rfl := Option.some.inj hturn
    split <;> rfl
  · split at hturn
    · exact Option.some.inj hturn ▸ rfl
    · exact absurd hturn nofun
  · exact Option.some.inj hturn ▸ rfl

end Turns

/-! ### The ledger of a run -/

/-- Every call is worked on, handled and replied to at most once, and all these calls were made. -/
structure Ledgered (s : System) : Prop where
  gates : Gates s
  handled : (s.working + handledKeys s.log).Nodup
  replied : (s.working + repliedKeys s.log).Nodup
  known : ∀ key ∈ s.working + handledKeys s.log + repliedKeys s.log, key ∈ s.calls

section Ledgered

variable {env : Environment} {s s' : System}

theorem Ledgered.working (h : Ledgered s) : s.working.Nodup := (Multiset.nodup_add.1 h.handled).1

/-- No new call is made. -/
theorem Ledgered.account (h : Ledgered s) (hgates : Gates s') (ha : Accounted s s')
    (hcalls : s'.calls = s.calls) : Ledgered s' := by
  obtain ⟨done, handled, lost, hledger, -⟩ := ha
  have hworking : s'.working + done ≤ s.working := by
    rw [hledger.working]
    exact Multiset.le_add_right _ _
  refine ⟨hgates, ?_, ?_, fun key hkey => ?_⟩
  · refine Multiset.nodup_of_le ?_ h.handled
    rw [hledger.handled_eq, ← add_assoc]
    exact add_le_add_left ((add_le_add_right hledger.handled_le _).trans hworking) _
  · refine Multiset.nodup_of_le ?_ h.replied
    rw [hledger.replied_eq, ← add_assoc]
    exact add_le_add_left hworking _
  · rw [hcalls]
    refine h.known key ?_
    have hmem : ∀ k, k ∈ s'.working + done → k ∈ s.working := fun k hk =>
      Multiset.mem_of_le hworking hk
    rw [hledger.handled_eq, hledger.replied_eq] at hkey
    simp only [Multiset.mem_add] at hkey hmem ⊢
    rcases hkey with (hkey | hkey | hkey) | hkey | hkey
    · exact Or.inl (Or.inl (hmem key (Or.inl hkey)))
    · exact Or.inl (Or.inl (hmem key (Or.inr (Multiset.mem_of_le hledger.handled_le hkey))))
    · exact Or.inl (Or.inr hkey)
    · exact Or.inl (Or.inl (hmem key (Or.inr hkey)))
    · exact Or.inr hkey

theorem arrive_working (s : System) (call : Call) :
    System.working { s.putMessage (.call call) with calls := call.key :: s.calls } =
      s.working + {call.key} := by
  rw [System.working, System.working]
  show queuedKeys (s.device.messages ++ [.call call]) + _ + _ = _
  rw [queuedKeys_append]
  show queuedKeys s.device.messages + {call.key} + parkedKeys s.gates + s.device.pc.keys =
    queuedKeys s.device.messages + parkedKeys s.gates + s.device.pc.keys + {call.key}
  abel

/-- A signal is not a call. -/
theorem forward_working (s : System) (args : List Name) :
    (s.putMessage (.nameOwnerChanged args)).working = s.working := by
  rw [System.working, System.working]
  show queuedKeys (s.device.messages ++ [.nameOwnerChanged args]) + _ + _ = _
  rw [queuedKeys_append]
  exact congrArg (· + parkedKeys s.gates + s.device.pc.keys) (add_zero _)

/-- A new call is put into the queue. -/
theorem Ledgered.arrive (h : Ledgered s) {call : Call} (hnew : call.key ∉ s.calls) :
    Ledgered { s.putMessage (.call call) with calls := call.key :: s.calls } := by
  have hworking := arrive_working s call
  have hunknown : call.key ∉ s.working + handledKeys s.log + repliedKeys s.log := fun hmem =>
    hnew (h.known _ hmem)
  simp only [Multiset.mem_add, not_or] at hunknown
  obtain ⟨⟨hnotWorking, hnotHandled⟩, hnotReplied⟩ := hunknown
  refine ⟨h.gates.frame rfl rfl le_rfl rfl id, ?_, ?_, fun key hkey => ?_⟩
  · rw [hworking, add_right_comm]
    refine Multiset.nodup_add.2 ⟨h.handled, Multiset.nodup_singleton _, ?_⟩
    simpa [hnotWorking, System.putMessage] using hnotHandled
  · rw [hworking, add_right_comm]
    refine Multiset.nodup_add.2 ⟨h.replied, Multiset.nodup_singleton _, ?_⟩
    simpa [hnotWorking, System.putMessage] using hnotReplied
  · rw [hworking] at hkey
    simp only [Multiset.mem_add, Multiset.mem_singleton] at hkey
    rcases hkey with ((hkey | rfl) | hkey) | hkey
    · exact List.mem_cons_of_mem _ (h.known _ (by simp [hkey]))
    · exact List.mem_cons_self
    · exact List.mem_cons_of_mem _ (h.known _ (Multiset.mem_add.2 (Or.inl
        (Multiset.mem_add.2 (Or.inr hkey)))))
    · exact List.mem_cons_of_mem _ (h.known _ (Multiset.mem_add.2 (Or.inr hkey)))

/-- **Every step keeps the ledger.** -/
theorem Ledgered.step (h : Ledgered s) {action : Action} (hstep : step env s action = some s') :
    Ledgered s' := by
  have hgates := h.gates
  have hparked : (parkedKeys s.gates).Nodup := by
    have hworking := h.working
    rw [System.working] at hworking
    exact (Multiset.nodup_add.1 (Multiset.nodup_add.1 hworking).1).2.1
  cases step_turn hstep with
  | arrived _ hnew => exact h.arrive hnew
  | device halive hturn =>
      obtain ⟨haccounted, hcalls⟩ := And.intro (hturn.accounted hgates halive) hturn.calls_eq
      exact h.account (hgates.deviceTurn h.working halive hturn) haccounted hcalls
  | gate hmem _ =>
      exact h.account (hgates.gateTurn hparked hmem _) (hgates.gateTurn_accounted hmem _)
        (stepGate_calls _ _ _)
  | listen _ hturn =>
      rw [stepListen_fields hturn]
      exact h.account (hgates.frame rfl rfl le_rfl rfl id) (.same rfl rfl) rfl
  | forwarded _ _ _ =>
      exact h.account (hgates.frame rfl rfl le_rfl rfl id) (.same (forward_working s _) rfl) rfl
  | operation _ hturn =>
      obtain ⟨hdevice, hsame, hnext, hcalls, hcontrol, -⟩ := hturn.calls
      exact h.account (hgates.frame hsame (by rw [hdevice]) hnext.ge (by rw [hdevice])
        (by rw [hcontrol]; exact id)) hturn.accounted hcalls
  | control hrunning hturn =>
      refine h.account (hgates.controlTurn hrunning hturn) hturn.accounted ?_
      rcases hturn.calls with hsame | ⟨u, hsame, rfl⟩ | ⟨-, -, -, -, hcalls, -⟩
      · exact hsame.calls
      · exact (finishControl_fields u).2.2.1.trans hsame.calls
      · exact hcalls
  | rawDropped _ => exact h
  | _ => exact h.account (hgates.frame rfl rfl le_rfl rfl id) (.same rfl rfl) rfl

theorem Ledgered.start (hs : Started s) : Ledgered s := by
  obtain ⟨handle, file, rfl⟩ := hs
  refine ⟨⟨List.nodup_nil, nofun, nofun, nofun, nofun, nofun, nofun, fun _ _ => rfl⟩,
    Multiset.nodup_zero, Multiset.nodup_zero, fun key hkey => ?_⟩
  exact absurd hkey (Multiset.notMem_zero key)

end Ledgered

end Fpc
