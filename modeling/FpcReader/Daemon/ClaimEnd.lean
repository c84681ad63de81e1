/-
**The end of a claim.**

A claim ends when the claimer releases the device and when a signal says that a client has
disconnected.  The two are written separately: the first tells the listener of the claim but leaves
the sensor alone, the second stops the sensor but leaves the listener.

Main definitions:

* `Fpc.EndsClaim` — the next turn of the device ends the claim;
* `Fpc.TornDown` — everything that belongs to a claim has been taken down;
* `Fpc.Cleared` — what only the other way takes down is down already.

Main results:

* `Fpc.Attended.step` — listeners that are not told belong to the claim;
* `Fpc.claim_end` — **a claim is torn down exactly when the rest is down already**, and then there
  is never a second listener;
* `Fpc.claim_end_leftover` — in general it is not.
-/

import FpcReader.Daemon.SessionTurns

set_option relaxedAutoImplicit false
set_option autoImplicit false

namespace Fpc

open Bytes

/-! ### Ends of a claim -/

/-- The next turn of the device ends the claim: its holder releases the device, or a signal says
that the client has disconnected. -/
def EndsClaim (s : System) (client : Client) : Prop :=
  s.device.claimed = true ∧ (Releases s client ∨ Disconnects s client)

/-- The operation that the device remembers still runs. -/
def InProgress (s : System) : Prop := ∃ op ∈ s.operations, s.device.enrollVerifyTask = some op.id

/-- Events that arm or stop the sensor. -/
def FPCEvent.steers : FPCEvent → Bool
  | .startSensor | .stopSensor => true
  | _ => false

/-- A stop of the sensor is queued behind every start of it. -/
def StopBehind (queue : List FPCEvent) : Prop :=
  (queue.filter FPCEvent.steers).getLast? = some .stopSensor

/-- The listener of the claim has been told to remove its filter and its match rule. -/
def ListenerTold (s s' : System) : Prop :=
  ∀ listen ∈ s'.listens, s.device.nameOwnerChangedTask = some listen.id → listen.told = true

/-- Between two states everything that belongs to a claim has been taken down: the claim and the
operation, the authorizations of the client and their gates, the sensor and the listener. -/
structure TornDown (s s' : System) (client : Client) : Prop where
  unclaimed : s'.device.claimed = false ∧ s'.device.claimedSender = [] ∧ s'.device.claimedUser = []
  forgotten : s'.device.enrollVerifyTask = none
  cancelled : ∀ op ∈ s'.operations, s.device.enrollVerifyTask ≠ some op.id
  finished : ∀ entry ∈ s'.device.authGates, entry.2.sender = client → entry.2.state = .finished
  parked : ∀ gate ∈ s'.gates, gate.call.sender = client → gate.pc = .denying
  stopped : InProgress s → StopBehind s'.eventQueue
  told : ListenerTold s s'

/-- What only the other way to end a claim takes down is down already: a release finds no operation
in progress unless a stop is queued behind every start, and a signal finds the listener gone or
told. -/
def Cleared (s : System) (client : Client) : Prop :=
  (Releases s client → InProgress s → StopBehind s.eventQueue) ∧
    (Disconnects s client → ListenerTold s s)

/-- A step that ends a claim finds the rest down already. -/
def EndsCleared (s : System) : Action → Prop
  | .device _ => ∀ client, EndsClaim s client → Cleared s client
  | _ => True

/-- The listeners that have not been told to remove their filter. -/
def System.listening (s : System) : List Listen := s.listens.filter fun listen => !listen.told

instance (s : System) (client : Client) : Decidable (EndsClaim s client) :=
  inferInstanceAs (Decidable (_ ∧ _))

instance (s : System) : Decidable (InProgress s) :=
  inferInstanceAs (Decidable (∃ op ∈ s.operations, _))

instance (queue : List FPCEvent) : Decidable (StopBehind queue) :=
  inferInstanceAs (Decidable (_ = _))

instance (s s' : System) : Decidable (ListenerTold s s') :=
  inferInstanceAs (Decidable (∀ listen ∈ s'.listens, _))

instance (s : System) (client : Client) : Decidable (Cleared s client) :=
  inferInstanceAs (Decidable (_ ∧ _))

theorem EndsClaim.mem_enders {s : System} {client : Client} (h : EndsClaim s client) :
    client ∈ s.enders := by
  rcases h.2 with ⟨-, -, hclaimer, -⟩ | hends
  · exact hclaimer ▸ List.mem_cons_self
  · exact hends.mem_enders

instance : ∀ s action, Decidable (EndsCleared s action)
  | s, .device _ => decidable_of_iff (∀ client ∈ s.enders, EndsClaim s client → Cleared s client)
      ⟨fun h client hends => h client hends.mem_enders hends, fun h client _ => h client⟩
  | _, .call _ | _, .nameOwnerChanged _ _ | _, .gate _ _ | _, .listen _ _ | _, .operation _ _ _
  | _, .control _ | _, .rawFrame _ | _, .tlsFrame _ | _, .answer _ | _, .tlsReady
  | _, .transportFailed | _, .prepareForSleep _ => isTrue trivial

theorem stopBehind_append (queue : List FPCEvent) : StopBehind (queue ++ [.stopSensor]) := by
  simp [StopBehind, FPCEvent.steers]

/-! ### Telling the listener -/

section Telling

variable (s : System)

/-- The listener that the device remembers is told. -/
theorem resumeNameOwnerChanged_fields :
    (resumeNameOwnerChanged s).device.enrollVerifyTask = s.device.enrollVerifyTask ∧
      ListenerTold s (resumeNameOwnerChanged s) := by
  unfold resumeNameOwnerChanged
  cases htask : s.device.nameOwnerChangedTask with
  | none => exact ⟨rfl, fun _ _ hid => by simp [htask] at hid⟩
  | some id =>
      refine ⟨rfl, fun listen hmem hid => ?_⟩
      obtain ⟨old, hold, rfl⟩ := List.mem_map.1 hmem
      have hid : (if old.id = id then { old with told := true } else old).id = id :=
        (Option.some.inj (htask.symm.trans hid)).symm
      split
      · rfl
      · rename_i hother
        rw [if_neg hother] at hid
        exact absurd hid hother

/-- Telling a listener keeps the numbers, and nobody is told to go on. -/
theorem resumeNameOwnerChanged_listens :
    (resumeNameOwnerChanged s).listens.map Listen.id = s.listens.map Listen.id ∧
      ∀ listen ∈ (resumeNameOwnerChanged s).listens, listen.told = false → listen ∈ s.listens := by
  unfold resumeNameOwnerChanged
  cases s.device.nameOwnerChangedTask with
  | none => exact ⟨rfl, fun _ hmem _ => hmem⟩
  | some id =>
      refine ⟨?_, fun listen hmem htold => ?_⟩
      · show (s.listens.map _).map Listen.id = _
        rw [List.map_map]
        refine List.map_congr_left fun listen _ => ?_
        simp only [Function.comp_apply]
        split <;> rfl
      · obtain ⟨old, hold, rfl⟩ := List.mem_map.1 hmem
        split at htold
        · cases htold
        · rename_i hother
          rwa [if_neg hother]

end Telling

section Turns

variable {env : Environment} {s s' : System} {client : Client} {input : DeviceInput}

/-- Either way the authorizations of the client are finished and its gates are over. -/
theorem drops_gates (hgates : Gates s) (halive : s.device.alive = true) (hdrops : Drops s client)
    (hstep : stepDevice env s input = some s') :
    (∀ entry ∈ s'.device.authGates, entry.2.sender = client → entry.2.state = .finished) ∧
      ∀ gate ∈ s'.gates, gate.call.sender = client → gate.pc = .denying := by
  obtain ⟨hauth, hleft, -⟩ := stepDevice_drops hdrops hstep
  have hdropped := hgates.dropAuthGates client
  refine ⟨fun entry hmem hsender => ?_, fun gate hmem hsender => ?_⟩
  · rw [hauth] at hmem
    rcases kept_or_finished hmem with ⟨-, hother⟩ | ⟨hstate, -⟩
    · exact absurd hsender hother
    · exact hstate
  · -- a gate that still asks has an authorization, which is not finished
    by_contra hasked
    rw [hleft] at hmem
    rcases kept_or_finished (hdropped.pending halive gate hmem hasked) with
      ⟨-, hother⟩ | ⟨hstate, -⟩
    · exact hother hsender
    · cases hstate

/-- **A claim is torn down exactly when the rest is down already.** -/
theorem tornDown_iff (hgates : Gates s) (halive : s.device.alive = true)
    (hends : EndsClaim s client) (hstep : stepDevice env s input = some s') :
    TornDown s s' client ↔ Cleared s client := by
  obtain ⟨hfinished, hparked⟩ := drops_gates hgates halive (drops_iff.2 hends.2) hstep
  rcases hends.2 with hreleases | hdisconnects
  · have hs := stepDevice_released hreleases hstep
    obtain ⟨hlistens, hforgotten, hcancelled⟩ :=
      cancelEnrollVerify_fields (resumeNameOwnerChanged s)
    obtain ⟨htask, htold⟩ := resumeNameOwnerChanged_fields s
    have hqueue : s'.eventQueue = s.eventQueue := hs.eventQueue.trans (by rw [takeDown_eq])
    constructor
    · intro h
      exact ⟨fun _ hprogress => hqueue ▸ h.stopped hprogress,
        fun hd => absurd hd hreleases.not_disconnects⟩
    · intro h
      refine ⟨?_, ?_, ?_, hfinished, hparked, fun hprogress => ?_, ?_⟩
      · rw [hs.device]
        exact ⟨rfl, rfl, rfl⟩
      · rw [hs.device]
        exact hforgotten
      · rw [hs.operations, ← htask]
        exact hcancelled
      · rw [hqueue]
        exact h.1 hreleases hprogress
      · have hlistens : s'.listens = (resumeNameOwnerChanged s).listens :=
          hs.listens.trans hlistens
        exact fun listen hmem => htold listen (hlistens ▸ hmem)
  · have hs := stepDevice_hungUp hdisconnects hstep
    have hlistens : s'.listens = s.listens := hs.listens.trans (by rw [hangUp_eq])
    constructor
    · intro h
      refine ⟨fun hr => absurd hdisconnects hr.not_disconnects, fun _ listen hmem => ?_⟩
      exact h.told listen (hlistens ▸ hmem)
    · intro h
      refine ⟨?_, ?_, ?_, hfinished, hparked, fun _ => ?_, fun listen hmem => ?_⟩
      · rw [hs.device]
        exact ⟨rfl, rfl, rfl⟩
      · rw [hs.device]
        unfold System.hangUp
        split
        · assumption
        · exact (cancelEnrollVerify_fields s).2.1
      · rw [hs.operations]
        unfold System.hangUp
        split
        · rename_i hnone
          intro op _ hsome
          rw [hnone] at hsome
          cases hsome
        · exact (cancelEnrollVerify_fields s).2.2
      · rw [hs.eventQueue]
        exact stopBehind_append _
      · exact h.2 hdisconnects listen (hlistens ▸ hmem)

end Turns

/-! ### Listeners over a run -/

/-- A listener that has not been told belongs to the claim. -/
structure Attended (s : System) : Prop where
  ids : (s.listens.map Listen.id).Nodup
  fresh : ∀ listen ∈ s.listens, listen.id < s.nextTask
  own : ∀ listen ∈ s.listens, listen.told = false →
    s.device.nameOwnerChangedTask = some listen.id
  idle : s.device.claimed = false → ∀ listen ∈ s.listens, listen.told = true
  dead : s.device.alive = false → s.device.claimed = false

section Listeners

variable {env : Environment} {s s' t : System}

/-- There is at most one listener that has not been told. -/
theorem Attended.listening (h : Attended s) : s.listening.length ≤ 1 := by
  have hown : ∀ listen ∈ s.listening, s.device.nameOwnerChangedTask = some listen.id := by
    intro listen hmem
    obtain ⟨hmem, htold⟩ := List.mem_filter.1 hmem
    exact h.own listen hmem (by simpa using htold)
  have hids : (s.listening.map Listen.id).Nodup := h.ids.sublist (List.filter_sublist.map _)
  match hlist : s.listening with
  | [] | [_] => simp
  | first :: second :: rest =>
      rw [hlist] at hown hids
      have hsame := (hown first (by simp)).symm.trans (hown second (by simp))
      simp [Option.some.inj hsame] at hids

/-- Listeners and the claim stay what they are. -/
theorem Attended.frame (h : Attended s) (hlistens : s'.listens = s.listens)
    (hnext : s.nextTask ≤ s'.nextTask)
    (htask : s'.device.nameOwnerChangedTask = s.device.nameOwnerChangedTask)
    (hclaimed : s'.device.claimed = s.device.claimed)
    (halive : s'.device.alive = s.device.alive) : Attended s' := by
  refine ⟨hlistens ▸ h.ids, fun listen hmem => ?_, fun listen hmem htold => ?_, fun hfree => ?_,
    fun hdead => ?_⟩
  · exact (h.fresh listen (hlistens ▸ hmem)).trans_le hnext
  · rw [htask]
    exact h.own listen (hlistens ▸ hmem) htold
  · rw [hlistens]
    exact h.idle (hclaimed ▸ hfree)
  · rw [hclaimed]
    exact h.dead (halive ▸ hdead)

/-- Every listener has been told. -/
theorem Attended.quit (h : Attended s) (hids : s'.listens.map Listen.id = s.listens.map Listen.id)
    (hnext : s.nextTask ≤ s'.nextTask) (htold : ∀ listen ∈ s'.listens, listen.told = true)
    (hfree : s'.device.claimed = false) : Attended s' := by
  refine ⟨hids ▸ h.ids, fun listen hmem => ?_, fun listen hmem hnot => ?_, fun _ => htold,
    fun _ => hfree⟩
  · have hid : listen.id ∈ s.listens.map Listen.id := hids ▸ List.mem_map_of_mem hmem
    obtain ⟨old, hold, hsame⟩ := List.mem_map.1 hid
    exact hsame ▸ (h.fresh old hold).trans_le hnext
  · rw [htold listen hmem] at hnot
    cases hnot

/-- Once the listener of the claim is told, all are. -/
theorem Attended.told (h : Attended s) :
    ∀ listen ∈ (resumeNameOwnerChanged s).listens, listen.told = true := by
  intro listen hmem
  by_contra hnot
  have hnot : listen.told = false := by simpa using hnot
  have hold := (resumeNameOwnerChanged_listens s).2 listen hmem hnot
  have htold := (resumeNameOwnerChanged_fields s).2 listen hmem (h.own listen hold hnot)
  rw [htold] at hnot
  cases hnot

theorem cancelEnrollVerify_nextTask (s : System) :
    (cancelEnrollVerify s).nextTask = s.nextTask := by
  unfold cancelEnrollVerify System.cancelOperation
  repeat' split
  all_goals rfl

theorem resumeNameOwnerChanged_nextTask (s : System) :
    (resumeNameOwnerChanged s).nextTask = s.nextTask := by
  unfold resumeNameOwnerChanged
  split <;> rfl

theorem Attended.deviceTurn (h : Attended s) (halive : s.device.alive = true)
    (hturn : DeviceTurn env s s') (hcleared : ∀ client, EndsClaim s client → Cleared s client) :
    Attended s' := by
  have hsame := hturn.alive_eq
  cases hturn.sessionTurn with
  | same hs =>
      exact h.frame hs.listens hs.nextTask (by rw [hs.device]) (by rw [hs.device]) hsame
  | stopLeft _ hs =>
      exact h.frame hs.listens hs.nextTask (by rw [hs.device]; rfl) (by rw [hs.device]; rfl) hsame
  | started _ _ _ _ hs =>
      exact h.frame hs.listens ((Nat.le_succ _).trans hs.nextTask) (by rw [hs.device]; rfl)
        (by rw [hs.device]; rfl) hsame
  | @claimed call user hpc hfree hs =>
      have hlistens : s'.listens = s.listens ++ [⟨s.nextTask, call.sender, .addMatch, false⟩] :=
        hs.listens
      have hnext : s.nextTask + 1 ≤ s'.nextTask := hs.nextTask
      have hclaimed : s'.device.claimed = true := by
        rw [hs.device]
        rfl
      refine ⟨?_, fun listen hmem => ?_, fun listen hmem htold => ?_, fun hnot => ?_,
        fun hdead => ?_⟩
      · rw [hlistens, List.map_append]
        refine List.nodup_append.2 ⟨h.ids, by simp, fun id hid other hother heq => ?_⟩
        obtain ⟨listen, hmem, rfl⟩ := List.mem_map.1 hid
        obtain rfl : other = s.nextTask := by simpa using hother
        exact absurd heq (h.fresh listen hmem).ne
      · rw [hlistens] at hmem
        rcases List.mem_append.1 hmem with hmem | hmem
        · exact (h.fresh listen hmem).trans (Nat.lt_of_succ_le hnext)
        · obtain rfl := List.mem_singleton.1 hmem
          exact Nat.lt_of_succ_le hnext
      · rw [hlistens] at hmem
        rcases List.mem_append.1 hmem with hmem | hmem
        · rw [h.idle hfree listen hmem] at htold
          cases htold
        · obtain rfl := List.mem_singleton.1 hmem
          rw [hs.device]
          rfl
      · rw [hclaimed] at hnot
        cases hnot
      · rw [hsame, halive] at hdead
        cases hdead
  | @released client hreleases hs =>
      have hlistens : s'.listens = (resumeNameOwnerChanged s).listens :=
        hs.listens.trans (cancelEnrollVerify_fields _).1
      refine h.quit ?_ ?_ ?_ (by rw [hs.device]; rfl)
      · rw [hlistens]
        exact (resumeNameOwnerChanged_listens s).1
      · have hnext := hs.nextTask
        rw [takeDown_eq] at hnext
        exact hnext
      · rw [hlistens]
        exact h.told
  | @disconnected client hends hs =>
      have hlistens : s'.listens = s.listens := hs.listens.trans (by rw [hangUp_eq])
      refine h.quit (by rw [hlistens]) ?_ ?_ (by rw [hs.device]; rfl)
      · have hnext := hs.nextTask
        rw [hangUp_eq] at hnext
        exact hnext
      · rw [hlistens]
        cases hclaimed : s.device.claimed with
        | false => exact h.idle hclaimed
        | true =>
            -- the listener of the claim must have been told before
            intro listen hmem
            by_contra hnot
            have hnot : listen.told = false := by simpa using hnot
            have htold := (hcleared client ⟨hclaimed, Or.inr hends⟩).2 hends listen hmem
              (h.own listen hmem hnot)
            rw [htold] at hnot
            cases hnot

/-- A turn of a listener does not undo that it was told. -/
theorem Attended.listenTurn (h : Attended s) {listen : Listen} {success : Bool}
    (hmem : listen ∈ s.listens) (hturn : stepListen s listen success = some s') : Attended s' := by
  have hset : ∀ pc, Attended (setListen s { listen with pc := pc }) := by
    intro pc
    have hold : ∀ other ∈ (setListen s { listen with pc := pc }).listens,
        ∃ old ∈ s.listens, old.id = other.id ∧ old.told = other.told := by
      intro other hother
      obtain ⟨old, hold, rfl⟩ := List.mem_map.1 hother
      split
      · exact ⟨listen, hmem, rfl, rfl⟩
      · exact ⟨old, hold, rfl, rfl⟩
    refine ⟨?_, fun other hother => ?_, fun other hother htold => ?_, fun hfree other hother => ?_,
      h.dead⟩
    · have hsame : (setListen s { listen with pc := pc }).listens.map Listen.id =
          s.listens.map Listen.id := by
        show (s.listens.map _).map Listen.id = _
        rw [List.map_map]
        refine List.map_congr_left fun old _ => ?_
        simp only [Function.comp_apply]
        split
        · rename_i hid
          exact hid.symm
        · rfl
      exact hsame ▸ h.ids
    · obtain ⟨old, hmem, hid, -⟩ := hold other hother
      exact hid ▸ h.fresh old hmem
    · obtain ⟨old, hmem, hid, hsame⟩ := hold other hother
      exact hid ▸ h.own old hmem (hsame.trans htold)
    · obtain ⟨old, hmem, -, hsame⟩ := hold other hother
      exact hsame ▸ h.idle hfree old hmem
  have hfinish : Attended (finishListen s listen) :=
    ⟨h.ids.sublist (List.filter_sublist.map _),
      fun other hother => h.fresh other (List.mem_of_mem_filter hother),
      fun other hother => h.own other (List.mem_of_mem_filter hother),
      fun hfree other hother => h.idle hfree other (List.mem_of_mem_filter hother), h.dead⟩
  unfold stepListen at hturn
  split at hturn
  · exact Option.some.inj hturn ▸ hset .adding
  · obtain rfl := Option.some.inj hturn
    split
    · exact hset .installed
    · exact hfinish
  · split at hturn
    · exact Option.some.inj hturn ▸ hset .removing
    · cases hturn
  · exact Option.some.inj hturn ▸ hfinish

theorem OperationTurn.listens {op : EnrollVerify} (hturn : OperationTurn s op s') :
    s'.listens = s.listens := by
  cases hturn with
  | @accepted _ _ _ _ t _ _ _ _ _ huse =>
      show t.listens = s.listens
      rcases huse with ⟨heq, -⟩ | ⟨heq, -⟩
      · rw [heq]
        rfl
      · rw [heq]
        rfl
  | _ => rfl

theorem Attended.cancelDevice (h : Attended s) : Attended (cancelDevice s) := by
  have hdevice := cancelEnrollVerify_device s
  have hcancelled : Attended (cancelEnrollVerify s) :=
    h.frame (cancelEnrollVerify_fields s).1 (cancelEnrollVerify_nextTask s).ge
      (by rw [hdevice]) (by rw [hdevice]) (by rw [hdevice])
  exact hcancelled.quit (resumeNameOwnerChanged_listens _).1
    (resumeNameOwnerChanged_nextTask _).ge hcancelled.told rfl

theorem Attended.finishControl (h : Attended s) : Attended (finishControl s) := by
  let quiet := System.setStorage { s with power := false } { s.storage with readerReady := false }
  have hquiet : Attended quiet := h.frame rfl le_rfl rfl rfl rfl
  obtain ⟨left, hattended, hlistens, hnext, hdevice⟩ : ∃ left, Attended left ∧
      (Fpc.finishControl s).listens = left.listens ∧
        (Fpc.finishControl s).nextTask = left.nextTask ∧
          (Fpc.finishControl s).device = left.device := by
    refine ⟨if s.device.alive then Fpc.cancelDevice quiet else quiet, ?_, ?_⟩
    · split
      · exact hquiet.cancelDevice
      · exact hquiet
    · unfold Fpc.finishControl cleanupDevice
      dsimp only [System.setStorage, quiet]
      cases s.device.alive <;> exact ⟨rfl, rfl, rfl⟩
  exact hattended.frame hlistens hnext.ge (by rw [hdevice]) (by rw [hdevice]) (by rw [hdevice])

/-- Listeners are left alone while the control task works. -/
theorem Attended.shared (h : Attended s) (hs : Shared s s') : Attended s' :=
  h.frame hs.listens hs.nextTask.ge (by rw [hs.device]) (by rw [hs.device]) (by rw [hs.device])

theorem Attended.controlTurn (h : Attended s) {input : ControlInput}
    (hturn : ControlTurn s input s') : Attended s' := by
  have hfetched : ∀ {event : Option FPCEvent} {t : System}, Fetched s event t → Attended t := by
    intro event t hf
    cases hf with
    | waited _ => exact h
    | event _ _ => exact h.frame rfl le_rfl rfl rfl rfl
  have hframe : ∀ {t u : System}, Attended t → u.listens = t.listens → u.nextTask = t.nextTask →
      u.device = t.device → Attended u := fun ht hlistens hnext hdevice =>
    ht.frame hlistens hnext.ge (by rw [hdevice]) (by rw [hdevice]) (by rw [hdevice])
  cases hturn with
  | steady hf _ _ _ _ hs | ignored hf hs => exact (hfetched hf).shared hs.toShared
  | asked hf _ _ _ _ hs | armed hf _ _ _ hs | touched hf hs | handed hf _ _ hs | told hf _ _ hs
  | cleaned hf _ hs => exact hframe (hfetched hf) hs.listens hs.nextTask hs.device
  | cleanedUp hf _ hs =>
      exact (hframe (hfetched hf) hs.listens hs.nextTask hs.device).finishControl
  | gaveUp hf _ => exact (hfetched hf).finishControl
  | @ready env t _ hf hready =>
      have ht := hfetched hf
      unfold tlsReady at hready
      split at hready
      · cases hready
      · obtain rfl := Option.some.inj hready
        cases halive : t.device.alive with
        | true => exact hframe ht rfl rfl (by simp [System.transferThen, System.setControl])
        | false =>
            exact ht.quit rfl le_rfl (ht.idle (ht.dead halive))
              (by simp [System.transferThen, System.setControl, Device.initial])

/-- **A step that finds the rest down leaves at most one listener.** -/
theorem Attended.step (h : Attended s) {action : Action} (hcleared : EndsCleared s action)
    (hstep : step env s action = some s') : Attended s' := by
  cases step_turn hstep with
  | arrived _ _ | forwarded _ _ _ => exact h.frame rfl le_rfl rfl rfl rfl
  | device halive hturn => exact h.deviceTurn halive hturn hcleared
  | gate _ _ =>
      rw [stepGate_eq]
      exact h.frame rfl le_rfl rfl rfl rfl
  | listen hmem hturn => exact h.listenTurn hmem hturn
  | operation _ hturn =>
      obtain ⟨hdevice, -, hnext, -⟩ := hturn.calls
      exact h.frame hturn.listens hnext.ge (by rw [hdevice]) (by rw [hdevice]) (by rw [hdevice])
  | control _ hturn => exact h.controlTurn hturn
  | rawDropped _ => exact h
  | _ => exact h.frame rfl le_rfl rfl rfl rfl

theorem Attended.start (hs : Started s) : Attended s := by
  obtain ⟨handle, file, rfl⟩ := hs
  exact ⟨List.nodup_nil, nofun, nofun, fun _ => nofun, fun _ => rfl⟩

end Listeners

/-- **A claim is torn down exactly when what only the other way takes down is down already**; and in
the runs in which that is so whenever a claim ends there is never a second listener. -/
theorem claim_end {env : Environment} :
    (∀ s s' input client, Transition.Reachable (step env) Started s → EndsClaim s client →
      step env s (.device input) = some s' → (TornDown s s' client ↔ Cleared s client)) ∧
    ∀ s, Transition.Reaches (step env) EndsCleared Started s → s.listening.length ≤ 1 := by
  constructor
  · intro s s' input client h hends hstep
    have hgates := (Ledgered.of_reaches h).gates
    simp only [step] at hstep
    split at hstep
    · rename_i halive
      exact tornDown_iff hgates halive hends hstep
    · cases hstep
  · intro s h
    have hattended : Attended s :=
      Transition.Reaches.invariant (fun _ => Attended.start)
        (fun _ hinv hok hstep => hinv.step hok hstep) h
    exact hattended.listening

/-- A client claims the device and releases it; another one claims it. -/
def claimReleased : List Action :=
  bootActions ++ callActions ":1.1" 1 .claim (some "") ++
    [.call ⟨ascii ":1.1", 2, .release, none⟩]

def claimTwice : List Action :=
  claimReleased ++ [smoothDevice, smoothDevice] ++ callActions ":1.2" 1 .claim (some "")

theorem claim_end_released :
    (∃ s s', homeRun claimReleased = some s ∧ step homeEnvironment s smoothDevice = some s' ∧
      TornDown s s' (ascii ":1.1")) ∧
    ∃ s, homeRun claimTwice = some s ∧ s.device.claimed = true ∧ s.listening.length ≤ 1 := by
  constructor
  · obtain ⟨s, s', hs, hs', hends, hcleared⟩ : ∃ s s', homeRun claimReleased = some s ∧
        step homeEnvironment s smoothDevice = some s' ∧ EndsClaim s (ascii ":1.1") ∧
          Cleared s (ascii ":1.1") := ⟨_, _, rfl, rfl, by decide, by decide⟩
    exact ⟨s, s', hs, hs',
      (claim_end.1 s s' _ _ (homeRun_reachable hs) hends hs').2 hcleared⟩
  · obtain ⟨s, hs, hok, hclaimed⟩ : ∃ s, homeRun claimTwice = some s ∧
        homeChecked EndsCleared claimTwice = some s ∧ s.device.claimed = true :=
      ⟨_, rfl, rfl, rfl⟩
    exact ⟨s, hs, hclaimed, claim_end.2 s (homeChecked_reaches hok)⟩

/-- A client verifies a finger, the sensor is armed, and the release of the client is next. -/
def releaseArmed : List Action :=
  verifyArmed ++ [.call ⟨ascii ":1.1", 3, .release, none⟩]

/-- A client claims the device and disconnects. -/
def disconnectQueued : List Action :=
  bootActions ++ callActions ":1.1" 1 .claim (some "") ++
    [.listen 0 true, .listen 0 true,
      .nameOwnerChanged 0 [ascii ":1.1", ascii ":1.1", []]]

/-- A release leaves the sensor armed, and the end of a connection leaves the listener. -/
theorem claim_end_leftover :
    (¬∀ (env : Environment) (s s' : System) (input : DeviceInput) (client : Client),
      Transition.Reachable (step env) Started s → s.device.claimed = true → Releases s client →
        step env s (.device input) = some s' → TornDown s s' client) ∧
    ¬∀ (env : Environment) (s s' : System) (input : DeviceInput) (client : Client),
      Transition.Reachable (step env) Started s → s.device.claimed = true →
        s.device.claimedSender = client → Disconnects s client →
          step env s (.device input) = some s' → TornDown s s' client := by
  constructor
  · intro hclaim
    obtain ⟨s, s', hs, hs', hclaimed, hreleases, hprogress, hqueue⟩ : ∃ s s',
        homeRun releaseArmed = some s ∧ step homeEnvironment s smoothDevice = some s' ∧
          s.device.claimed = true ∧ Releases s (ascii ":1.1") ∧ InProgress s ∧
            ¬StopBehind s'.eventQueue :=
      ⟨_, _, rfl, rfl, rfl, by decide, by decide, by decide⟩
    exact hqueue ((hclaim _ s s' _ _ (homeRun_reachable hs) hclaimed hreleases hs').stopped
      hprogress)
  · intro hclaim
    obtain ⟨s, s', hs, hs', hclaimed, hclaimer, hends, hnot⟩ : ∃ s s',
        homeRun disconnectQueued = some s ∧ step homeEnvironment s smoothDevice = some s' ∧
          s.device.claimed = true ∧ s.device.claimedSender = ascii ":1.1" ∧
            Disconnects s (ascii ":1.1") ∧ ¬ListenerTold s s' :=
      ⟨_, _, rfl, rfl, rfl, rfl, by decide, by decide⟩
    exact hnot (hclaim _ s s' _ _ (homeRun_reachable hs) hclaimed hclaimer hends hs').told

end Fpc
