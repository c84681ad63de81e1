/-
**Whose messages end a claim.**

A release is checked for its sender, a signal about a disconnected client is not compared with the
claim.  A signal about an earlier claimer, queued while its listener was still in place, ends the
claim that another client has made since.

Main definitions:

* `Fpc.ClaimLost` — a step ends a claim or cancels its operation;
* `Fpc.OwnEnd` — the device handles the release or the end of the claimer;
* `Fpc.NoStaleEnd` — a signal that is handled while a claim is held is about its holder.

Main results:

* `Fpc.claimLost_iff` — **what ends a claim comes from its holder exactly when the signal is not
  about someone else**;
* `Fpc.claim_isolation` — the same over runs;
* `Fpc.claim_isolation_stale` — a stale signal strips the claim of another client.
-/

import FpcReader.Daemon.SessionTurns

set_option relaxedAutoImplicit false
set_option autoImplicit false

namespace Fpc

open Bytes

/-! ### Claims that end -/

/-- The claim is given up while the device goes on, or the operation that the device remembers is
cancelled and forgotten. -/
def ClaimLost (s s' : System) : Prop :=
  s'.device.alive = true ∧
    ((s.device.claimed = true ∧ s'.device.claimed = false) ∨
      ∃ op ∈ s.operations, s.device.enrollVerifyTask = some op.id ∧
        s'.device.enrollVerifyTask ≠ some op.id ∧ ∀ other ∈ s'.operations, other.id ≠ op.id)

/-- The device handles the release of the claimer, or a signal that the claimer has disconnected. -/
def OwnEnd (s : System) : Action → Prop
  | .device _ => Releases s s.device.claimedSender ∨ Disconnects s s.device.claimedSender
  | _ => False

/-- A signal about a disconnected client that is handled while a claim is held is about its
holder. -/
def NoStaleEnd (s : System) : Action → Prop
  | .device _ => s.device.claimed = true → ∀ client, Disconnects s client →
      client = s.device.claimedSender
  | _ => True

instance (s s' : System) : Decidable (ClaimLost s s') := inferInstanceAs (Decidable (_ ∧ _))

instance : ∀ s action, Decidable (OwnEnd s action)
  | _, .device _ => inferInstanceAs (Decidable (_ ∨ _))
  | _, .call _ | _, .nameOwnerChanged _ _ | _, .gate _ _ | _, .listen _ _ | _, .operation _ _ _
  | _, .control _ | _, .rawFrame _ | _, .tlsFrame _ | _, .answer _ | _, .tlsReady
  | _, .transportFailed | _, .prepareForSleep _ => isFalse nofun

instance : ∀ s action, Decidable (NoStaleEnd s action)
  | s, .device _ => decidable_of_iff (s.device.claimed = true → ∀ client ∈ s.enders,
      Disconnects s client → client = s.device.claimedSender)
      ⟨fun h hclaimed client hends => h hclaimed client hends.mem_enders hends,
        fun h hclaimed client _ => h hclaimed client⟩
  | _, .call _ | _, .nameOwnerChanged _ _ | _, .gate _ _ | _, .listen _ _ | _, .operation _ _ _
  | _, .control _ | _, .rawFrame _ | _, .tlsFrame _ | _, .answer _ | _, .tlsReady
  | _, .transportFailed | _, .prepareForSleep _ => isTrue trivial

/-- A device that is not claimed has no operation, and one that is not there is not claimed. -/
structure Unoccupied (s : System) : Prop where
  free : s.device.claimed = false → s.device.enrollVerifyTask = none
  dead : s.device.alive = false → s.device.claimed = false

section Steps

variable {env : Environment} {s s' : System}

theorem Unoccupied.step (h : Unoccupied s) {action : Action} (hstep : step env s action = some s') :
    Unoccupied s' := by
  rcases step_session hstep with ⟨input, -, halive, hturn⟩ | ⟨hdevice, -⟩ | hdevice | ⟨-, hdevice⟩
  · have hturn := stepDevice_turn hturn
    refine ⟨fun hfree => ?_, fun hdead => ?_⟩
    · cases hturn.sessionTurn with
      | same hs =>
          rw [hs.device] at hfree ⊢
          exact h.free hfree
      | stopLeft _ hs =>
          rw [hs.device]
          rfl
      | claimed _ _ hs =>
          rw [hs.device] at hfree
          cases hfree
      | started _ hclaimed _ _ hs =>
          rw [hs.device] at hfree
          rw [show s.device.claimed = false from hfree] at hclaimed
          cases hclaimed
      | released _ hs =>
          rw [hs.device]
          exact takeDown_task s
      | disconnected _ hs =>
          rw [hs.device]
          exact hangUp_task s
    · rw [hturn.alive_eq, halive] at hdead
      cases hdead
  · refine ⟨fun hfree => ?_, fun hdead => ?_⟩
    · rw [hdevice] at hfree ⊢
      exact h.free hfree
    · rw [hdevice] at hdead ⊢
      exact h.dead hdead
  · exact ⟨fun _ => hdevice ▸ rfl, fun _ => hdevice ▸ rfl⟩
  · exact ⟨fun _ => hdevice ▸ rfl, fun _ => hdevice ▸ rfl⟩

theorem Unoccupied.of_reaches {ok : System → Action → Prop}
    (h : Transition.Reaches (Fpc.step env) ok Started s) : Unoccupied s := by
  refine Transition.Reaches.invariant ?_ (fun _ hinv _ hstep => hinv.step hstep) h
  rintro _ ⟨handle, file, rfl⟩
  exact ⟨fun _ => rfl, fun _ => rfl⟩

/-- Who keeps the claim and the operation has lost nothing. -/
theorem not_claimLost (hclaimed : s'.device.claimed = s.device.claimed)
    (htask : s'.device.enrollVerifyTask = s.device.enrollVerifyTask) : ¬ClaimLost s s' := by
  rintro ⟨-, ⟨hheld, hnot⟩ | ⟨op, -, hhas, hhasnot, -⟩⟩
  · rw [← hclaimed, hnot] at hheld
    cases hheld
  · exact hhasnot (htask.trans hhas)

/-- Without a claim there is nothing to lose. -/
theorem Unoccupied.claimed (h : Unoccupied s) (hlost : ClaimLost s s') :
    s.device.claimed = true := by
  by_contra hnot
  rcases hlost.2 with ⟨hclaimed, -⟩ | ⟨op, -, htask, -⟩
  · exact hnot hclaimed
  · rw [h.free (by simpa using hnot)] at htask
    cases htask

/-- A turn of the device that loses a claim handles a release or a signal about a client. -/
theorem SessionTurn.lost (hturn : SessionTurn s s') (h : Unoccupied s)
    (hlost : ClaimLost s s') :
    Releases s s.device.claimedSender ∨ ∃ client, Disconnects s client := by
  cases hturn with
  | same hs => exact absurd hlost (not_claimLost (by rw [hs.device]) (by rw [hs.device]))
  | claimed hpc hfree hs =>
      rw [h.claimed hlost] at hfree
      cases hfree
  | stopLeft _ hs =>
      rcases hlost.2 with ⟨hclaimed, hnot⟩ | ⟨op, hop, -, -, hgone⟩
      · rw [hs.device] at hnot
        rw [show s.device.claimed = false from hnot] at hclaimed
        cases hclaimed
      · -- the operation is forgotten, but not cancelled
        refine absurd rfl (hgone op ?_)
        rw [hs.operations]
        exact hop
  | started _ hclaimed _ hidle hs =>
      rcases hlost.2 with ⟨-, hnot⟩ | ⟨op, -, htask, -⟩
      · rw [hs.device] at hnot
        rw [show s.device.claimed = false from hnot] at hclaimed
        cases hclaimed
      · rw [hidle] at htask
        cases htask
  | released hreleases _ => exact Or.inl (hreleases.2.2.1 ▸ hreleases)
  | disconnected hends _ => exact Or.inr ⟨_, hends⟩

/-- **What ends a claim comes from its holder exactly when no signal about someone else does.** -/
theorem claimLost_iff (h : Unoccupied s) {action : Action}
    (hstep : step env s action = some s') :
    (ClaimLost s s' → OwnEnd s action) ↔ NoStaleEnd s action := by
  constructor
  · intro hown
    cases action with
    | device input =>
        intro hclaimed client hends
        obtain ⟨halive, hstep⟩ := step_device hstep
        have hs := stepDevice_hungUp hends hstep
        have hlost : ClaimLost s s' := by
          refine ⟨(stepDevice_turn hstep).alive_eq.trans halive, Or.inl ⟨hclaimed, ?_⟩⟩
          rw [hs.device]
          rfl
        rcases hown hlost with hreleases | hends'
        · exact absurd hends hreleases.not_disconnects
        · exact hends.eq hends'
    | _ => trivial
  · intro hnone hlost
    have hclaimed := h.claimed hlost
    rcases step_session hstep with ⟨input, rfl, -, hturn⟩ | ⟨hdevice, -⟩ | hdevice |
      ⟨hdead, hdevice⟩
    · rcases (stepDevice_turn hturn).sessionTurn.lost h hlost with hreleases | ⟨client, hends⟩
      · exact Or.inl hreleases
      · exact Or.inr (hnone hclaimed client hends ▸ hends)
    · exact absurd hlost (not_claimLost (by rw [hdevice]) (by rw [hdevice]))
    · rw [ClaimLost, hdevice] at hlost
      cases hlost.1
    · rw [h.dead hdead] at hclaimed
      cases hclaimed

end Steps

/-- **A client loses its claim by its own messages only, exactly in the runs in which no signal
about someone else is handled while a claim is held.** -/
theorem claim_isolation {env : Environment} {s : System}
    (h : Transition.Reachable (step env) Started s) (actions : List Action) :
    Transition.EveryStep (step env) (fun s action s' => ClaimLost s s' → OwnEnd s action) s
        actions ↔
      Transition.EveryStep (step env) (fun s action _ => NoStaleEnd s action) s actions :=
  Transition.EveryStep.iff_of_reachable
    (fun hreach hstep => claimLost_iff (Unoccupied.of_reaches hreach) hstep) h actions

/-- A client claims the device, its listener is in place, and it releases the device and is gone;
another client claims the device in between. -/
def claimersQueued : List Action :=
  bootActions ++ callActions ":1.1" 1 .claim (some "") ++
    [.listen 0 true, .listen 0 true, .call ⟨ascii ":1.1", 2, .release, none⟩,
      .call ⟨ascii ":1.2", 1, .claim, some (ascii "")⟩,
      .nameOwnerChanged 0 [ascii ":1.1", ascii ":1.1", []]]

/-- The device handles the release and the claim. -/
def claimersHandled : List Action :=
  claimersQueued ++ [smoothDevice, smoothDevice, smoothDevice, smoothDevice, smoothDevice]

theorem claim_isolation_own :
    ∃ s, homeRun claimersQueued = some s ∧
      Transition.EveryStep (step homeEnvironment)
        (fun s action s' => ClaimLost s s' → OwnEnd s action) s
        [smoothDevice, smoothDevice, smoothDevice] := by
  obtain ⟨s, s', hs, hok⟩ : ∃ s s', homeRun claimersQueued = some s ∧
      Transition.checkedRun (step homeEnvironment) NoStaleEnd s
        [smoothDevice, smoothDevice, smoothDevice] = some s' := ⟨_, _, rfl, rfl⟩
  exact ⟨s, hs, (claim_isolation (homeRun_reachable hs) _).2
    (Transition.everyStep_of_checkedRun hok)⟩

/-- The signal about the first client strips the claim of the second one. -/
theorem claim_isolation_stale :
    ¬∀ (env : Environment) (s : System) (actions : List Action),
      Transition.Reachable (step env) Started s →
        Transition.EveryStep (step env) (fun s action s' => ClaimLost s s' → OwnEnd s action)
          s actions := by
  intro hclaim
  obtain ⟨s, s', hs, hs', hclaimer, hlost, hother⟩ : ∃ s s', homeRun claimersHandled = some s ∧
      step homeEnvironment s smoothDevice = some s' ∧
        s.device.claimedSender = ascii ":1.2" ∧ ClaimLost s s' ∧ ¬OwnEnd s smoothDevice :=
    ⟨_, _, rfl, rfl, rfl, by decide, by decide⟩
  exact hother ((hclaim homeEnvironment s [smoothDevice] (homeRun_reachable hs) s' hs').1 hlost)

end Fpc
