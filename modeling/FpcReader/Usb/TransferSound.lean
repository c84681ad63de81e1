/-
**Transfers and handles live as long as they are used.**

Every transfer that has not been freed belongs to one object, or is in flight without one; the
counter of a handle is the number of transfers in flight on it.  From this follows that no call of
the library is a misuse, in every order of starting, submitting, completing, releasing and closing.

Main definitions:

* `Fpc.Owners` — which object a transfer belongs to;
* `Fpc.Accounts` — what the entries of handles say;
* `Fpc.UsbState.Sound` — the invariant.

Main results:

* `Fpc.UsbState.Sound.perform` — every action that can happen succeeds and keeps the invariant;
* `Fpc.usb_lifetime` — **the lifetime of transfers and handles, in every run**.
-/

import FpcReader.Lib.Fallible
import FpcReader.Usb.Transfer

set_option relaxedAutoImplicit false
set_option autoImplicit false

namespace Fpc

open Fallible

/-! ### Owners -/

/-- An object has the transfer it points to, which is in flight exactly when the object is pending;
any other transfer has been freed, or is in flight and points to no object. -/
structure Owners (transfers : List Transfer) (objects : List USBTransfer) : Prop where
  owned : ∀ (o : ℕ) (object : USBTransfer) (t : ℕ), objects[o]? = some object →
    object.transfer = some t → ∃ handle, transfers[t]? =
      some ⟨handle, some o, if object.pending then .inFlight else .allocated⟩
  owner : ∀ (t : ℕ) (transfer : Transfer), transfers[t]? = some transfer →
    transfer.status ≠ .freed → (transfer.userData = none ∧ transfer.status = .inFlight) ∨
      ∃ (o : ℕ) (object : USBTransfer), transfer.userData = some o ∧ objects[o]? = some object ∧
        object.transfer = some t
  resting : ∀ (o : ℕ) (object : USBTransfer), objects[o]? = some object →
    object.transfer = none → object.pending = false

section Ownership

variable {transfers : List Transfer} {objects : List USBTransfer}

/-- An object keeps its transfer, or leaves it to the callback, or frees it. -/
theorem Owners.update (h : Owners transfers objects) {o t : ℕ} {object object' : USBTransfer}
    {transfer : Transfer} (ho : objects[o]? = some object) (ht : object.transfer = some t)
    (hkept : (object'.transfer = some t ∧ ∃ handle,
        transfer = ⟨handle, some o, if object'.pending then .inFlight else .allocated⟩) ∨
      (object'.transfer = none ∧ object'.pending = false ∧
        (transfer.status = .freed ∨ transfer.userData = none ∧ transfer.status = .inFlight))) :
    Owners (transfers.set t transfer) (objects.set o object') := by
  obtain ⟨handle, htransfer⟩ := h.owned o object t ho ht
  have hroom : t < transfers.length := (List.getElem?_eq_some_iff.1 htransfer).1
  have hin : o < objects.length := (List.getElem?_eq_some_iff.1 ho).1
  -- no other object points to this transfer
  have hsole : ∀ (o' : ℕ) (object₂ : USBTransfer), objects[o']? = some object₂ →
      object₂.transfer = some t → o' = o := by
    intro o' object₂ ho' ht'
    obtain ⟨handle', hother⟩ := h.owned o' object₂ t ho' ht'
    rw [htransfer] at hother
    have hsame := congrArg Transfer.userData (Option.some.inj hother)
    exact (Option.some.inj hsame).symm
  refine ⟨fun o' object₂ t' ho' ht' => ?_, fun t' transfer₂ ht' halive => ?_,
    fun o' object₂ ho' hnone => ?_⟩
  · by_cases hsame : o' = o
    · rw [hsame, List.getElem?_set_self hin] at ho'
      obtain rfl := Option.some.inj ho'
      rcases hkept with ⟨hsome, handle', rfl⟩ | ⟨hnone, -⟩
      · obtain rfl := Option.some.inj (hsome.symm.trans ht')
        exact ⟨handle', hsame ▸ List.getElem?_set_self hroom⟩
      · rw [hnone] at ht'
        cases ht'
    · rw [List.getElem?_set_ne (Ne.symm hsame)] at ho'
      have hne : t ≠ t' := fun heq => hsame (hsole o' object₂ ho' (heq ▸ ht'))
      rw [List.getElem?_set_ne hne]
      exact h.owned o' object₂ t' ho' ht'
  · by_cases hsame : t' = t
    · rw [hsame, List.getElem?_set_self hroom] at ht'
      obtain rfl := Option.some.inj ht'
      rcases hkept with ⟨hsome, handle', rfl⟩ | ⟨-, -, hfreed | horphan⟩
      · exact Or.inr ⟨o, object', rfl, List.getElem?_set_self hin, hsame ▸ hsome⟩
      · exact absurd hfreed halive
      · exact Or.inl horphan
    · rw [List.getElem?_set_ne (Ne.symm hsame)] at ht'
      rcases h.owner t' transfer₂ ht' halive with horphan | ⟨o', object₂, huser, ho', hown⟩
      · exact Or.inl horphan
      · have hne : o ≠ o' := by
          intro heq
          rw [← heq, ho] at ho'
          obtain rfl := Option.some.inj ho'
          exact hsame (Option.some.inj (hown.symm.trans ht))
        exact Or.inr ⟨o', object₂, huser, (List.getElem?_set_ne hne).trans ho', hown⟩
  · by_cases hsame : o' = o
    · rw [hsame, List.getElem?_set_self hin] at ho'
      obtain rfl := Option.some.inj ho'
      rcases hkept with ⟨hsome, -⟩ | ⟨-, hpending, -⟩
      · rw [hnone] at hsome
        cases hsome
      · exact hpending
    · rw [List.getElem?_set_ne (Ne.symm hsame)] at ho'
      exact h.resting o' object₂ ho' hnone

/-- What an object runs next does not matter. -/
theorem Owners.setPhase (h : Owners transfers objects) {o : ℕ} {object : USBTransfer}
    (ho : objects[o]? = some object) (phase : TransferPhase) :
    Owners transfers (objects.set o { object with phase := phase }) := by
  have hin : o < objects.length := (List.getElem?_eq_some_iff.1 ho).1
  have hback : ∀ (o' : ℕ) (object₂ : USBTransfer),
      (objects.set o { object with phase := phase })[o']? = some object₂ →
      ∃ before : USBTransfer, objects[o']? = some before ∧ object₂.transfer = before.transfer ∧
        object₂.pending = before.pending := by
    intro o' object₂ ho'
    by_cases hsame : o' = o
    · rw [hsame, List.getElem?_set_self hin] at ho'
      exact ⟨object, hsame ▸ ho, Option.some.inj ho' ▸ rfl, Option.some.inj ho' ▸ rfl⟩
    · rw [List.getElem?_set_ne (Ne.symm hsame)] at ho'
      exact ⟨object₂, ho', rfl, rfl⟩
  refine ⟨fun o' object₂ t ho' ht => ?_, fun t transfer ht halive => ?_,
    fun o' object₂ ho' hnone => ?_⟩
  · obtain ⟨before, hbefore, htransfer, hpending⟩ := hback o' object₂ ho'
    rw [hpending]
    exact h.owned o' before t hbefore (htransfer ▸ ht)
  · rcases h.owner t transfer ht halive with horphan | ⟨o', object₂, huser, ho', hown⟩
    · exact Or.inl horphan
    · by_cases hsame : o' = o
      · rw [hsame, ho] at ho'
        obtain rfl := Option.some.inj ho'
        exact Or.inr ⟨o, _, hsame ▸ huser, List.getElem?_set_self hin, hown⟩
      · exact Or.inr ⟨o', object₂, huser,
          (List.getElem?_set_ne (Ne.symm hsame)).trans ho', hown⟩
  · obtain ⟨before, hbefore, htransfer, hpending⟩ := hback o' object₂ ho'
    rw [hpending]
    exact h.resting o' before hbefore (htransfer ▸ hnone)

/-- A transfer without an object is freed after its callback. -/
theorem Owners.free_orphan (h : Owners transfers objects) {t : ℕ} {transfer freed : Transfer}
    (ht : transfers[t]? = some transfer) (horphan : transfer.userData = none)
    (hfreed : freed.status = .freed) : Owners (transfers.set t freed) objects := by
  have hroom : t < transfers.length := (List.getElem?_eq_some_iff.1 ht).1
  refine ⟨fun o object t' ho hown => ?_, fun t' transfer' ht' halive => ?_, h.resting⟩
  · obtain ⟨handle, htransfer⟩ := h.owned o object t' ho hown
    have hne : t ≠ t' := by
      intro heq
      rw [← heq, ht] at htransfer
      rw [Option.some.inj htransfer] at horphan
      cases horphan
    exact ⟨handle, (List.getElem?_set_ne hne).trans htransfer⟩
  · by_cases hsame : t' = t
    · rw [hsame, List.getElem?_set_self hroom] at ht'
      rw [← Option.some.inj ht'] at halive
      exact absurd hfreed halive
    · rw [List.getElem?_set_ne (Ne.symm hsame)] at ht'
      exact h.owner t' transfer' ht' halive

/-- A transfer that could not get a buffer is freed at once. -/
theorem Owners.push_freed (h : Owners transfers objects) {freed : Transfer}
    (hfreed : freed.status = .freed) : Owners (transfers ++ [freed]) objects := by
  refine ⟨fun o object t ho hown => ?_, fun t transfer ht halive => ?_, h.resting⟩
  · obtain ⟨handle, htransfer⟩ := h.owned o object t ho hown
    have hin := (List.getElem?_eq_some_iff.1 htransfer).1
    exact ⟨handle, (List.getElem?_append_left hin).trans htransfer⟩
  · rcases Nat.lt_or_ge t transfers.length with hlt | hge
    · rw [List.getElem?_append_left hlt] at ht
      exact h.owner t transfer ht halive
    · rw [List.getElem?_append_right hge, List.getElem?_singleton] at ht
      split_ifs at ht
      rw [← Option.some.inj ht] at halive
      exact absurd hfreed halive

/-- An object gets a new transfer. -/
theorem Owners.push_owned (h : Owners transfers objects) {o handle : ℕ}
    {object object' : USBTransfer} (ho : objects[o]? = some object)
    (hnone : object.transfer = none) (hsome : object'.transfer = some transfers.length)
    (hpending : object'.pending = false) :
    Owners (transfers ++ [⟨handle, some o, .allocated⟩]) (objects.set o object') := by
  have hin : o < objects.length := (List.getElem?_eq_some_iff.1 ho).1
  refine ⟨fun o' object₂ t ho' hown => ?_, fun t transfer ht halive => ?_,
    fun o' object₂ ho' hnone' => ?_⟩
  · by_cases hsame : o' = o
    · rw [hsame, List.getElem?_set_self hin] at ho'
      obtain rfl := Option.some.inj ho'
      obtain rfl := Option.some.inj (hsome.symm.trans hown)
      refine ⟨handle, ?_⟩
      rw [List.getElem?_append_right le_rfl, Nat.sub_self, hpending, hsame]
      rfl
    · rw [List.getElem?_set_ne (Ne.symm hsame)] at ho'
      obtain ⟨handle', htransfer⟩ := h.owned o' object₂ t ho' hown
      have hlt := (List.getElem?_eq_some_iff.1 htransfer).1
      exact ⟨handle', (List.getElem?_append_left hlt).trans htransfer⟩
  · rcases Nat.lt_or_ge t transfers.length with hlt | hge
    · rw [List.getElem?_append_left hlt] at ht
      rcases h.owner t transfer ht halive with horphan | ⟨o', object₂, huser, ho', hown⟩
      · exact Or.inl horphan
      · have hne : o ≠ o' := by
          intro heq
          rw [← heq, ho] at ho'
          obtain rfl := Option.some.inj ho'
          rw [hnone] at hown
          cases hown
        exact Or.inr ⟨o', object₂, huser, (List.getElem?_set_ne hne).trans ho', hown⟩
    · rw [List.getElem?_append_right hge, List.getElem?_singleton] at ht
      split_ifs at ht with hzero
      have heq : t = transfers.length := by omega
      obtain rfl := Option.some.inj ht
      exact Or.inr ⟨o, object', rfl, List.getElem?_set_self hin, heq ▸ hsome⟩
  · by_cases hsame : o' = o
    · rw [hsame, List.getElem?_set_self hin] at ho'
      exact Option.some.inj ho' ▸ hpending
    · rw [List.getElem?_set_ne (Ne.symm hsame)] at ho'
      exact h.resting o' object₂ ho' hnone'

/-- A new object has no transfer. -/
theorem Owners.push_object (h : Owners transfers objects) :
    Owners transfers (objects ++ [⟨none, false, .idle⟩]) := by
  have hback : ∀ (o : ℕ) (object : USBTransfer),
      (objects ++ [⟨none, false, .idle⟩])[o]? = some object →
      objects[o]? = some object ∨ object = ⟨none, false, .idle⟩ := by
    intro o object ho
    rcases Nat.lt_or_ge o objects.length with hlt | hge
    · rw [List.getElem?_append_left hlt] at ho
      exact Or.inl ho
    · rw [List.getElem?_append_right hge, List.getElem?_singleton] at ho
      split_ifs at ho
      exact Or.inr (Option.some.inj ho).symm
  refine ⟨fun o object t ho hown => ?_, fun t transfer ht halive => ?_,
    fun o object ho hnone => ?_⟩
  · rcases hback o object ho with ho | rfl
    · exact h.owned o object t ho hown
    · cases hown
  · rcases h.owner t transfer ht halive with horphan | ⟨o, object, huser, ho, hown⟩
    · exact Or.inl horphan
    · have hin := (List.getElem?_eq_some_iff.1 ho).1
      exact Or.inr ⟨o, object, huser, (List.getElem?_append_left hin).trans ho, hown⟩
  · rcases hback o object ho with ho | rfl
    · exact h.resting o object ho hnone
    · rfl

end Ownership

/-! ### Accounts -/

/-- An entry counts the transfers in flight on an open handle; it closes exactly when that has been
requested, and otherwise there is a transfer.  A handle without an entry has none in flight, and its
close has not been requested. -/
structure Accounts (flights : ℕ → ℕ) (handles : SortedMap ℕ USBPendingHandle)
    (opened requested : List ℕ) : Prop where
  nonnull : 0 ∉ opened
  tracked : ∀ handle entry, handles.find? handle = some entry →
    entry.transfers = flights handle ∧ handle ∈ opened ∧
      (entry.closing = true ↔ handle ∈ requested) ∧ (entry.closing = false → 0 < entry.transfers)
  untracked : ∀ handle, handles.find? handle = none → flights handle = 0 ∧ handle ∉ requested

section Counting

variable {flights flights' : ℕ → ℕ} {handles : SortedMap ℕ USBPendingHandle}
  {opened requested : List ℕ}

/-- Only the counts matter. -/
theorem Accounts.congr (h : Accounts flights handles opened requested)
    (hsame : ∀ handle, flights' handle = flights handle) :
    Accounts flights' handles opened requested := by
  rwa [funext hsame]

/-- Only what lookups find matters. -/
theorem Accounts.congr_handles {handles' : SortedMap ℕ USBPendingHandle}
    (h : Accounts flights handles opened requested)
    (hsame : ∀ handle, handles'.find? handle = handles.find? handle) :
    Accounts flights handles' opened requested := by
  rwa [SortedMap.ext_find? hsame]

/-- A submitted transfer is counted. -/
theorem Accounts.submit (h : Accounts flights handles opened requested) {handle : ℕ}
    {entry : USBPendingHandle} (hentry : entry = (handles.find? handle).getD ⟨0, false, -1⟩)
    (hopen : handle ∈ opened) (hclosing : entry.closing = false)
    (hrequested : handle ∉ requested)
    (hcount : ∀ other, flights' other = flights other + if other = handle then 1 else 0) :
    Accounts flights' (handles.insert handle { entry with transfers := entry.transfers + 1 })
      opened requested := by
  have hsame : entry.transfers = flights handle := by
    cases hfind : handles.find? handle with
    | none =>
        rw [hfind, Option.getD_none] at hentry
        rw [hentry, (h.untracked handle hfind).1]
    | some found =>
        rw [hfind, Option.getD_some] at hentry
        rw [hentry, (h.tracked handle found hfind).1]
  refine ⟨h.nonnull, fun other found hfind => ?_, fun other hfind => ?_⟩
  · rw [SortedMap.find?_insert] at hfind
    split_ifs at hfind with heq
    · -- the handle of the transfer
      obtain rfl := Option.some.inj hfind
      rw [hcount, ← heq, if_pos rfl]
      refine ⟨congrArg (· + 1) hsame, hopen, ?_, fun _ => Nat.succ_pos _⟩
      simp [hclosing, hrequested]
    · rw [hcount, if_neg (Ne.symm heq), Nat.add_zero]
      exact h.tracked other found hfind
  · rw [SortedMap.find?_insert] at hfind
    split_ifs at hfind with heq
    rw [hcount, if_neg (Ne.symm heq), Nat.add_zero]
    exact h.untracked other hfind

/-- A refused transfer leaves the entries as they were. -/
theorem Accounts.refuse (h : Accounts flights handles opened requested) {handle : ℕ}
    {entry : USBPendingHandle} (hentry : entry = (handles.find? handle).getD ⟨0, false, -1⟩)
    (hclosing : entry.closing = false) :
    Accounts flights (if entry.transfers = 0 then (handles.insert handle entry).erase handle
      else handles.insert handle entry) opened requested := by
  refine h.congr_handles fun other => ?_
  cases hfind : handles.find? handle with
  | none =>
      rw [hfind, Option.getD_none] at hentry
      rw [if_pos (hentry ▸ rfl), SortedMap.find?_erase]
      split_ifs with heq
      · rw [← heq, hfind]
      · exact SortedMap.find?_insert_of_ne handles (Ne.symm heq) entry
  | some found =>
      rw [hfind, Option.getD_some] at hentry
      have hpos := (h.tracked handle found hfind).2.2.2 (hentry ▸ hclosing)
      rw [if_neg (by rw [hentry]; omega), SortedMap.find?_insert]
      split_ifs with heq
      · rw [← heq, hfind, hentry]
      · rfl

/-- A handle is closed once nothing is in flight on it and its entry is gone. -/
theorem Accounts.close {handle : ℕ} (hnonnull : 0 ∉ opened)
    (htracked : ∀ other entry, other ≠ handle → handles.find? other = some entry →
      entry.transfers = flights other ∧ other ∈ opened ∧
        (entry.closing = true ↔ other ∈ requested) ∧ (entry.closing = false → 0 < entry.transfers))
    (hgone : handles.find? handle = none) (hnone : flights handle = 0)
    (huntracked : ∀ other, other ≠ handle → handles.find? other = none →
      flights other = 0 ∧ other ∉ requested) :
    Accounts flights handles (opened.filter (· ≠ handle)) (requested.filter (· ≠ handle)) := by
  refine ⟨fun hmem => hnonnull (List.mem_of_mem_filter hmem), fun other entry hfind => ?_,
    fun other hfind => ?_⟩
  · have hother : other ≠ handle := by
      rintro rfl
      rw [hgone] at hfind
      cases hfind
    obtain ⟨hcount, hopen, hclosing, hpos⟩ := htracked other entry hother hfind
    refine ⟨hcount, List.mem_filter.2 ⟨hopen, decide_eq_true hother⟩, ?_, hpos⟩
    rw [hclosing, List.mem_filter]
    exact ⟨fun hmem => ⟨hmem, decide_eq_true hother⟩, And.left⟩
  · by_cases hother : other = handle
    · rw [hother]
      exact ⟨hnone, fun hmem => of_decide_eq_true (List.mem_filter.1 hmem).2 rfl⟩
    · obtain ⟨hzero, hnot⟩ := huntracked other hother hfind
      exact ⟨hzero, fun hmem => hnot (List.mem_of_mem_filter hmem)⟩

/-- A transfer is no longer in flight, and its handle counts one less. -/
theorem Accounts.finish {s : UsbState} (h : Accounts flights s.handles s.opened s.requested)
    {handle : ℕ}
    (hcount : ∀ other, flights other = flights' other + if other = handle then 1 else 0) :
    Accounts flights' (finishUsbTransfer s handle).handles s.opened s.requested := by
  have hhandle := hcount handle
  rw [if_pos rfl] at hhandle
  unfold finishUsbTransfer
  cases hfind : s.handles.find? handle with
  | none =>
      have hzero := (h.untracked handle hfind).1
      omega
  | some entry =>
      obtain ⟨hsame, hopen, hclosing, -⟩ := h.tracked handle entry hfind
      have hother : ∀ other, handle ≠ other → flights' other = flights other := by
        intro other hne
        have hcount := hcount other
        rw [if_neg (Ne.symm hne)] at hcount
        omega
      dsimp only
      split_ifs with hlast
      · refine ⟨h.nonnull, fun other found hfound => ?_, fun other hnone => ?_⟩
        · rw [SortedMap.find?_erase] at hfound
          split_ifs at hfound with heq
          rw [hother other heq]
          exact h.tracked other found hfound
        · rw [SortedMap.find?_erase] at hnone
          split_ifs at hnone with heq
          · rw [← heq, ← hclosing, hlast.2]
            exact ⟨by omega, Bool.false_ne_true⟩
          · rw [hother other heq]
            exact h.untracked other hnone
      · refine ⟨h.nonnull, fun other found hfound => ?_, fun other hnone => ?_⟩
        · rw [SortedMap.find?_insert] at hfound
          split_ifs at hfound with heq
          · obtain rfl := Option.some.inj hfound
            rw [← heq]
            refine ⟨?_, hopen, hclosing, fun hfalse => ?_⟩
            · show entry.transfers - 1 = _
              omega
            · exact Nat.pos_of_ne_zero fun hzero => hlast ⟨hzero, hfalse⟩
          · rw [hother other heq]
            exact h.tracked other found hfound
        · rw [SortedMap.find?_insert] at hnone
          split_ifs at hnone with heq
          rw [hother other heq]
          exact h.untracked other hnone

/-- The number of transfers in flight on a handle, after one transfer has changed. -/
theorem flights_set {transfers : List Transfer} {t : ℕ} {before : Transfer}
    (ht : transfers[t]? = some before) (after : Transfer) (handle : ℕ) :
    (transfers.set t after).countP (fun transfer => transfer.fliesOn handle) +
        (if before.fliesOn handle then 1 else 0) =
      transfers.countP (fun transfer => transfer.fliesOn handle) +
        if after.fliesOn handle then 1 else 0 := by
  obtain ⟨hroom, hget⟩ := List.getElem?_eq_some_iff.1 ht
  have hmem : before ∈ transfers := List.mem_of_getElem? ht
  rw [List.countP_set hroom, hget]
  cases hbefore : before.fliesOn handle with
  | false => simp only [Bool.false_eq_true, if_false, Nat.sub_zero, Nat.add_zero]
  | true =>
      have hpos : 0 < transfers.countP fun transfer => transfer.fliesOn handle :=
        List.countP_pos_iff.2 ⟨before, hmem, hbefore⟩
      simp only [if_true]
      omega

theorem flights_push {transfers : List Transfer} {transfer : Transfer}
    (h : transfer.status ≠ .inFlight) (handle : ℕ) :
    (transfers ++ [transfer]).countP (fun transfer => transfer.fliesOn handle) =
      transfers.countP fun transfer => transfer.fliesOn handle := by
  have hnot : transfer.fliesOn handle = false := by
    rw [Transfer.fliesOn, decide_eq_false h, Bool.false_and]
  rw [List.countP_append, List.countP_singleton, hnot]
  rfl

end Counting

/-! ### Objects that act -/

/-- An object that runs something has a transfer; one that is about to submit does so on a handle
that is open, and not on one of the quiet handles. -/
def Acts (transfers : List Transfer) (opened quiet : List ℕ) (object : USBTransfer) : Prop :=
  (object.phase = .armed ∨ object.phase = .resumed → object.transfer ≠ none) ∧
    (object.phase = .armed → object.pending = false ∧ ∀ t transfer, object.transfer = some t →
      transfers[t]? = some transfer → transfer.devHandle ∈ opened ∧ transfer.devHandle ∉ quiet)

theorem Acts.of_idle {transfers : List Transfer} {opened quiet : List ℕ} {object : USBTransfer}
    (h : object.phase = .idle ∨ object.phase = .waiting) : Acts transfers opened quiet object := by
  refine ⟨fun hruns => ?_, fun harmed => ?_⟩
  · rcases h with h | h <;> rw [h] at hruns <;> exact absurd hruns (by decide)
  · rcases h with h | h <;> rw [h] at harmed <;> cases harmed

/-- **The invariant**, while no object is about to submit on one of the quiet handles. -/
structure UsbState.Sound (s : UsbState) (quiet : List ℕ) : Prop where
  owners : Owners s.transfers s.objects
  accounts : Accounts s.inFlight s.handles s.opened s.requested
  acts : ∀ (o : ℕ) (object : USBTransfer), s.objects[o]? = some object →
    Acts s.transfers s.opened quiet object

section Invariant

variable {s : UsbState} {quiet : List ℕ}

theorem UsbState.initial_sound : UsbState.initial.Sound quiet :=
  ⟨⟨nofun, nofun, nofun⟩, ⟨nofun, nofun, fun _ _ => ⟨rfl, nofun⟩⟩, nofun⟩

/-- Transfers keep their handles. -/
def SameHandles (before after : List Transfer) : Prop :=
  ∀ (t : ℕ) (old : Transfer), before[t]? = some old →
    ∃ new : Transfer, after[t]? = some new ∧ new.devHandle = old.devHandle

theorem SameHandles.refl (transfers : List Transfer) : SameHandles transfers transfers :=
  fun _ old ht => ⟨old, ht, rfl⟩

theorem SameHandles.push {before after : List Transfer} (h : SameHandles before after)
    (transfer : Transfer) : SameHandles before (after ++ [transfer]) := by
  intro t old ht
  obtain ⟨new, hnew, hsame⟩ := h t old ht
  exact ⟨new, (List.getElem?_append_left (List.getElem?_eq_some_iff.1 hnew).1).trans hnew, hsame⟩

theorem sameHandles_set {transfers : List Transfer} {t : ℕ} {before after : Transfer}
    (ht : transfers[t]? = some before) (hsame : after.devHandle = before.devHandle) :
    SameHandles transfers (transfers.set t after) := by
  intro t' old hold
  by_cases heq : t' = t
  · rw [heq, ht] at hold
    rw [heq, List.getElem?_set_self (List.getElem?_eq_some_iff.1 ht).1]
    exact ⟨after, rfl, Option.some.inj hold ▸ hsame⟩
  · exact ⟨old, (List.getElem?_set_ne (Ne.symm heq)).trans hold, rfl⟩

/-- What an object does stays the same when its transfer keeps its handle. -/
theorem UsbState.Sound.acts_after (h : s.Sound quiet) {transfers : List Transfer}
    (hsame : SameHandles s.transfers transfers) {o : ℕ} {object : USBTransfer}
    (ho : s.objects[o]? = some object) : Acts transfers s.opened quiet object := by
  obtain ⟨hruns, harmed⟩ := h.acts o object ho
  refine ⟨hruns, fun hphase => ⟨(harmed hphase).1, fun t transfer ht htransfer => ?_⟩⟩
  obtain ⟨handle, hown⟩ := h.owners.owned o object t ho ht
  obtain ⟨new, hnew, hdev⟩ := hsame t _ hown
  obtain rfl := Option.some.inj (hnew.symm.trans htransfer)
  rw [hdev]
  exact (harmed hphase).2 t _ ht hown

/-- One object has changed. -/
theorem UsbState.Sound.acts_set (h : s.Sound quiet) {transfers : List Transfer}
    (hsame : SameHandles s.transfers transfers) {o : ℕ} {object : USBTransfer}
    (hobject : Acts transfers s.opened quiet object) (o' : ℕ) (object' : USBTransfer)
    (ho' : (s.objects.set o object)[o']? = some object') :
    Acts transfers s.opened quiet object' := by
  by_cases heq : o = o'
  · by_cases hin : o < s.objects.length
    · rw [← heq, List.getElem?_set_self hin] at ho'
      exact Option.some.inj ho' ▸ hobject
    · rw [List.getElem?_eq_none (by rw [List.length_set]; omega)] at ho'
      cases ho'
  · rw [List.getElem?_set_ne heq] at ho'
    exact h.acts_after hsame ho'

end Invariant

/-! ### Releasing -/

section Methods

variable {s : UsbState} {quiet : List ℕ} {o : ℕ} {object : USBTransfer}

theorem object?_eq (ho : s.objects[o]? = some object) : s.object? o = .ok object := by
  rw [UsbState.object?, ho]

theorem transfer?_eq {t : ℕ} {transfer : Transfer} (ht : s.transfers[t]? = some transfer)
    (halive : transfer.status ≠ .freed) : s.transfer? t = .ok transfer := by
  rw [UsbState.transfer?, ht]
  exact if_neg halive

theorem free_eq {t : ℕ} {transfer : Transfer} (ht : s.transfers[t]? = some transfer)
    (hstatus : transfer.status = .allocated) :
    libusbFreeTransfer s t = .ok (s.setTransfer t { transfer with status := .freed }) := by
  rw [libusbFreeTransfer, transfer?_eq ht (hstatus ▸ nofun)]
  show (if transfer.status = .inFlight then _ else _) = _
  rw [hstatus]
  rfl

theorem rest_eq (ho : s.objects[o]? = some object) :
    USBTransfer.rest s o = .ok (s.setObject o { object with phase := .idle }) := by
  rw [USBTransfer.rest, object?_eq ho]
  rfl

/-- A new transfer is filled. -/
theorem alloc_set (s : UsbState) (before after : Transfer) :
    (libusbAllocTransfer s before).setTransfer s.transfers.length after =
      libusbAllocTransfer s after := by
  have hset : (s.transfers ++ [before]).set s.transfers.length after = s.transfers ++ [after] := by
    rw [List.set_append_right _ _ le_rfl, Nat.sub_self]
    rfl
  rw [UsbState.setTransfer, libusbAllocTransfer, libusbAllocTransfer]
  dsimp only
  rw [hset]

/-- An object without a transfer, and whether it is still to be told what to run next. -/
structure Released (s : UsbState) (o : ℕ) (object : USBTransfer) (s' : UsbState) : Prop where
  owners : Owners s'.transfers s'.objects
  same : SameHandles s.transfers s'.transfers
  flights : ∀ handle, s'.inFlight handle = s.inFlight handle
  objects : s'.objects = s.objects.set o { object with transfer := none, pending := false }
  handles : s'.handles = s.handles
  opened : s'.opened = s.opened
  requested : s'.requested = s.requested

/-- **Releasing** frees the transfer, or leaves it to its callback. -/
theorem release_ok (h : s.Sound quiet) (ho : s.objects[o]? = some object) :
    ∃ s', USBTransfer.release s o = .ok s' ∧ Released s o object s' := by
  rw [USBTransfer.release, object?_eq ho, ok_bind]
  cases htransfer : object.transfer with
  | none =>
      have hsame : ({ object with transfer := none, pending := false } : USBTransfer) = object := by
        rw [← htransfer, ← h.owners.resting o object ho htransfer]
      have hin := (List.getElem?_eq_some_iff.1 ho).1
      refine ⟨s, rfl, h.owners, .refl _, fun _ => rfl, ?_, rfl, rfl, rfl⟩
      rw [hsame, ← (List.getElem?_eq_some_iff.1 ho).2]
      exact (List.set_getElem_self hin).symm
  | some t =>
      obtain ⟨handle, ht⟩ := h.owners.owned o object t ho htransfer
      dsimp only
      cases hpending : object.pending with
      | true =>
          rw [hpending, if_pos rfl] at ht
          rw [if_pos rfl, transfer?_eq ht nofun, ok_bind, ok_bind]
          refine ⟨_, rfl, ?_, sameHandles_set ht rfl, fun other => ?_, rfl, rfl, rfl, rfl⟩
          · exact h.owners.update ho htransfer (Or.inr ⟨rfl, rfl, Or.inr ⟨rfl, rfl⟩⟩)
          · exact Nat.add_right_cancel (flights_set ht _ other)
      | false =>
          rw [hpending, if_neg (by decide)] at ht
          rw [if_neg (by decide), free_eq ht rfl, ok_bind]
          refine ⟨_, rfl, ?_, sameHandles_set ht rfl, fun other => ?_, rfl, rfl, rfl, rfl⟩
          · exact h.owners.update ho htransfer (Or.inr ⟨rfl, rfl, Or.inl rfl⟩)
          · exact Nat.add_right_cancel (flights_set ht _ other)

/-- An object has no transfer any more, and the handles are as they were. -/
structure Rested (s : UsbState) (quiet : List ℕ) (o : ℕ) (s' : UsbState) : Prop where
  sound : s'.Sound quiet
  objects : s'.objects = s.objects.set o ⟨none, false, .idle⟩
  opened : s'.opened = s.opened
  requested : s'.requested = s.requested

/-- An object that rests after its release leaves everything sound. -/
theorem Released.rest {s' : UsbState} (h : s.Sound quiet) (hr : Released s o object s')
    (ho : s.objects[o]? = some object) :
    ∃ s'', USBTransfer.rest s' o = .ok s'' ∧ Rested s quiet o s'' := by
  have hin : o < s.objects.length := (List.getElem?_eq_some_iff.1 ho).1
  have ho' : s'.objects[o]? = some { object with transfer := none, pending := false } := by
    rw [hr.objects]
    exact List.getElem?_set_self hin
  have hset : (s'.setObject o
      { object with transfer := none, pending := false, phase := .idle }).objects =
      s.objects.set o { object with transfer := none, pending := false, phase := .idle } := by
    show s'.objects.set o _ = _
    rw [hr.objects, List.set_set]
  refine ⟨_, rest_eq ho', ⟨hr.owners.setPhase ho' .idle, ?_, fun o' object' hget => ?_⟩, hset,
    hr.opened, hr.requested⟩
  · have haccounts := h.accounts.congr hr.flights
    rw [← hr.handles, ← hr.opened, ← hr.requested] at haccounts
    exact haccounts
  · rw [hset] at hget
    have hacts := h.acts_set hr.same (.of_idle (Or.inl rfl)) o' object' hget
    rw [← hr.opened] at hacts
    exact hacts

/-- **Releasing an object** whose task is cancelled. -/
theorem finalize_ok (h : s.Sound quiet) (ho : s.objects[o]? = some object) :
    ∃ s', USBTransfer.finalize s o = .ok s' ∧ Rested s quiet o s' := by
  obtain ⟨s', hrelease, hr⟩ := release_ok h ho
  rw [USBTransfer.finalize, hrelease, ok_bind]
  exact hr.rest h ho

/-- **Starting a call**, whether there is memory for it or not. -/
theorem start_ok (h : s.Sound quiet) (ho : s.objects[o]? = some object) {handle : ℕ}
    (hopen : handle ∈ s.opened) (hquiet : handle ∉ quiet) (allocated buffered : Bool) :
    ∃ s', USBTransfer.start s o handle allocated buffered = .ok s' ∧ s'.Sound quiet := by
  obtain ⟨r, hrelease, hr⟩ := release_ok h ho
  have hin : o < s.objects.length := (List.getElem?_eq_some_iff.1 ho).1
  have ho' : r.objects[o]? = some { object with transfer := none, pending := false } := by
    rw [hr.objects]
    exact List.getElem?_set_self hin
  rw [USBTransfer.start, hrelease, ok_bind]
  cases allocated with
  | false =>
      obtain ⟨r', hrest, hrested⟩ := hr.rest h ho
      exact ⟨r', hrest, hrested.sound⟩
  | true =>
      rw [if_neg (by decide)]
      dsimp only
      have hnew : (libusbAllocTransfer r ⟨0, none, .allocated⟩).transfers[r.transfers.length]? =
          some ⟨0, none, .allocated⟩ := List.getElem?_concat_length
      cases buffered with
      | false =>
          rw [if_pos (by decide), free_eq hnew rfl, ok_bind, alloc_set]
          have hfreed : Released s o object (libusbAllocTransfer r ⟨0, none, .freed⟩) := by
            refine ⟨hr.owners.push_freed rfl, hr.same.push _, fun other => ?_, hr.objects,
              hr.handles, hr.opened, hr.requested⟩
            exact (flights_push (by decide) other).trans (hr.flights other)
          obtain ⟨r', hrest, hrested⟩ := hfreed.rest h ho
          exact ⟨r', hrest, hrested.sound⟩
      | true =>
          have ho'' : (libusbAllocTransfer r ⟨0, none, .allocated⟩).objects[o]? =
            some { object with transfer := none, pending := false } := ho'
          rw [if_neg (by decide), object?_eq ho'', ok_bind, alloc_set]
          refine ⟨_, rfl, hr.owners.push_owned ho' rfl rfl rfl, ?_, fun o' object' hget => ?_⟩
          · have haccounts : Accounts
                (libusbAllocTransfer r ⟨handle, some o, .allocated⟩).inFlight s.handles s.opened
                  s.requested :=
              h.accounts.congr fun other =>
                (flights_push (by simp only [ne_eq, reduceCtorEq, not_false_eq_true]) other).trans
                  (hr.flights other)
            rw [← hr.handles, ← hr.opened, ← hr.requested] at haccounts
            exact haccounts
          · have hset : (r.objects.set o { object with
                  transfer := some r.transfers.length, pending := false, phase := .armed }) =
                s.objects.set o { object with
                  transfer := some r.transfers.length, pending := false, phase := .armed } := by
              rw [hr.objects, List.set_set]
            have hown : Acts (r.transfers ++ [⟨handle, some o, .allocated⟩]) s.opened quiet
                { object with
                  transfer := some r.transfers.length, pending := false, phase := .armed } := by
              refine ⟨fun _ => nofun, fun _ => ⟨rfl, fun t transfer ht htransfer => ?_⟩⟩
              obtain rfl := Option.some.inj ht
              rw [List.getElem?_concat_length] at htransfer
              obtain rfl := Option.some.inj htransfer
              exact ⟨hopen, hquiet⟩
            have hafter : (r.objects.set o { object with
                transfer := some r.transfers.length, pending := false, phase := .armed })[o']? =
              some object' := hget
            rw [hset] at hafter
            have hacts := h.acts_set (hr.same.push _) hown o' object' hafter
            rw [← hr.opened] at hacts
            exact hacts

/-- An object that rests leaves everything sound. -/
theorem rest_ok (h : s.Sound quiet) (ho : s.objects[o]? = some object) :
    ∃ s', USBTransfer.rest s o = .ok s' ∧ s'.Sound quiet :=
  ⟨_, rest_eq ho, h.owners.setPhase ho .idle, h.accounts, fun o' object' hget =>
    h.acts_set (.refl _) (.of_idle (Or.inl rfl)) o' object' hget⟩

theorem flies_iff (transfer : Transfer) (handle : ℕ) :
    transfer.fliesOn handle = true ↔ transfer.status = .inFlight ∧ handle = transfer.devHandle := by
  rw [Transfer.fliesOn, Bool.and_eq_true, decide_eq_true_eq, decide_eq_true_eq,
    @eq_comm _ handle]

/-- **Submitting**, whether the library takes the transfer or not. -/
theorem submit_ok (h : s.Sound quiet) (ho : s.objects[o]? = some object)
    (harmed : object.phase = .armed) (accepted : Bool) :
    ∃ s', USBTransfer.submit s o accepted = .ok s' ∧ s'.Sound quiet := by
  obtain ⟨hruns, hready⟩ := h.acts o object ho
  obtain ⟨t, ht⟩ := Option.ne_none_iff_exists'.1 (hruns (Or.inl harmed))
  obtain ⟨hpending, hopens⟩ := hready harmed
  obtain ⟨handle, htransfer⟩ := h.owners.owned o object t ho ht
  rw [hpending, if_neg (by decide)] at htransfer
  have hopen : handle ∈ s.opened := (hopens t _ ht htransfer).1
  obtain rfl : object = ⟨some t, false, .armed⟩ := by rw [← ht, ← hpending, ← harmed]
  rw [USBTransfer.submit, object?_eq ho, ok_bind]
  dsimp only
  rw [transfer?_eq htransfer nofun, ok_bind]
  dsimp only
  generalize hentry : (s.handles.find? handle).getD ⟨0, false, -1⟩ = entry
  by_cases hclosing : entry.closing = true
  · rw [if_pos hclosing]
    exact rest_ok h ho
  rw [Bool.not_eq_true] at hclosing
  -- the close of a handle has not been requested while its entry is not closing
  have hrequested : handle ∉ s.requested := by
    cases hfind : s.handles.find? handle with
    | none => exact (h.accounts.untracked handle hfind).2
    | some found =>
        rw [hfind, Option.getD_some] at hentry
        rw [← (h.accounts.tracked handle found hfind).2.2.1, hentry, hclosing]
        exact Bool.false_ne_true
  have hlibrary : libusbSubmitTransfer s t accepted = .ok (if accepted then
      s.setTransfer t ⟨handle, some o, .inFlight⟩ else s) := by
    rw [libusbSubmitTransfer, transfer?_eq htransfer nofun, ok_bind, if_neg nofun,
      if_neg (not_not.2 hopen), if_neg hrequested]
  rw [if_neg (by rw [hclosing]; decide), hlibrary, ok_bind]
  cases accepted with
  | true =>
      rw [if_pos rfl, if_pos rfl]
      have hsame : SameHandles s.transfers (s.transfers.set t ⟨handle, some o, .inFlight⟩) :=
        sameHandles_set htransfer rfl
      refine ⟨_, rfl, h.owners.update ho rfl (Or.inl ⟨rfl, handle, rfl⟩), ?_,
        fun o' object' hget => ?_⟩
      · refine h.accounts.submit hentry.symm hopen hclosing hrequested fun other => ?_
        have hbefore : (⟨handle, some o, .allocated⟩ : Transfer).fliesOn other = false := rfl
        have hcount := flights_set htransfer ⟨handle, some o, .inFlight⟩ other
        rw [hbefore] at hcount
        simp only [flies_iff, true_and, Bool.false_eq_true, if_false, Nat.add_zero] at hcount
        exact hcount
      · exact h.acts_set hsame (.of_idle (Or.inr rfl)) o' object' hget
  | false =>
      rw [if_neg (by decide), if_neg (by decide)]
      refine ⟨_, rfl, h.owners.setPhase ho .idle, ?_, fun o' object' hget => ?_⟩
      · exact h.accounts.refuse hentry.symm hclosing
      · exact h.acts_set (.refl _) (.of_idle (Or.inl rfl)) o' object' hget

/-! ### Callbacks -/

/-- Counting down changes the map only. -/
theorem finishUsbTransfer_eq (s : UsbState) (handle : ℕ) :
    finishUsbTransfer s handle = { s with handles := (finishUsbTransfer s handle).handles } := by
  unfold finishUsbTransfer
  cases s.handles.find? handle <;> rfl

/-- The counts, once a transfer is no longer in flight. -/
theorem flights_landed {t : ℕ} {transfer landed : Transfer}
    (ht : s.transfers[t]? = some transfer) (hflies : transfer.status = .inFlight)
    (hlanded : landed.status ≠ .inFlight) (other : ℕ) :
    s.inFlight other = (s.transfers.set t landed).countP (fun transfer => transfer.fliesOn other) +
      if other = transfer.devHandle then 1 else 0 := by
  have hcount := flights_set ht landed other
  simp only [flies_iff, hflies, hlanded, true_and, false_and, if_false, Nat.add_zero] at hcount
  exact hcount.symm

/-- **The callback of a transfer.** -/
theorem resume_ok (h : s.Sound quiet) {t : ℕ} {transfer : Transfer}
    (ht : s.transfers[t]? = some transfer) (hflies : transfer.status = .inFlight) :
    ∃ s', USBTransfer.resume s t = .ok s' ∧ s'.Sound quiet := by
  obtain ⟨handle, userData, status⟩ := transfer
  obtain rfl : status = .inFlight := hflies
  have hroom : t < s.transfers.length := (List.getElem?_eq_some_iff.1 ht).1
  rw [USBTransfer.resume, transfer?_eq ht nofun, ok_bind]
  dsimp only
  rw [finishUsbTransfer_eq]
  generalize hhandles :
    (finishUsbTransfer (s.setTransfer t ⟨handle, userData, .allocated⟩) handle).handles = handles
  have haccounts : ∀ landed : Transfer, landed.status ≠ .inFlight →
      Accounts (fun other => (s.transfers.set t landed).countP fun transfer =>
        transfer.fliesOn other) handles s.opened s.requested := by
    intro landed hlanded
    have hfinish : Accounts _ (finishUsbTransfer s handle).handles s.opened s.requested :=
      h.accounts.finish (flights_landed ht rfl hlanded)
    have hsame : (finishUsbTransfer s handle).handles = handles := by
      rw [← hhandles]
      unfold finishUsbTransfer
      dsimp only [UsbState.setTransfer]
      cases s.handles.find? handle <;> rfl
    rwa [hsame] at hfinish
  rcases h.owners.owner t _ ht nofun with ⟨hnone, -⟩ | ⟨o, object, hsome, ho, hown⟩
  · obtain rfl : userData = none := hnone
    -- the object is gone, so the transfer goes too
    have hget : (s.transfers.set t ⟨handle, none, .allocated⟩)[t]? =
        some ⟨handle, none, .allocated⟩ := List.getElem?_set_self hroom
    have hfree : libusbFreeTransfer
        { s.setTransfer t ⟨handle, none, .allocated⟩ with handles := handles } t = .ok _ :=
      free_eq hget rfl
    have hsame : SameHandles s.transfers (s.transfers.set t ⟨handle, none, .freed⟩) :=
      sameHandles_set ht rfl
    have hset : (s.transfers.set t ⟨handle, none, .allocated⟩).set t ⟨handle, none, .freed⟩ =
        s.transfers.set t ⟨handle, none, .freed⟩ := List.set_set _
    refine ⟨_, hfree, ?_, ?_, fun o object ho => ?_⟩
    · show Owners ((s.transfers.set t _).set t _) s.objects
      rw [hset]
      exact h.owners.free_orphan ht rfl rfl
    · show Accounts (fun other => ((s.transfers.set t _).set t _).countP fun transfer =>
        transfer.fliesOn other) handles s.opened s.requested
      rw [hset]
      exact haccounts _ nofun
    · show Acts ((s.transfers.set t _).set t _) s.opened quiet object
      rw [hset]
      exact h.acts_after hsame ho
  · obtain rfl : userData = some o := hsome
    obtain ⟨handle', howned⟩ := h.owners.owned o object t ho hown
    rw [ht] at howned
    -- a transfer in flight belongs to a pending object, which may be touched
    have hpending : object.pending = true := by
      by_contra hnot
      rw [if_neg hnot] at howned
      cases howned
    dsimp only
    have ho' : UsbState.object? { s.setTransfer t ⟨handle, some o, .allocated⟩ with
        handles := handles } o = .ok object := object?_eq ho
    rw [ho', ok_bind, if_neg (by rw [hown, hpending]; simp)]
    have hsame : SameHandles s.transfers (s.transfers.set t ⟨handle, some o, .allocated⟩) :=
      sameHandles_set ht rfl
    have hruns : object.transfer ≠ none := by
      rw [hown]
      exact Option.some_ne_none t
    refine ⟨_, rfl, ?_, haccounts _ nofun, fun o' object' hget => ?_⟩
    · exact h.owners.update ho hown (Or.inl ⟨hown, handle, rfl⟩)
    · have hacts : Acts (s.transfers.set t ⟨handle, some o, .allocated⟩) s.opened quiet
          { object with pending := false, phase := .resumed } := ⟨fun _ => hruns, nofun⟩
      exact h.acts_set hsame hacts o' object' hget

/-- **The result of a transfer is read** while the transfer is there. -/
theorem completed_ok (h : s.Sound quiet) (ho : s.objects[o]? = some object)
    (hresumed : object.phase = .resumed) :
    ∃ s', USBTransfer.completed s o = .ok s' ∧ s'.Sound quiet := by
  obtain ⟨t, ht⟩ := Option.ne_none_iff_exists'.1 ((h.acts o object ho).1 (Or.inr hresumed))
  obtain ⟨handle, htransfer⟩ := h.owners.owned o object t ho ht
  have halive : (if object.pending then TransferStatus.inFlight else .allocated) ≠ .freed := by
    split_ifs <;> nofun
  rw [USBTransfer.completed, object?_eq ho, ok_bind, ht]
  dsimp only
  rw [transfer?_eq htransfer halive, ok_bind]
  exact rest_ok h ho

/-! ### Closing -/

theorem close_eq {handle : ℕ} (hopen : handle ∈ s.opened) (hnone : s.inFlight handle = 0) :
    libusbClose s handle = .ok { s with
      opened := s.opened.filter (· ≠ handle)
      requested := s.requested.filter (· ≠ handle) } := by
  rw [libusbClose, if_neg (not_not.2 hopen), if_neg (not_not.2 hnone)]

/-- No object is about to submit on the handle. -/
def Unarmed (s : UsbState) (handle : ℕ) : Prop :=
  ∀ (o : ℕ) (object : USBTransfer), s.objects[o]? = some object → s.armedOn handle object = false

theorem unarmed_of_quietOn {handle : ℕ} (h : s.quietOn handle = true) : Unarmed s handle :=
  fun o object ho => by
    have hobject := List.all_eq_true.1 h object (List.mem_of_getElem? ho)
    rwa [Bool.not_eq_true'] at hobject

/-- An object that is about to submit does not do that on a handle without such objects. -/
theorem Unarmed.devHandle_ne {handle : ℕ} (h : Unarmed s handle) (ho : s.objects[o]? = some object)
    (hphase : object.phase = .armed) {t : ℕ} {transfer : Transfer} (ht : object.transfer = some t)
    (htransfer : s.transfers[t]? = some transfer) : transfer.devHandle ≠ handle := by
  intro heq
  have hidle := h o object ho
  rw [UsbState.armedOn, hphase, ht, decide_eq_true rfl, Option.any_some, htransfer,
    Option.any_some, decide_eq_true heq] at hidle
  cases hidle

/-- **Handles become quiet** when no object is about to submit on them. -/
theorem UsbState.Sound.hush (h : s.Sound quiet) {quiet' : List ℕ}
    (hquiet : ∀ handle ∈ quiet', handle ∈ quiet ∨ Unarmed s handle) : s.Sound quiet' := by
  refine ⟨h.owners, h.accounts, fun o object ho => ?_⟩
  obtain ⟨hruns, harmed⟩ := h.acts o object ho
  refine ⟨hruns, fun hphase => ⟨(harmed hphase).1, fun t transfer ht htransfer => ?_⟩⟩
  obtain ⟨hin, hnot⟩ := (harmed hphase).2 t transfer ht htransfer
  refine ⟨hin, fun hmem => ?_⟩
  rcases hquiet _ hmem with hbefore | hunarmed
  · exact hnot hbefore
  · exact hunarmed.devHandle_ne ho hphase ht htransfer rfl

theorem UsbState.Sound.mono (h : s.Sound quiet) {quiet' : List ℕ}
    (hquiet : ∀ handle ∈ quiet', handle ∈ quiet) : s.Sound quiet' :=
  h.hush fun handle hmem => Or.inl (hquiet handle hmem)

/-- No object is about to submit on a quiet handle. -/
theorem UsbState.Sound.unarmed (h : s.Sound quiet) {handle : ℕ} (hquiet : handle ∈ quiet) :
    Unarmed s handle := by
  intro o object ho
  by_contra harmed
  rw [Bool.not_eq_false, UsbState.armedOn, Bool.and_eq_true, decide_eq_true_eq] at harmed
  obtain ⟨hphase, hany⟩ := harmed
  cases ht : object.transfer with
  | none =>
      rw [ht] at hany
      cases hany
  | some t =>
      rw [ht, Option.any_some] at hany
      cases htransfer : s.transfers[t]? with
      | none =>
          rw [htransfer] at hany
          cases hany
      | some transfer =>
          rw [htransfer, Option.any_some, decide_eq_true_eq] at hany
          exact ((((h.acts o object ho).2 hphase).2 t transfer ht htransfer).2) (hany ▸ hquiet)

/-- Objects act on other handles, which stay open. -/
theorem acts_without (h : s.Sound quiet) {handle : ℕ} (hunarmed : Unarmed s handle)
    (ho : s.objects[o]? = some object) :
    Acts s.transfers (s.opened.filter (· ≠ handle)) quiet object := by
  obtain ⟨hruns, harmed⟩ := h.acts o object ho
  refine ⟨hruns, fun hphase => ⟨(harmed hphase).1, fun t transfer ht htransfer => ?_⟩⟩
  obtain ⟨hin, hnot⟩ := (harmed hphase).2 t transfer ht htransfer
  have hother := hunarmed.devHandle_ne ho hphase ht htransfer
  exact ⟨List.mem_filter.2 ⟨hin, decide_eq_true hother⟩, hnot⟩

/-- **Asking to close a handle.**  An object may be about to submit on it when it stays open. -/
theorem deferUsbClose_ok (h : s.Sound quiet) {handle : ℕ} (interfaceNumber : ℤ)
    (hguard : handle = 0 ∨ (handle ∈ s.opened ∧ handle ∉ s.requested))
    (hunarmed : s.handles.find? handle = none → Unarmed s handle) :
    ∃ s', deferUsbClose s handle interfaceNumber = .ok s' ∧ s'.Sound quiet := by
  rw [deferUsbClose]
  by_cases hnull : handle = 0
  · rw [if_pos hnull]
    exact ⟨s, rfl, h⟩
  obtain ⟨hopen, hfresh⟩ := hguard.resolve_left hnull
  rw [if_neg hnull]
  dsimp only
  cases hfind : s.handles.find? handle with
  | none =>
      have hnone := (h.accounts.untracked handle hfind).1
      dsimp only
      rw [close_eq (s := { s with requested := handle :: s.requested }) hopen hnone]
      refine ⟨_, rfl, h.owners, ?_, fun o object ho => acts_without h (hunarmed hfind) ho⟩
      refine Accounts.close h.accounts.nonnull (fun other entry hother hget => ?_) hfind hnone
        fun other hother hget => ?_
      · obtain ⟨hcount, hin, hclosing, hpos⟩ := h.accounts.tracked other entry hget
        refine ⟨hcount, hin, ?_, hpos⟩
        rw [hclosing, List.mem_cons, or_iff_right hother]
      · obtain ⟨hzero, hnot⟩ := h.accounts.untracked other hget
        rw [List.mem_cons, or_iff_right hother]
        exact ⟨hzero, hnot⟩
  | some entry =>
      obtain ⟨hcount, -, -, -⟩ := h.accounts.tracked handle entry hfind
      refine ⟨_, rfl, h.owners, ⟨h.accounts.nonnull, fun other found hget => ?_,
        fun other hget => ?_⟩, h.acts⟩
      · rw [SortedMap.find?_insert] at hget
        split_ifs at hget with heq
        · obtain rfl := Option.some.inj hget
          exact ⟨heq ▸ hcount, heq ▸ hopen, iff_of_true rfl (heq ▸ List.mem_cons_self), nofun⟩
        · obtain ⟨hcount, hin, hclosing, hpos⟩ := h.accounts.tracked other found hget
          refine ⟨hcount, hin, ?_, hpos⟩
          rw [hclosing, List.mem_cons, or_iff_right (Ne.symm heq)]
      · rw [SortedMap.find?_insert] at hget
        split_ifs at hget with heq
        obtain ⟨hzero, hnot⟩ := h.accounts.untracked other hget
        refine ⟨hzero, ?_⟩
        rw [List.mem_cons, or_iff_right (Ne.symm heq)]
        exact hnot

/-- Handles have been closed only when that was requested. -/
structure Shrinks (s s' : UsbState) : Prop where
  opened : ∀ handle ∈ s'.opened, handle ∈ s.opened
  requested : ∀ handle ∈ s'.requested, handle ∈ s.requested
  kept : ∀ handle ∈ s.opened, handle ∉ s.requested → handle ∈ s'.opened
  closing : ∀ handle ∈ s'.opened, handle ∈ s.requested → handle ∈ s'.requested

theorem Shrinks.of_eq {s' : UsbState} (hopened : s'.opened = s.opened)
    (hrequested : s'.requested = s.requested) : Shrinks s s' := by
  refine ⟨fun handle h => ?_, fun handle h => ?_, fun handle h _ => ?_, fun handle _ h => ?_⟩
  · rwa [hopened] at h
  · rwa [hrequested] at h
  · rwa [hopened]
  · rwa [hrequested]

theorem Shrinks.trans {s' s'' : UsbState} (h : Shrinks s s') (h' : Shrinks s' s'') :
    Shrinks s s'' where
  opened handle hmem := h.opened handle (h'.opened handle hmem)
  requested handle hmem := h.requested handle (h'.requested handle hmem)
  kept handle hmem hnot :=
    h'.kept handle (h.kept handle hmem hnot) fun hreq => hnot (h.requested handle hreq)
  closing handle hmem hreq :=
    h'.closing handle hmem (h.closing handle (h'.opened handle hmem) hreq)

/-- A handle whose close was requested is closed. -/
theorem shrinks_close {handle : ℕ} (hrequested : handle ∈ s.requested)
    (handles : SortedMap ℕ USBPendingHandle) :
    Shrinks s { s with
      handles := handles
      opened := s.opened.filter (· ≠ handle)
      requested := s.requested.filter (· ≠ handle) } where
  opened _ hmem := List.mem_of_mem_filter hmem
  requested _ hmem := List.mem_of_mem_filter hmem
  kept _ hmem hnot :=
    List.mem_filter.2 ⟨hmem, decide_eq_true fun heq => hnot (heq ▸ hrequested)⟩
  closing _ hmem hreq :=
    List.mem_filter.2 ⟨hreq, (List.mem_filter.1 hmem).2⟩

/-- Closing the handle of one entry leaves the other entries as they are. -/
theorem drainEntry_ok (h : s.Sound quiet) (hquiet : ∀ handle ∈ s.requested, handle ∈ quiet)
    {entry : ℕ × USBPendingHandle} (hentry : s.handles.find? entry.1 = some entry.2) :
    ∃ s', drainEntry s entry = .ok s' ∧ s'.Sound quiet ∧ Shrinks s s' ∧
      ∀ other, other ≠ entry.1 → s'.handles.find? other = s.handles.find? other := by
  rw [drainEntry]
  by_cases hskip : entry.2.closing = false ∨ entry.2.transfers ≠ 0
  · rw [if_pos hskip]
    exact ⟨s, rfl, h, .of_eq rfl rfl, fun _ _ => rfl⟩
  rw [if_neg hskip]
  obtain ⟨hclosing, hzero⟩ := not_or.1 hskip
  rw [Bool.not_eq_false] at hclosing
  rw [not_not] at hzero
  obtain ⟨hcount, hopen, hiff, -⟩ := h.accounts.tracked _ _ hentry
  have hnone : s.inFlight entry.1 = 0 := hcount.symm.trans hzero
  have hclose : libusbClose { s with handles := s.handles.erase entry.1 } entry.1 = .ok _ :=
    close_eq hopen hnone
  refine ⟨_, hclose, ⟨h.owners, ?_, fun o object ho => ?_⟩, shrinks_close (hiff.1 hclosing) _,
    fun other hother => ?_⟩
  · refine Accounts.close h.accounts.nonnull (fun other found hother hget => ?_) ?_ hnone
      fun other hother hget => ?_
    · rw [SortedMap.find?_erase_of_ne _ hother] at hget
      exact h.accounts.tracked other found hget
    · rw [SortedMap.find?_erase, if_pos rfl]
    · rw [SortedMap.find?_erase_of_ne _ hother] at hget
      exact h.accounts.untracked other hget
  · exact acts_without h (h.unarmed (hquiet _ (hiff.1 hclosing))) ho
  · exact SortedMap.find?_erase_of_ne _ hother

/-- **Draining** closes handles without a transfer in flight only. -/
theorem drain_ok (h : s.Sound quiet) (hquiet : ∀ handle ∈ s.requested, handle ∈ quiet) :
    ∃ s', drainUsbCloses s = .ok s' ∧ s'.Sound quiet ∧ Shrinks s s' := by
  -- closing one handle leaves the entries that come later as they were
  have hloop : ∀ (entries : List (ℕ × USBPendingHandle)) (r : UsbState), r.Sound quiet →
      (∀ handle ∈ r.requested, handle ∈ quiet) → entries.Pairwise (fun a b => a.1 < b.1) →
      (∀ entry ∈ entries, r.handles.find? entry.1 = some entry.2) →
      ∃ s', entries.foldlM drainEntry r = .ok s' ∧ s'.Sound quiet ∧ Shrinks r s' := by
    intro entries
    induction entries with
    | nil => exact fun r hr _ _ _ => ⟨r, rfl, hr, .of_eq rfl rfl⟩
    | cons entry entries ih =>
        intro r hr hquiet hsorted hfind
        obtain ⟨r', hr', hsound, hshrinks, hothers⟩ :=
          drainEntry_ok hr hquiet (hfind entry List.mem_cons_self)
        rw [List.foldlM_cons, hr', ok_bind]
        rw [List.pairwise_cons] at hsorted
        have hrest : ∀ other ∈ entries, r'.handles.find? other.1 = some other.2 := by
          intro other hother
          rw [hothers other.1 (hsorted.1 other hother).ne']
          exact hfind other (List.mem_cons_of_mem _ hother)
        obtain ⟨s', hs', hsound', hshrinks'⟩ := ih r' hsound
          (fun handle hmem => hquiet handle (hshrinks.requested handle hmem)) hsorted.2 hrest
        exact ⟨s', hs', hsound', hshrinks.trans hshrinks'⟩
  exact hloop _ s h hquiet s.handles.sorted fun entry hentry => SortedMap.mem_entries.1 hentry

/-! ### Runs -/

/-- **Every action that can happen succeeds and keeps the invariant.** -/
theorem UsbState.Sound.perform (h : s.Sound quiet)
    (hquiet : ∀ handle ∈ quiet, handle ∈ s.requested) {action : UsbAction}
    (henabled : action.enabled s = true) : ∃ s', action.perform s = .ok s' ∧ s'.Sound quiet := by
  cases action with
  | opens handle =>
      obtain ⟨hnull, hclosed⟩ := of_decide_eq_true henabled
      refine ⟨_, rfl, h.owners, ⟨?_, fun other entry hfind => ?_, h.accounts.untracked⟩,
        fun o object ho => ?_⟩
      · intro hmem
        exact (List.mem_cons.1 hmem).elim (fun heq => hnull heq.symm) h.accounts.nonnull
      · obtain ⟨hcount, hin, hclosing, hpos⟩ := h.accounts.tracked other entry hfind
        exact ⟨hcount, List.mem_cons_of_mem _ hin, hclosing, hpos⟩
      · obtain ⟨hruns, harmed⟩ := h.acts o object ho
        refine ⟨hruns, fun hphase => ⟨(harmed hphase).1, fun t transfer ht htransfer => ?_⟩⟩
        obtain ⟨hin, hnot⟩ := (harmed hphase).2 t transfer ht htransfer
        exact ⟨List.mem_cons_of_mem _ hin, hnot⟩
  | construct =>
      refine ⟨_, rfl, h.owners.push_object, h.accounts, fun o object ho => ?_⟩
      rcases Nat.lt_or_ge o s.objects.length with hlt | hge
      · exact h.acts o object ((List.getElem?_append_left hlt).symm.trans ho)
      · have hnew := (List.getElem?_append_right hge).symm.trans ho
        rw [List.getElem?_singleton] at hnew
        split_ifs at hnew
        exact Option.some.inj hnew ▸ .of_idle (Or.inl rfl)
  | start o handle allocated buffered =>
      obtain ⟨hin, hopen, hrequested⟩ := of_decide_eq_true henabled
      exact start_ok h (List.getElem?_eq_getElem hin) hopen
        (fun hmem => hrequested (hquiet handle hmem)) allocated buffered
  | submit o accepted =>
      obtain ⟨object, ho, hphase⟩ := (Option.any_eq_true _ _).1 henabled
      exact submit_ok h ho (of_decide_eq_true hphase) accepted
  | callback t =>
      obtain ⟨transfer, ht, hflies⟩ := (Option.any_eq_true _ _).1 henabled
      exact resume_ok h ht (of_decide_eq_true hflies)
  | completed o =>
      obtain ⟨object, ho, hphase⟩ := (Option.any_eq_true _ _).1 henabled
      exact completed_ok h ho (of_decide_eq_true hphase)
  | release o =>
      obtain ⟨s', hrelease, hrested⟩ :=
        finalize_ok h (List.getElem?_eq_getElem (of_decide_eq_true henabled))
      exact ⟨s', hrelease, hrested.sound⟩
  | deferClose handle interfaceNumber =>
      obtain ⟨hguard, hidle⟩ := Bool.and_eq_true_iff.1 henabled
      refine deferUsbClose_ok h interfaceNumber (of_decide_eq_true hguard) fun hfind => ?_
      rw [hfind, Option.isSome_none, Bool.false_or] at hidle
      exact unarmed_of_quietOn hidle
  | drain =>
      have hidle : ∀ handle ∈ s.requested, Unarmed s handle := fun handle hmem =>
        unarmed_of_quietOn (List.all_eq_true.1 henabled handle hmem)
      obtain ⟨s', hdrain, hsound, -⟩ :=
        drain_ok (h.hush fun handle hmem => Or.inr (hidle handle hmem)) fun _ hmem => hmem
      exact ⟨s', hdrain, hsound.mono hquiet⟩

theorem sound_of_reachable (h : Transition.Reachable usbStep (· = UsbState.initial) s) :
    s.Sound [] := by
  have hstart : ∀ r, r = UsbState.initial → r.Sound [] := fun r hr => hr ▸ UsbState.initial_sound
  refine Transition.Reaches.invariant hstart (fun {r action r'} _ hr _ hstep => ?_) h
  rw [usbStep] at hstep
  split_ifs at hstep with henabled
  obtain ⟨r₂, hperform, hsound⟩ := hr.perform nofun henabled
  rw [hperform] at hstep
  exact Option.some.inj hstep ▸ hsound

end Methods

/-- **The lifetime of transfers and handles.**  In every run no call of the library is a misuse; a
transfer is freed, in flight, or the transfer of an object; the counter of a handle is the number of
transfers in flight on it, and there is one unless the handle is closing. -/
theorem usb_lifetime {s : UsbState}
    (h : Transition.Reachable usbStep (· = UsbState.initial) s) :
    (∀ action : UsbAction, action.enabled s = true →
      ∃ s', action.perform s = .ok s' ∧ usbStep s action = some s') ∧
    (∀ (t : ℕ) (transfer : Transfer), s.transfers[t]? = some transfer →
      transfer.status = .freed ∨ transfer.status = .inFlight ∨
        ∃ object ∈ s.objects, object.transfer = some t) ∧
    ∀ handle entry, s.handles.find? handle = some entry →
      entry.transfers = s.inFlight handle ∧ (entry.closing = false → 0 < s.inFlight handle) := by
  have hsound := sound_of_reachable h
  refine ⟨fun action henabled => ?_, fun t transfer ht => ?_, fun handle entry hfind => ?_⟩
  · obtain ⟨s', hperform, -⟩ := hsound.perform nofun henabled
    refine ⟨s', hperform, ?_⟩
    rw [usbStep, if_pos henabled, hperform]
    rfl
  · by_cases hfreed : transfer.status = .freed
    · exact Or.inl hfreed
    · refine Or.inr ?_
      rcases hsound.owners.owner t transfer ht hfreed with ⟨-, hflies⟩ | ⟨o, object, -, ho, hown⟩
      · exact Or.inl hflies
      · exact Or.inr ⟨object, List.mem_of_getElem? ho, hown⟩
  · obtain ⟨hcount, -, -, hpos⟩ := hsound.accounts.tracked handle entry hfind
    exact ⟨hcount, fun hclosing => hcount ▸ hpos hclosing⟩

/-- A handle is closed while the transfer of an object that is released is in flight on it, and
while another object is about to submit on it. -/
def releasedInFlight : List UsbAction :=
  [.opens 7, .construct, .construct, .start 0 7 true true, .submit 0 true, .start 1 7 true true,
    .release 0, .deferClose 7 0, .submit 1 true]

/-- The second object does not submit; the handle is closed after the callback only, which has freed
the first transfer. -/
theorem usb_lifetime_released :
    ∃ s, Transition.run usbStep .initial releasedInFlight = some s ∧ s.inFlight 7 = 1 ∧
      s.objects[1]? = some ⟨some 1, false, .idle⟩ ∧
      (∃ s', UsbAction.perform s .drain = .ok s' ∧ usbStep s .drain = some s') ∧
        ∃ s', UsbAction.perform s (.callback 0) = .ok s' ∧ usbStep s (.callback 0) = some s' := by
  obtain ⟨s, hrun, hflies, hidle, hdrain, hcallback⟩ : ∃ s,
      Transition.run usbStep .initial releasedInFlight = some s ∧ s.inFlight 7 = 1 ∧
        s.objects[1]? = some ⟨some 1, false, .idle⟩ ∧
        UsbAction.enabled s .drain = true ∧ UsbAction.enabled s (.callback 0) = true :=
    ⟨_, rfl, rfl, rfl, rfl, rfl⟩
  have hlife := (usb_lifetime (Transition.reaches_of_run rfl hrun)).1
  exact ⟨s, hrun, hflies, hidle, hlife .drain hdrain, hlife (.callback 0) hcallback⟩

end Fpc
