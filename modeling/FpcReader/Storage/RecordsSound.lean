/-
**What the records satisfy.**

Every stored record is kept under its own names, carries a finger name, a template that validates
and a registration that is not zero and that no other record has.  The loader demands all of this of
a database, and the operations keep it.

Main definitions:

* `Fpc.Fingerprint.Stored`, `Fpc.Records.Sound` — a record in its place, and the invariant.

Main results:

* `Fpc.Records.get?_put`, `Fpc.Records.get?_erase`, `Fpc.Records.get?_nonempty` — lookups;
* `Fpc.Records.ext_of_nonempty` — **records without empty users are determined by their lookups**;
* `Fpc.Records.Sound.put`, `Fpc.Records.Sound.mono` — adding and leaving out records;
* `Fpc.Records.registrationFor_sound` — the registration chosen for a record is its own.
-/

import FpcReader.Storage.Operations

set_option relaxedAutoImplicit false
set_option autoImplicit false

namespace Fpc

namespace Records

variable {records other : Records} {user name : Name}

/-! ### Lookups -/

theorem get?_eq_some {print : Fingerprint} :
    records.get? user name = some print ↔
      ∃ prints, records.find? user = some prints ∧ prints.find? name = some print := by
  unfold get? prints
  cases records.find? user with
  | none => simp
  | some prints => simp

theorem prints_insert (records : Records) (user other : Name)
    (prints : SortedMap Name Fingerprint) :
    Records.prints (records.insert user prints) other =
      if user = other then prints else records.prints other := by
  unfold Records.prints
  rw [SortedMap.find?_insert]
  split_ifs <;> rfl

/-- Lookup after a record has been put under its names. -/
theorem get?_put (records : Records) (user name user' name' : Name) (print : Fingerprint) :
    (records.put user name print).get? user' name' =
      if user = user' ∧ name = name' then some print else records.get? user' name' := by
  unfold put get?
  rw [prints_insert]
  by_cases huser : user = user'
  · subst huser
    rw [if_pos rfl, SortedMap.find?_insert]
    by_cases hname : name = name'
    · rw [if_pos hname, if_pos ⟨rfl, hname⟩]
    · rw [if_neg hname, if_neg fun h => hname h.2]
  · rw [if_neg huser, if_neg fun h => huser h.1]

/-- Lookup after all fingers of a user have been removed. -/
theorem get?_erase (records : Records) (user user' name' : Name) :
    Records.get? (records.erase user) user' name' =
      if user = user' then none else records.get? user' name' := by
  unfold get? Records.prints
  rw [SortedMap.find?_erase]
  split_ifs <;> rfl

/-- Lookup after one finger has been removed. -/
theorem get?_eraseFinger (records : Records) (user name user' name' : Name) :
    Records.get? (records.insert user ((records.prints user).erase name)) user' name' =
      if user = user' ∧ name = name' then none else records.get? user' name' := by
  unfold get?
  rw [prints_insert]
  by_cases huser : user = user'
  · subst huser
    rw [if_pos rfl, SortedMap.find?_erase]
    by_cases hname : name = name'
    · rw [if_pos hname, if_pos ⟨rfl, hname⟩]
    · rw [if_neg hname, if_neg fun h => hname h.2]
  · rw [if_neg huser, if_neg fun h => huser h.1]

theorem find?_nonempty (records : Records) (user : Name) :
    records.nonempty.find? user =
      (records.find? user).bind fun prints => if prints.entries = [] then none else some prints :=
  SortedMap.find?_filterMap _ _ _

/-- Leaving out the users without records changes no lookup. -/
@[simp]
theorem get?_nonempty (records : Records) (user name : Name) :
    records.nonempty.get? user name = records.get? user name := by
  unfold get? Records.prints
  rw [find?_nonempty]
  cases records.find? user with
  | none => rfl
  | some prints =>
      by_cases hempty : prints.entries = []
      · have : prints = SortedMap.empty := SortedMap.ext hempty
        rw [this]
        rfl
      · rw [Option.bind_some, if_neg hempty]

/-- No user is listed without records. -/
def NoEmptyUser (records : Records) : Prop :=
  ∀ user prints, records.find? user = some prints → prints.entries ≠ []

theorem nonempty_noEmptyUser (records : Records) : records.nonempty.NoEmptyUser := by
  intro user prints h
  rw [find?_nonempty, Option.bind_eq_some_iff] at h
  obtain ⟨prints', -, h⟩ := h
  split_ifs at h with hempty
  rw [← Option.some.inj h]
  exact hempty

theorem empty_noEmptyUser : NoEmptyUser (.empty : Records) := by
  intro user prints h
  cases h

theorem put_noEmptyUser (h : records.NoEmptyUser) (print : Fingerprint) :
    (records.put user name print).NoEmptyUser := by
  intro user' prints hfind
  rw [put, SortedMap.find?_insert] at hfind
  split_ifs at hfind
  · rw [← Option.some.inj hfind]
    intro hempty
    have hself := SortedMap.find?_insert_self (records.prints user) name print
    rw [SortedMap.find?, hempty] at hself
    cases hself
  · exact h user' prints hfind

/-- **Records without empty users are determined by their lookups.** -/
theorem ext_of_nonempty (h : records.NoEmptyUser) (h' : other.NoEmptyUser)
    (hget : ∀ user name, records.get? user name = other.get? user name) : records = other := by
  have hprints : ∀ user, records.prints user = other.prints user := fun user =>
    SortedMap.ext_find? (hget user)
  refine SortedMap.ext_find? fun user => ?_
  have huser := hprints user
  unfold Records.prints at huser
  cases hfind : records.find? user with
  | none =>
      cases hfind' : other.find? user with
      | none => rfl
      | some prints =>
          rw [hfind, hfind'] at huser
          exact absurd (congrArg SortedMap.entries huser.symm) (h' user prints hfind')
  | some prints =>
      cases hfind' : other.find? user with
      | none =>
          rw [hfind, hfind'] at huser
          exact absurd (congrArg SortedMap.entries huser) (h user prints hfind)
      | some prints' =>
          rw [hfind, hfind'] at huser
          exact congrArg some huser

theorem nonempty_eq_self (h : records.NoEmptyUser) : records.nonempty = records :=
  ext_of_nonempty records.nonempty_noEmptyUser h records.get?_nonempty

/-- The records there are. -/
theorem mem_all {print : Fingerprint} :
    print ∈ records.all ↔ ∃ user name, records.get? user name = some print := by
  rw [all, List.mem_flatMap]
  constructor
  · rintro ⟨⟨user, prints⟩, huser, hprint⟩
    obtain ⟨⟨name, _⟩, hname, rfl⟩ := List.mem_map.1 hprint
    exact ⟨user, name,
      get?_eq_some.2 ⟨prints, SortedMap.mem_entries.1 huser, SortedMap.mem_entries.1 hname⟩⟩
  · rintro ⟨user, name, h⟩
    obtain ⟨prints, huser, hname⟩ := get?_eq_some.1 h
    exact ⟨(user, prints), SortedMap.mem_entries.2 huser,
      List.mem_map.2 ⟨(name, print), SortedMap.mem_entries.2 hname, rfl⟩⟩

end Records

/-! ### The invariant -/

/-- A record that the loader accepts, kept under its own names. -/
structure Fingerprint.Stored (print : Fingerprint) (owner finger : Name) : Prop where
  user : print.user = owner
  name : print.name = finger
  validName : Fingerprint.validName finger = true
  native : validateNative print.native = .ok ()
  registration : print.registration ≠ 0

/-- All records are in their place, and no two share a registration. -/
structure Records.Sound (records : Records) : Prop where
  stored : ∀ {user name print}, records.get? user name = some print → print.Stored user name
  unique : ∀ {user name print user' name' print'}, records.get? user name = some print →
    records.get? user' name' = some print' → print.registration = print'.registration →
      user = user' ∧ name = name'

namespace Records

variable {records : Records} {user name : Name}

theorem empty_sound : Sound (.empty : Records) := by
  constructor
  · intro user name print h
    cases h
  · intro user name print user' name' print' h
    cases h

/-- Leaving out records keeps the invariant. -/
theorem Sound.mono (h : records.Sound) {fewer : Records}
    (hget : ∀ {user name print}, fewer.get? user name = some print →
      records.get? user name = some print) : fewer.Sound :=
  ⟨fun hprint => h.stored (hget hprint),
    fun hprint hprint' => h.unique (hget hprint) (hget hprint')⟩

/-- Putting a record with a registration of its own keeps the invariant. -/
theorem Sound.put (h : records.Sound) {print : Fingerprint} (hstored : print.Stored user name)
    (hown : ∀ {user' name' print'}, records.get? user' name' = some print' →
      print'.registration = print.registration → user' = user ∧ name' = name) :
    (records.put user name print).Sound := by
  constructor
  · intro user' name' print' hprint
    rw [get?_put] at hprint
    split_ifs at hprint with hkey
    · rw [← hkey.1, ← hkey.2, ← Option.some.inj hprint]
      exact hstored
    · exact h.stored hprint
  · intro user₁ name₁ print₁ user₂ name₂ print₂ h₁ h₂ hreg
    rw [get?_put] at h₁ h₂
    split_ifs at h₁ with hkey₁ <;> split_ifs at h₂ with hkey₂
    · exact ⟨hkey₁.1.symm.trans hkey₂.1, hkey₁.2.symm.trans hkey₂.2⟩
    · obtain rfl := Option.some.inj h₁
      obtain ⟨hu, hn⟩ := hown h₂ hreg.symm
      exact ⟨hkey₁.1.symm.trans hu.symm, hkey₁.2.symm.trans hn.symm⟩
    · obtain rfl := Option.some.inj h₂
      obtain ⟨hu, hn⟩ := hown h₁ hreg
      exact ⟨hu.trans hkey₂.1, hn.trans hkey₂.2⟩
    · exact h.unique h₁ h₂ hreg

/-- Replacing the template of a record keeps the invariant. -/
theorem Sound.replaceNative (h : records.Sound) {print : Fingerprint} {native : List UInt8}
    (hget : records.get? user name = some print) (hnative : validateNative native = .ok ()) :
    (records.put user name { print with native := native }).Sound := by
  have hstored := h.stored hget
  refine h.put { hstored with native := hnative } fun hget' hreg => ?_
  exact h.unique hget' hget hreg

/-- A record is listed under its own names. -/
theorem Sound.mem_all (h : records.Sound) {print : Fingerprint} :
    print ∈ records.all ↔ records.get? print.user print.name = some print := by
  rw [Records.mem_all]
  constructor
  · rintro ⟨user, name, hget⟩
    have hstored := h.stored hget
    rw [hstored.user, hstored.name]
    exact hget
  · exact fun hget => ⟨_, _, hget⟩

/-- No two listed records have the same names. -/
theorem Sound.pairwise_names (h : records.Sound) :
    records.all.Pairwise fun a b => ¬(a.user = b.user ∧ a.name = b.name) := by
  have hentry : ∀ entry ∈ records.entries, ∀ e ∈ entry.2.entries,
      e.2.user = entry.1 ∧ e.2.name = e.1 := by
    rintro ⟨user, prints⟩ huser ⟨name, print⟩ hname
    have hstored := h.stored (get?_eq_some.2
      ⟨prints, SortedMap.mem_entries.1 huser, SortedMap.mem_entries.1 hname⟩)
    exact ⟨hstored.user, hstored.name⟩
  refine List.pairwise_flatMap.2 ⟨fun entry hmem => ?_, ?_⟩
  · refine List.pairwise_map.2 (entry.2.sorted.imp_of_mem fun ha hb hlt hsame => ?_)
    rw [(hentry entry hmem _ ha).2, (hentry entry hmem _ hb).2] at hsame
    exact hlt.ne hsame.2
  · refine records.sorted.imp_of_mem fun ha hb hlt a hmemA b hmemB hsame => ?_
    obtain ⟨ea, hea, rfl⟩ := List.mem_map.1 hmemA
    obtain ⟨eb, heb, rfl⟩ := List.mem_map.1 hmemB
    rw [(hentry _ ha _ hea).1, (hentry _ hb _ heb).1] at hsame
    exact hlt.ne hsame.1

/-- No two listed records have the same registration. -/
theorem Sound.pairwise_registration (h : records.Sound) :
    records.all.Pairwise fun a b => a.registration ≠ b.registration :=
  h.pairwise_names.imp_of_mem fun ha hb hne hreg =>
    hne (h.unique (h.mem_all.1 ha) (h.mem_all.1 hb) hreg)

/-! ### Registrations -/

theorem registration_le_last {print : Fingerprint} (h : records.get? user name = some print) :
    print.registration.toNat ≤ records.last :=
  Scans.le_foldl_max 0 (Or.inr (List.mem_map_of_mem (mem_all.2 ⟨user, name, h⟩)))

theorem last_lt (records : Records) : records.last < 2 ^ 32 := by
  refine Scans.foldl_max_lt (by norm_num) fun n hn => ?_
  obtain ⟨print, -, rfl⟩ := List.mem_map.1 hn
  exact print.registration.toNat_lt

/-- **The registration chosen for a record** is not zero and belongs to no other record. -/
theorem registrationFor_sound (h : records.Sound) {registration : UInt32}
    (hreg : records.registrationFor user name = some registration) :
    registration ≠ 0 ∧
      ∀ {user' name' print'}, records.get? user' name' = some print' →
        print'.registration = registration → user' = user ∧ name' = name := by
  unfold registrationFor at hreg
  cases hold : records.get? user name with
  | some old =>
      rw [hold] at hreg
      obtain rfl := Option.some.inj hreg
      exact ⟨(h.stored hold).registration, fun hget heq => h.unique hget hold heq⟩
  | none =>
      rw [hold] at hreg
      simp only at hreg
      split_ifs at hreg with hfull
      obtain rfl := Option.some.inj hreg
      have hlt := records.last_lt
      have hnat : (UInt32.ofNat (records.last + 1)).toNat = records.last + 1 := by
        rw [UInt32.toNat_ofNat', Nat.mod_eq_of_lt (by omega)]
      refine ⟨fun h0 => ?_, fun hget heq => ?_⟩
      · rw [h0] at hnat
        exact absurd hnat (by simp)
      · have hle := registration_le_last hget
        rw [heq, hnat] at hle
        omega

end Records

end Fpc
