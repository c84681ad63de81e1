/-
**A saved database loads.**

The loader reads back exactly the records that were written, when every record is sound: it checks
nothing that the invariant of the records or the writer itself does not establish.  Users without a
record are not written.

Main results:

* `Fpc.parseDatabase_sound` — what the loader accepts is sound;
* `Fpc.readRecords_appendRecords` — the loop over the records reads what was written;
* `Fpc.loadDatabase_saveDatabase` — **a saved database loads, with the same records**.
-/

import FpcReader.Storage.RecordsSound

set_option relaxedAutoImplicit false
set_option autoImplicit false

namespace Fpc

open Bytes

/-! ### What the loader accepts -/

theorem readWord_lt {bytes rest : List UInt8} {n : ℕ} (h : readWord bytes = .ok (n, rest)) :
    n < 2 ^ 32 := by
  unfold readWord at h
  split at h
  · cases h
  · rename_i word _ hcut
    obtain ⟨rfl, -⟩ := Prod.mk.inj (Except.ok.inj h)
    have := leValue_lt word
    rw [(cut_eq_some.1 hcut).2] at this
    simpa using this

theorem readPrint_sound {registration : ℕ} {bytes rest : List UInt8} {print : Fingerprint}
    (h : readPrint registration bytes = .ok (print, rest)) :
    print.registration = UInt32.ofNat registration ∧ Fingerprint.validName print.name = true ∧
      validateNative print.native = .ok () := by
  unfold readPrint at h
  split at h
  · cases h
  split at h
  · cases h
  split_ifs at h with hname
  split at h
  · cases h
  rename_i native _ hnative
  obtain ⟨rfl, -⟩ := Prod.mk.inj (Except.ok.inj h)
  refine ⟨rfl, by simpa using hname, ?_⟩
  unfold readNative at hnative
  split at hnative
  · cases hnative
  split_ifs at hnative
  split at hnative
  · cases hnative
  split at hnative
  · cases hnative
  · rename_i hvalid
    obtain ⟨rfl, -⟩ := Prod.mk.inj (Except.ok.inj hnative)
    exact hvalid

/-- A record that is read is sound in its place and has a new registration. -/
theorem readRecord_sound {registrations : List ℕ} {bytes rest : List UInt8} {print : Fingerprint}
    (h : readRecord registrations bytes = .ok (print, rest)) :
    print.Stored print.user print.name ∧ print.registration.toNat ∉ registrations := by
  unfold readRecord at h
  split at h
  · cases h
  rename_i registration _ hword
  split_ifs at h with hbad
  push Not at hbad
  obtain ⟨hreg, hname, hnative⟩ := readPrint_sound h
  have hnat : print.registration.toNat = registration := by
    rw [hreg, UInt32.toNat_ofNat', Nat.mod_eq_of_lt (readWord_lt hword)]
  refine ⟨⟨rfl, rfl, hname, hnative, fun h0 => hbad.1 ?_⟩, by rw [hnat]; exact hbad.2⟩
  rw [← hnat, h0]
  rfl

/-- The loop over the records keeps the records sound. -/
theorem readRecords_sound {count : ℕ} {parsed records : Records} {registrations : List ℕ}
    {bytes rest : List UInt8} (hsound : parsed.Sound) (hfull : parsed.NoEmptyUser)
    (hregs : ∀ {user name print}, parsed.get? user name = some print →
      print.registration.toNat ∈ registrations)
    (h : readRecords count parsed registrations bytes = .ok (records, rest)) :
    records.Sound ∧ records.NoEmptyUser := by
  induction count generalizing parsed registrations bytes with
  | zero =>
      obtain ⟨rfl, -⟩ := Prod.mk.inj (Except.ok.inj h)
      exact ⟨hsound, hfull⟩
  | succ count ih =>
      rw [readRecords] at h
      split at h
      · cases h
      rename_i print _ hrecord
      split_ifs at h
      obtain ⟨hstored, hnew⟩ := readRecord_sound hrecord
      refine ih (hsound.put hstored fun hget hreg => ?_) (Records.put_noEmptyUser hfull print)
        (fun hget => ?_) h
      · exact absurd (hreg ▸ hregs hget) hnew
      · rw [Records.get?_put] at hget
        split_ifs at hget
        · rw [← Option.some.inj hget]
          exact List.mem_cons_self
        · exact List.mem_cons_of_mem _ (hregs hget)

/-- **What the loader accepts is sound**, and every user in it has a record. -/
theorem parseDatabase_sound {hardwareId : UInt16} {plain : List UInt8} {records : Records}
    (h : parseDatabase hardwareId plain = .ok records) : records.Sound ∧ records.NoEmptyUser := by
  unfold parseDatabase at h
  split at h
  · cases h
  split at h
  · cases h
  split_ifs at h
  split at h
  · cases h
  rename_i hrecords
  split_ifs at h
  obtain rfl := Except.ok.inj h
  exact readRecords_sound Records.empty_sound Records.empty_noEmptyUser (fun hget => by cases hget)
    hrecords

theorem loadDatabase_sound {cipher : Cipher} {key : List UInt8} {hardwareId : UInt16}
    {file : Option (List UInt8)} {records : Records}
    (h : loadDatabase cipher key hardwareId file = .ok records) :
    records.Sound ∧ records.NoEmptyUser := by
  unfold loadDatabase at h
  split at h
  · obtain rfl := Except.ok.inj h
    exact ⟨Records.empty_sound, Records.empty_noEmptyUser⟩
  · dsimp only at h
    split_ifs at h
    split at h
    · cases h
    · exact parseDatabase_sound h

/-! ### Reading what was written -/

@[simp]
theorem readWord_storeLe32 {n : ℕ} (h : n < 2 ^ 32) (rest : List UInt8) :
    readWord (storeLe32 n ++ rest) = .ok (n, rest) := by
  rw [readWord, cut_append_of_length (storeLe32_length n)]
  show Except.ok (leValue (leBytes 4 n), rest) = _
  rw [leValue_leBytes_of_lt (by norm_num; exact h)]

theorem readTake_append (value rest : List UInt8) :
    readTake value.length (value ++ rest) = .ok (value, rest) := by
  rw [readTake, cut_append]

theorem readString_appendString {value : Name} {bytes : List UInt8}
    (h : appendString value = .ok bytes) (rest : List UInt8) :
    readString (bytes ++ rest) = .ok (value, rest) := by
  unfold appendString at h
  split_ifs at h with hbad
  obtain rfl := Except.ok.inj h
  push Not at hbad
  obtain ⟨hempty, hlong, hzero⟩ := hbad
  have hpos : value.length ≠ 0 := fun h0 => hempty (List.length_eq_zero_iff.1 h0)
  rw [readString, List.append_assoc, readWord_storeLe32 (by omega)]
  dsimp only
  rw [if_neg (by omega), readTake_append]
  dsimp only
  rw [if_neg hzero]

theorem readProfile_words {words : List ℕ} (h : ∀ word ∈ words, word < 2 ^ 32)
    (rest : List UInt8) : readProfile words (words.flatMap storeLe32 ++ rest) = .ok rest := by
  induction words with
  | nil => rfl
  | cons word words ih =>
      rw [readProfile, List.flatMap_cons, List.append_assoc,
        readWord_storeLe32 (h word (by simp))]
      dsimp only
      rw [if_neg (by simp), ih fun w hw => h w (by simp [hw])]

theorem validateNative_length {native : List UInt8} (h : validateNative native = .ok ()) :
    native.length ≤ 200000 := by
  unfold validateNative at h
  split_ifs at h with hlong
  exact not_lt.1 hlong

theorem readNative_append {native : List UInt8} (h : validateNative native = .ok ())
    (rest : List UInt8) :
    readNative (storeLe32 native.length ++ (native ++ rest)) = .ok (native, rest) := by
  have hlength := validateNative_length h
  rw [readNative, readWord_storeLe32 (by omega)]
  dsimp only
  rw [if_neg (not_lt.2 hlength), readTake_append]
  dsimp only
  rw [h]

/-- A written record is read back when its registration is new. -/
theorem readRecord_appendRecord {print : Fingerprint} {bytes : List UInt8}
    (hstored : print.Stored print.user print.name) (h : appendRecord print = .ok bytes)
    {registrations : List ℕ} (hnew : print.registration.toNat ∉ registrations)
    (rest : List UInt8) : readRecord registrations (bytes ++ rest) = .ok (print, rest) := by
  unfold appendRecord at h
  split at h
  · cases h
  rename_i user huser
  split at h
  · cases h
  rename_i name hname
  obtain rfl := Except.ok.inj h
  have hzero : print.registration.toNat ≠ 0 := fun h0 =>
    hstored.registration (UInt32.toNat_inj.1 h0)
  simp only [List.append_assoc]
  rw [readRecord, readWord_storeLe32 print.registration.toNat_lt]
  dsimp only
  rw [if_neg (not_or.2 ⟨hzero, hnew⟩), readPrint, readString_appendString huser]
  dsimp only
  rw [readString_appendString hname]
  dsimp only
  rw [hstored.validName, if_neg (by simp), readNative_append hstored.native]
  dsimp only
  rw [UInt32.ofNat_toNat]

/-- Put every record under its names. -/
def Records.putAll (records : Records) (prints : List Fingerprint) : Records :=
  prints.foldl (fun records print => records.put print.user print.name print) records

/-- **The loop over the records reads what was written.** -/
theorem readRecords_appendRecords {prints : List Fingerprint} {bytes : List UInt8}
    (h : appendRecords prints = .ok bytes)
    (hstored : ∀ print ∈ prints, print.Stored print.user print.name)
    (hnames : prints.Pairwise fun a b => ¬(a.user = b.user ∧ a.name = b.name))
    (hregs : prints.Pairwise fun a b => a.registration ≠ b.registration)
    {parsed : Records} {registrations : List ℕ}
    (hfree : ∀ print ∈ prints, parsed.get? print.user print.name = none)
    (hnew : ∀ print ∈ prints, print.registration.toNat ∉ registrations) (rest : List UInt8) :
    readRecords prints.length parsed registrations (bytes ++ rest) =
      .ok (parsed.putAll prints, rest) := by
  induction prints generalizing bytes parsed registrations with
  | nil =>
      obtain rfl := Except.ok.inj h
      rfl
  | cons print prints ih =>
      rw [appendRecords] at h
      split at h
      · cases h
      rename_i first hfirst
      split at h
      · cases h
      rename_i others hothers
      obtain rfl := Except.ok.inj h
      obtain ⟨hname, hnames⟩ := List.pairwise_cons.1 hnames
      obtain ⟨hreg, hregs⟩ := List.pairwise_cons.1 hregs
      rw [List.length_cons, readRecords, List.append_assoc, readRecord_appendRecord
        (hstored print (by simp)) hfirst (hnew print (by simp))]
      dsimp only
      rw [hfree print (by simp), if_neg (by simp)]
      refine ih hothers (fun p hp => hstored p (by simp [hp])) hnames hregs (fun p hp => ?_)
        fun p hp hmem => ?_
      · rw [Records.get?_put, if_neg (hname p hp)]
        exact hfree p (by simp [hp])
      · rcases List.mem_cons.1 hmem with heq | hmem
        · exact hreg p hp (UInt32.toNat_inj.1 heq.symm)
        · exact hnew p (by simp [hp]) hmem

/-! ### The records come back -/

theorem Records.putAll_noEmptyUser {records : Records} (h : records.NoEmptyUser)
    (prints : List Fingerprint) : (records.putAll prints).NoEmptyUser := by
  induction prints generalizing records with
  | nil => exact h
  | cons print prints ih => exact ih (put_noEmptyUser h print)

/-- Lookup after records with different names have been put. -/
theorem Records.get?_putAll {prints : List Fingerprint}
    (hnames : prints.Pairwise fun a b => ¬(a.user = b.user ∧ a.name = b.name)) (records : Records)
    (user name : Name) (print : Fingerprint) :
    (records.putAll prints).get? user name = some print ↔
      (print ∈ prints ∧ print.user = user ∧ print.name = name) ∨
        (records.get? user name = some print ∧
          ∀ p ∈ prints, ¬(p.user = user ∧ p.name = name)) := by
  induction prints generalizing records with
  | nil => simp [putAll]
  | cons p prints ih =>
      obtain ⟨hname, hnames⟩ := List.pairwise_cons.1 hnames
      have hstep := ih hnames (records.put p.user p.name p)
      rw [putAll] at hstep ⊢
      rw [List.foldl_cons, hstep, get?_put]
      by_cases hp : p.user = user ∧ p.name = name
      · have hothers : ∀ q ∈ prints, ¬(q.user = user ∧ q.name = name) := fun q hq hsame =>
          hname q hq ⟨hp.1.trans hsame.1.symm, hp.2.trans hsame.2.symm⟩
        rw [if_pos hp]
        constructor
        · rintro (⟨hmem, hsame⟩ | ⟨heq, -⟩)
          · exact Or.inl ⟨by simp [hmem], hsame⟩
          · rw [← Option.some.inj heq]
            exact Or.inl ⟨by simp, hp⟩
        · rintro (⟨hmem, hsame⟩ | ⟨-, hnone⟩)
          · rcases List.mem_cons.1 hmem with rfl | hmem
            · exact Or.inr ⟨rfl, hothers⟩
            · exact absurd hsame (hothers _ hmem)
          · exact absurd hp (hnone p (by simp))
      · rw [if_neg hp, List.forall_mem_cons]
        constructor
        · rintro (⟨hmem, hsame⟩ | ⟨hget, hnone⟩)
          · exact Or.inl ⟨by simp [hmem], hsame⟩
          · exact Or.inr ⟨hget, hp, hnone⟩
        · rintro (⟨hmem, hsame⟩ | ⟨hget, -, hnone⟩)
          · rcases List.mem_cons.1 hmem with rfl | hmem
            · exact absurd hsame hp
            · exact Or.inl ⟨hmem, hsame⟩
          · exact Or.inr ⟨hget, hnone⟩

/-- Putting all listed records gives the records back. -/
theorem Records.putAll_all {records : Records} (h : records.Sound) :
    Records.putAll .empty records.all = records.nonempty := by
  refine ext_of_nonempty (putAll_noEmptyUser empty_noEmptyUser _) records.nonempty_noEmptyUser
    fun user name => Option.ext fun print => ?_
  rw [get?_putAll h.pairwise_names, get?_nonempty]
  constructor
  · rintro (⟨hmem, rfl, rfl⟩ | ⟨hget, -⟩)
    · exact h.mem_all.1 hmem
    · cases hget
  · intro hget
    have hstored := h.stored hget
    exact Or.inl ⟨mem_all.2 ⟨user, name, hget⟩, hstored.user, hstored.name⟩

/-- Every record takes some bytes. -/
theorem appendRecords_length {prints : List Fingerprint} {bytes : List UInt8}
    (h : appendRecords prints = .ok bytes) : prints.length ≤ bytes.length := by
  induction prints generalizing bytes with
  | nil => exact Nat.zero_le _
  | cons print prints ih =>
      rw [appendRecords] at h
      split at h
      · cases h
      rename_i first hfirst
      split at h
      · cases h
      rename_i others hothers
      obtain rfl := Except.ok.inj h
      have hpos : 0 < first.length := by
        unfold appendRecord at hfirst
        split at hfirst
        · cases hfirst
        split at hfirst
        · cases hfirst
        obtain rfl := Except.ok.inj hfirst
        rw [List.length_append, storeLe32_length]
        omega
      have := ih hothers
      rw [List.length_cons, List.length_append]
      omega

theorem parseDatabase_serializeDatabase {hardwareId : UInt16} {records : Records}
    (hsound : records.Sound) {plain : List UInt8}
    (h : serializeDatabase hardwareId records = some plain) :
    parseDatabase hardwareId plain = .ok records.nonempty := by
  unfold serializeDatabase at h
  dsimp only at h
  split_ifs at h with hmany
  split at h
  · cases h
  rename_i bytes hbytes
  split_ifs at h with hlarge
  obtain rfl := Option.some.inj h
  -- so small a file holds fewer records than the counter can count
  have hcount : records.all.length % 2 ^ 32 = records.all.length := by
    have hbytesLength := appendRecords_length hbytes
    have hmax : maximumFile = 16777216 := rfl
    rw [List.length_append, List.length_append] at hlarge
    exact Nat.mod_eq_of_lt (by omega)
  rw [hcount] at hmany
  have hstored : ∀ print ∈ records.all, print.Stored print.user print.name := fun print hmem =>
    hsound.stored (hsound.mem_all.1 hmem)
  have hread : readRecords records.all.length .empty [] (bytes ++ []) =
      .ok (Records.putAll .empty records.all, []) :=
    readRecords_appendRecords hbytes hstored hsound.pairwise_names hsound.pairwise_registration
      (fun _ _ => rfl) (fun _ _ => List.not_mem_nil) []
  have hwords : ∀ word ∈ profileWords hardwareId, word < 2 ^ 32 := by
    have := hardwareId.toNat_lt
    simp only [profileWords, List.mem_cons, List.not_mem_nil, or_false, forall_eq_or_imp,
      forall_eq]
    omega
  rw [List.append_nil, Records.putAll_all hsound] at hread
  rw [parseDatabase, readProfile_words hwords, hcount]
  dsimp only
  rw [readWord_storeLe32 (by omega)]
  dsimp only
  rw [if_neg hmany, hread]
  simp

/-! ### The file -/

/-- The writes that succeed write everything. -/
theorem writeAll_eq {results : List WriteResult} {data file written : List UInt8}
    (h : writeAll results data file = some written) : written = file ++ data := by
  induction results generalizing data file with
  | nil => exact (Option.some.inj h).symm
  | cons result results ih =>
      unfold writeAll at h
      split_ifs at h with hdone
      · rw [hdone, List.append_nil]
        exact (Option.some.inj h).symm
      · cases result with
        | interrupted => exact ih h
        | failed => cases h
        | wrote count =>
            dsimp only at h
            split_ifs at h
            rw [ih h, List.append_assoc, List.take_append_drop]

/-- A file that is renamed holds what was to be written. -/
theorem commitFile_eq {disk : Disk} {encrypted written : List UInt8}
    (h : commitFile disk encrypted = some written) : written = encrypted := by
  unfold commitFile at h
  split at h
  · cases h
  split at h
  · cases h
  rename_i out hout
  split_ifs at h
  rw [← Option.some.inj h, writeAll_eq hout, List.nil_append]

/-- An encrypted plaintext of a fitting size is decrypted and parsed. -/
theorem loadDatabase_encryptDatabase (cipher : Cipher) (key : List UInt8) (hardwareId : UInt16)
    {nonce plain : List UInt8} (hnonce : nonce.length = 12)
    (hsize : plain.length ≤ maximumFile - 36) :
    loadDatabase cipher key hardwareId (some (encryptDatabase cipher key nonce plain)) =
      parseDatabase hardwareId plain := by
  set sealed := cipher.encrypt key magic nonce plain with hsealed
  have htext : sealed.1.length = plain.length := cipher.text_length key magic nonce plain
  have htag : sealed.2.length = 16 := cipher.tag_length key magic nonce plain
  have hmagic : magic.length = 8 := rfl
  have hfile : encryptDatabase cipher key nonce plain =
      magic ++ (nonce ++ (sealed.1 ++ sealed.2)) := rfl
  have hlength : (magic ++ (nonce ++ (sealed.1 ++ sealed.2))).length = plain.length + 36 := by
    simp only [List.length_append, htext, htag, hnonce, hmagic]
    omega
  have hmax : maximumFile = 16777216 := rfl
  have hhead : (magic ++ (nonce ++ (sealed.1 ++ sealed.2))).take 8 = magic :=
    List.take_left' hmagic
  have hdrop8 : (magic ++ (nonce ++ (sealed.1 ++ sealed.2))).drop 8 =
      nonce ++ (sealed.1 ++ sealed.2) := List.drop_left' hmagic
  have hdrop20 : (magic ++ (nonce ++ (sealed.1 ++ sealed.2))).drop 20 = sealed.1 ++ sealed.2 := by
    rw [show 20 = 8 + 12 from rfl, ← List.drop_drop, hdrop8]
    exact List.drop_left' hnonce
  have hdropTag : (magic ++ (nonce ++ (sealed.1 ++ sealed.2))).drop (plain.length + 36 - 16) =
      sealed.2 := by
    rw [show plain.length + 36 - 16 = 20 + plain.length by omega, ← List.drop_drop, hdrop20]
    exact List.drop_left' htext
  rw [hfile, loadDatabase, hlength, if_neg (by omega), hhead, if_neg (by simp), hdrop8,
    List.take_left' hnonce,
    hdrop20, show plain.length + 36 - 36 = plain.length by omega, List.take_left' htext, hdropTag,
    hsealed, cipher.decrypt_encrypt]

/-- **A saved database loads, with the same records.** -/
theorem loadDatabase_saveDatabase {cipher : Cipher} {disk : Disk} {s : FingerprintStorage}
    (hsound : s.fingerprints.Sound) {file : List UInt8}
    (h : saveDatabase cipher disk s = some file) :
    loadDatabase cipher s.key s.hardwareId (some file) = .ok s.fingerprints.nonempty := by
  unfold saveDatabase at h
  split_ifs at h
  split at h
  · cases h
  rename_i plain hplain
  split at h
  · cases h
  rename_i nonce _
  have hsize : plain.length ≤ maximumFile - 36 := by
    unfold serializeDatabase at hplain
    dsimp only at hplain
    split_ifs at hplain
    split at hplain
    · cases hplain
    split_ifs at hplain with hlarge
    rw [← Option.some.inj hplain]
    exact not_lt.1 hlarge
  rw [commitFile_eq h, loadDatabase_encryptDatabase cipher _ _ nonce.length_toList hsize,
    parseDatabase_serializeDatabase hsound hplain]

/-! ### When saving succeeds -/

/-- The names of a record can be written, and its template is not too large to be read again. -/
structure Fingerprint.Writable (print : Fingerprint) : Prop where
  user : print.user ≠ [] ∧ print.user.length ≤ 256 ∧ 0 ∉ print.user
  name : print.name ≠ [] ∧ print.name.length ≤ 256 ∧ 0 ∉ print.name
  native : print.native.length ≤ 200000

theorem appendString_ok {value : Name} (h : value ≠ [] ∧ value.length ≤ 256 ∧ 0 ∉ value) :
    appendString value = .ok (storeLe32 value.length ++ value) := by
  obtain ⟨hempty, hlong, hzero⟩ := h
  rw [appendString, if_neg]
  rintro (h | h | h)
  · exact hempty h
  · omega
  · exact hzero h

theorem appendRecords_ok {prints : List Fingerprint} (h : ∀ print ∈ prints, print.Writable) :
    ∃ bytes, appendRecords prints = .ok bytes ∧ bytes.length ≤ prints.length * 200528 := by
  induction prints with
  | nil => exact ⟨[], rfl, Nat.zero_le _⟩
  | cons print prints ih =>
      obtain ⟨rest, hrest, hlength⟩ := ih fun p hp => h p (List.mem_cons_of_mem _ hp)
      have hprint := h print List.mem_cons_self
      have huser := hprint.user.2.1
      have hname := hprint.name.2.1
      have hnative := hprint.native
      rw [appendRecords, appendRecord, appendString_ok hprint.user]
      dsimp only
      rw [appendString_ok hprint.name]
      dsimp only
      rw [hrest]
      refine ⟨_, rfl, ?_⟩
      simp only [List.length_append, storeLe32_length, List.length_cons]
      omega

/-- **Saving succeeds** on a disk on which everything goes well, when the records can be written
and are not too many for a file. -/
theorem saveDatabase_isSome (cipher : Cipher) (nonce : Vector UInt8 12) {s : FingerprintStorage}
    (hkey : s.key.length = 32) (hfilename : s.filename ≠ [])
    (hfew : s.fingerprints.all.length ≤ 80)
    (hwritable : ∀ print ∈ s.fingerprints.all, print.Writable) :
    ∃ file, saveDatabase cipher (Disk.sound nonce) s = some file := by
  obtain ⟨bytes, hbytes, hlength⟩ := appendRecords_ok hwritable
  have hcount : s.fingerprints.all.length % 2 ^ 32 = s.fingerprints.all.length :=
    Nat.mod_eq_of_lt (by omega)
  have hwords : ((profileWords s.hardwareId).flatMap storeLe32).length = 24 := rfl
  have hmax : maximumFile = 16777216 := rfl
  have hplain : ∃ plain, serializeDatabase s.hardwareId s.fingerprints = some plain := by
    rw [serializeDatabase]
    dsimp only
    rw [hcount, if_neg (by omega), hbytes]
    dsimp only
    rw [if_neg (by rw [List.length_append, List.length_append, hwords, storeLe32_length]; omega)]
    exact ⟨_, rfl⟩
  obtain ⟨plain, hplain⟩ := hplain
  have hopen : ¬(s.key.length ≠ 32 ∨ s.filename = []) := by
    rw [hkey]
    simpa using hfilename
  rw [saveDatabase, if_neg hopen, hplain]
  exact ⟨_, rfl⟩

end Fpc
