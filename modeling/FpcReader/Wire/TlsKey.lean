/-
**The wrapped TLS key.**

The reader sends the key of its TLS session wrapped: a header of seven words with offsets and
lengths, a label, the key enciphered in three blocks, and a signature over the label and the
declared length of the key, which is that of the first two blocks.  All offsets come from the
packet.  The third block is not signed, but it can hold nothing but padding, so it has no influence
on the key.

Main definitions:

* `Fpc.TlsCrypto`, `Fpc.TlsCalls` — the cryptographic functions, and which calls succeed;
* `Fpc.verifyTlsKey` — the check of the signature;
* `Fpc.unwrapTlsKey` — unwrapping, with the output buffer.

Main results:

* `Fpc.unwrappedKey_inside` — **nothing is read outside the packet**;
* `Fpc.unwrappedKey_eq_some` — what an accepted packet looks like;
* `Fpc.decryptKey_eq_some` — the key is the first two blocks.
-/

import FpcReader.Lib.Cbc
import FpcReader.Lib.Fallible
import FpcReader.Native.Views
import Mathlib.Data.UInt

set_option relaxedAutoImplicit false
set_option autoImplicit false

namespace Fpc

open Fallible

/-! ### The library -/

/-- A block of the cipher. -/
abbrev CipherBlock := Vector UInt8 16

/-- The cryptographic functions: a digest, a message authentication code under a key, and
deciphering one block under a key. -/
structure TlsCrypto where
  sha256 : List UInt8 → List UInt8
  hmac : List UInt8 → List UInt8 → List UInt8
  aesDecrypt : List UInt8 → CipherBlock → CipherBlock

/-- Which calls into the library succeed. -/
structure TlsCalls where
  digest : Bool
  mac : Bool
  cipher : Bool

/-- What ends an unwrapping without a result. -/
inductive UnwrapFault where
  /-- A read outside of the packet. -/
  | outOfBounds
  /-- The exception of a digest that fails. -/
  | thrown
  deriving DecidableEq, Repr

/-- The bytes of a string literal, with the zero that ends it. -/
def cString (s : String) : List UInt8 := s.toList.map (fun c => UInt8.ofNat c.toNat) ++ [0]

/-- `crypto::sha256` throws when the call fails or the digest has another size. -/
def tlsSha256 (crypto : TlsCrypto) (calls : TlsCalls) (data : List UInt8) :
    Except UnwrapFault (List UInt8) :=
  if calls.digest = false ∨ (crypto.sha256 data).length ≠ 32 then .error .thrown
  else .ok (crypto.sha256 data)

/-- `crypto::verify_tls_key`. -/
def verifyTlsKey (crypto : TlsCrypto) (calls : TlsCalls) (aad key signature : List UInt8) :
    Except UnwrapFault Bool :=
  tlsSha256 crypto calls (cString "FPC_HMAC_KEY") >>= fun hmacKey =>
    let mac := crypto.hmac hmacKey (aad ++ key)
    .ok (calls.mac && decide (mac.length = 32 ∧ signature.length = 32 ∧ mac = signature))

/-! ### Deciphering -/

/-- The `i`-th block of some bytes. -/
def cipherBlock (bytes : List UInt8) (i : ℕ) : CipherBlock :=
  Vector.ofFn fun k : Fin 16 => bytes.getD (16 * i + k) 0

/-- The blocks of some bytes. -/
def cipherBlocks (bytes : List UInt8) : List CipherBlock :=
  (List.range (bytes.length / 16)).map (cipherBlock bytes)

/-- The blocks deciphered in a chain that starts from zero. -/
def plainBlocks (crypto : TlsCrypto) (sealingKey bytes : List UInt8) : List CipherBlock :=
  Cbc.decrypt (crypto.aesDecrypt sealingKey) (Vector.zipWith (· ^^^ ·)) (Vector.replicate 16 0)
    (cipherBlocks bytes)

/-- `EVP_DecryptUpdate` on whole blocks: the last one is held back for its padding. -/
def decryptUpdate (crypto : TlsCrypto) (sealingKey bytes : List UInt8) : List UInt8 :=
  (plainBlocks crypto sealingKey bytes).dropLast.flatMap Vector.toList

/-- `EVP_DecryptFinal_ex`: what the padding of the last block leaves of it. -/
def decryptFinal (crypto : TlsCrypto) (sealingKey bytes : List UInt8) : Option (List UInt8) :=
  (plainBlocks crypto sealingKey bytes).getLast?.bind fun block => Cbc.unpad block.toList

/-- The plaintext of the wrapped key, when it has the size of a key. -/
def decryptKey (crypto : TlsCrypto) (calls : TlsCalls) (sealingKey bytes : List UInt8) :
    Option (List UInt8) :=
  if calls.cipher = false then none
  else
    let updated := decryptUpdate crypto sealingKey bytes
    (decryptFinal crypto sealingKey bytes).bind fun finished =>
      if updated.length + finished.length = 32 then some ((updated ++ finished).take 32) else none

/-! ### Unwrapping -/

/-- Bytes of the packet. -/
def packetBytes (packet : List UInt8) (offset length : ℕ) : Except UnwrapFault (List UInt8) :=
  if offset + length ≤ packet.length then .ok ((packet.drop offset).take length)
  else .error .outOfBounds

/-- The `i`-th word of the header. -/
def headerWord (packet : List UInt8) (i : ℕ) : Except UnwrapFault ℕ :=
  packetBytes packet (4 * i) 4 >>= fun bytes => .ok (le32 bytes).toNat

/-- A range behind the header lies in a packet of `size` bytes; nothing wraps around, for the
length is compared with what is left behind the offset. -/
def validRange (size offset length : ℕ) : Bool :=
  decide (28 ≤ offset ∧ offset ≤ size ∧ length ≤ size - offset)

/-- The key of a packet, if the packet is accepted. -/
def unwrappedKey (crypto : TlsCrypto) (calls : TlsCalls) (packet : List UInt8) :
    Except UnwrapFault (Option (List UInt8)) :=
  if packet.length < 28 then .ok none
  else
    headerWord packet 1 >>= fun keyOffset =>
    headerWord packet 2 >>= fun keyLength =>
    headerWord packet 3 >>= fun aadOffset =>
    headerWord packet 4 >>= fun aadLength =>
    headerWord packet 5 >>= fun sigOffset =>
    headerWord packet 6 >>= fun sigLength =>
    headerWord packet 0 >>= fun magic =>
      if magic ≠ 0x0dec0ded ∨ keyLength ≠ 32 ∨ aadLength ≠ 13 ∨ sigLength ≠ 32 ∨
          validRange packet.length keyOffset 48 = false ∨
          validRange packet.length aadOffset aadLength = false ∨
          validRange packet.length sigOffset sigLength = false then .ok none
      else
        packetBytes packet aadOffset 13 >>= fun aad =>
          if aad ≠ cString "FPC TLS Keys" then .ok none
          else
            packetBytes packet keyOffset keyLength >>= fun key =>
            packetBytes packet sigOffset 32 >>= fun signature =>
            verifyTlsKey crypto calls aad key signature >>= fun good =>
              if good = false then .ok none
              else
                tlsSha256 crypto calls (cString "FPC_SEALING_KEY") >>= fun sealingKey =>
                packetBytes packet keyOffset 48 >>= fun wrapped =>
                  .ok (decryptKey crypto calls sealingKey wrapped)

/-- `unwrap_tls_key`: whether the packet is accepted, and the output buffer afterwards. -/
def unwrapTlsKey (crypto : TlsCrypto) (calls : TlsCalls) (packet output : List UInt8) :
    Except UnwrapFault Bool × List UInt8 :=
  match unwrappedKey crypto calls packet with
  | .error e => (.error e, output)
  | .ok none => (.ok false, output)
  | .ok (some key) => (.ok true, key)

/-! ### Reading -/

section Reading

variable {packet : List UInt8}

theorem packetBytes_ok {offset length : ℕ} (h : offset + length ≤ packet.length) :
    packetBytes packet offset length = .ok ((packet.drop offset).take length) := if_pos h

theorem packetBytes_eq_ok {offset length : ℕ} {bytes : List UInt8}
    (h : packetBytes packet offset length = .ok bytes) :
    bytes = (packet.drop offset).take length ∧ bytes.length = length := by
  unfold packetBytes at h
  split_ifs at h with hle
  obtain rfl := Except.ok.inj h
  refine ⟨rfl, ?_⟩
  rw [List.length_take, List.length_drop]
  omega

theorem headerWord_ok (hlong : 28 ≤ packet.length) {i : ℕ} (hi : i < 7) :
    headerWord packet i = .ok (le32 ((packet.drop (4 * i)).take 4)).toNat := by
  rw [headerWord, packetBytes_ok (by omega), ok_bind]

theorem tlsSha256_inside (crypto : TlsCrypto) (calls : TlsCalls) (data : List UInt8) :
    tlsSha256 crypto calls data ≠ .error .outOfBounds := by
  unfold tlsSha256
  split_ifs
  · simp
  · simp

/-- A step that reads inside the packet, followed by one that does. -/
theorem bind_inside {α β : Type} {x : Except UnwrapFault α} {f : α → Except UnwrapFault β}
    (hx : x ≠ .error .outOfBounds) (hf : ∀ a, x = .ok a → f a ≠ .error .outOfBounds) :
    (x >>= f) ≠ .error .outOfBounds := by
  cases x with
  | error e =>
      cases e with
      | outOfBounds => exact absurd rfl hx
      | thrown => simp
  | ok a => exact hf a rfl

/-- **Nothing is read outside the packet.** -/
theorem unwrappedKey_inside (crypto : TlsCrypto) (calls : TlsCalls) (packet : List UInt8) :
    unwrappedKey crypto calls packet ≠ .error .outOfBounds := by
  unfold unwrappedKey
  split_ifs with hshort
  · simp
  have hlong : 28 ≤ packet.length := by omega
  rw [headerWord_ok hlong (by norm_num : 1 < 7), ok_bind,
    headerWord_ok hlong (by norm_num : 2 < 7), ok_bind,
    headerWord_ok hlong (by norm_num : 3 < 7), ok_bind,
    headerWord_ok hlong (by norm_num : 4 < 7), ok_bind,
    headerWord_ok hlong (by norm_num : 5 < 7), ok_bind,
    headerWord_ok hlong (by norm_num : 6 < 7), ok_bind,
    headerWord_ok hlong (by norm_num : 0 < 7), ok_bind]
  split_ifs with hheader
  · simp
  simp only [not_or, not_not, Bool.not_eq_false, validRange, decide_eq_true_eq] at hheader
  obtain ⟨-, hkeyLength, haadLength, hsigLength, hkey, haad, hsig⟩ := hheader
  rw [packetBytes_ok (by omega), ok_bind]
  split_ifs
  · simp
  rw [packetBytes_ok (by omega), ok_bind, packetBytes_ok (by omega), ok_bind]
  refine bind_inside (bind_inside (tlsSha256_inside _ _ _) fun _ _ => by simp) ?_
  intro good _
  split_ifs
  · simp
  refine bind_inside (tlsSha256_inside _ _ _) ?_
  intro sealingKey _
  rw [packetBytes_ok (by omega), ok_bind]
  simp

end Reading

/-! ### The key -/

theorem cipherBlocks_length (bytes : List UInt8) :
    (cipherBlocks bytes).length = bytes.length / 16 := by
  rw [cipherBlocks, List.length_map, List.length_range]

/-- A block of the first bytes. -/
theorem cipherBlock_take (bytes : List UInt8) {i n : ℕ} (h : 16 * i + 16 ≤ n) :
    cipherBlock (bytes.take n) i = cipherBlock bytes i := by
  unfold cipherBlock
  congr 1
  funext k
  have hk := k.isLt
  rw [List.getD_eq_getElem?_getD, List.getD_eq_getElem?_getD, List.getElem?_take,
    if_pos (by omega)]

/-- All blocks but the last one of three. -/
theorem cipherBlocks_dropLast {bytes : List UInt8} (h : bytes.length = 48) :
    (cipherBlocks bytes).dropLast = cipherBlocks (bytes.take 32) := by
  have htake : (bytes.take 32).length = 32 := List.length_take_of_le (by omega)
  rw [List.dropLast_eq_take, cipherBlocks_length, cipherBlocks, cipherBlocks, h, htake,
    ← List.map_take]
  refine List.map_congr_left ?_
  intro i hi
  have hlt : i < 2 := by
    rw [List.take_range, List.mem_range] at hi
    omega
  exact (cipherBlock_take bytes (by omega)).symm

theorem flatMap_toList_length (blocks : List CipherBlock) :
    (blocks.flatMap Vector.toList).length = 16 * blocks.length := by
  induction blocks with
  | nil => rfl
  | cons block blocks ih =>
      rw [List.flatMap_cons, List.length_append, ih, Vector.length_toList, List.length_cons]
      omega

/-- **The key is the first two blocks.** -/
theorem decryptKey_eq_some {crypto : TlsCrypto} {calls : TlsCalls}
    {sealingKey bytes key : List UInt8} (h : bytes.length = 48)
    (hkey : decryptKey crypto calls sealingKey bytes = some key) :
    key = (plainBlocks crypto sealingKey (bytes.take 32)).flatMap Vector.toList ∧
      key.length = 32 := by
  have hupdated : decryptUpdate crypto sealingKey bytes =
      (plainBlocks crypto sealingKey (bytes.take 32)).flatMap Vector.toList := by
    rw [decryptUpdate, plainBlocks, Cbc.decrypt_dropLast, cipherBlocks_dropLast h, plainBlocks]
  have hlength : (decryptUpdate crypto sealingKey bytes).length = 32 := by
    rw [hupdated, flatMap_toList_length, plainBlocks, Cbc.decrypt_length, cipherBlocks_length,
      List.length_take_of_le (by omega)]
  unfold decryptKey at hkey
  split_ifs at hkey
  obtain ⟨finished, -, hkey⟩ := Option.bind_eq_some_iff.1 hkey
  split_ifs at hkey
  obtain rfl := Option.some.inj hkey
  rw [List.take_left' hlength]
  exact ⟨hupdated, hlength⟩

/-! ### Accepted packets -/

/-- The label, the wrapped key and the signature that the header of a packet points to. -/
def FieldsOf (packet aad wrapped signature : List UInt8) : Prop :=
  ∃ keyOffset aadOffset sigOffset, headerWord packet 1 = .ok keyOffset ∧
    headerWord packet 3 = .ok aadOffset ∧ headerWord packet 5 = .ok sigOffset ∧
    packetBytes packet keyOffset 48 = .ok wrapped ∧ packetBytes packet aadOffset 13 = .ok aad ∧
    packetBytes packet sigOffset 32 = .ok signature

/-- A packet has one label, one wrapped key and one signature. -/
theorem FieldsOf.unique {packet aad wrapped signature aad' wrapped' signature' : List UInt8}
    (h : FieldsOf packet aad wrapped signature) (h' : FieldsOf packet aad' wrapped' signature') :
    aad = aad' ∧ wrapped = wrapped' ∧ signature = signature' := by
  obtain ⟨keyOffset, aadOffset, sigOffset, hkey, haad, hsig, hwrapped, hlabel, hsignature⟩ := h
  obtain ⟨_, _, _, hkey', haad', hsig', hwrapped', hlabel', hsignature'⟩ := h'
  obtain rfl := Except.ok.inj (hkey.symm.trans hkey')
  obtain rfl := Except.ok.inj (haad.symm.trans haad')
  obtain rfl := Except.ok.inj (hsig.symm.trans hsig')
  exact ⟨Except.ok.inj (hlabel.symm.trans hlabel'), Except.ok.inj (hwrapped.symm.trans hwrapped'),
    Except.ok.inj (hsignature.symm.trans hsignature')⟩

theorem tlsSha256_eq_ok {crypto : TlsCrypto} {calls : TlsCalls} {data digest : List UInt8}
    (h : tlsSha256 crypto calls data = .ok digest) : digest = crypto.sha256 data := by
  unfold tlsSha256 at h
  split_ifs at h
  exact (Except.ok.inj h).symm

/-- **What an accepted packet looks like**: its label is the one expected, its signature is that of
the label and the first 32 bytes of the wrapped key, and the key is what these bytes decipher to. -/
theorem unwrappedKey_eq_some {crypto : TlsCrypto} {calls : TlsCalls} {packet key : List UInt8}
    (h : unwrappedKey crypto calls packet = .ok (some key)) :
    ∃ aad wrapped signature, FieldsOf packet aad wrapped signature ∧
      aad = cString "FPC TLS Keys" ∧ wrapped.length = 48 ∧ signature.length = 32 ∧
      crypto.hmac (crypto.sha256 (cString "FPC_HMAC_KEY")) (aad ++ wrapped.take 32) = signature ∧
      key = (plainBlocks crypto (crypto.sha256 (cString "FPC_SEALING_KEY"))
        (wrapped.take 32)).flatMap Vector.toList ∧ key.length = 32 := by
  unfold unwrappedKey at h
  split_ifs at h with hshort
  · cases h
  obtain ⟨keyOffset, hkeyOffset, h⟩ := bind_eq_ok.1 h
  obtain ⟨keyLength, -, h⟩ := bind_eq_ok.1 h
  obtain ⟨aadOffset, haadOffset, h⟩ := bind_eq_ok.1 h
  obtain ⟨aadLength, -, h⟩ := bind_eq_ok.1 h
  obtain ⟨sigOffset, hsigOffset, h⟩ := bind_eq_ok.1 h
  obtain ⟨sigLength, -, h⟩ := bind_eq_ok.1 h
  obtain ⟨magic, -, h⟩ := bind_eq_ok.1 h
  split_ifs at h with hheader
  · cases h
  simp only [not_or, not_not] at hheader
  obtain ⟨aad, haad, h⟩ := bind_eq_ok.1 h
  split_ifs at h with hlabel
  · cases h
  obtain ⟨signed, hsigned, h⟩ := bind_eq_ok.1 h
  obtain ⟨signature, hsignature, h⟩ := bind_eq_ok.1 h
  obtain ⟨good, hgood, h⟩ := bind_eq_ok.1 h
  split_ifs at h with hverified
  · cases h
  obtain ⟨sealingKey, hsealing, h⟩ := bind_eq_ok.1 h
  obtain ⟨wrapped, hwrapped, h⟩ := bind_eq_ok.1 h
  have hdecrypt := Except.ok.inj h
  obtain ⟨hwrappedBytes, hwrappedLength⟩ := packetBytes_eq_ok hwrapped
  -- the signed bytes are the first ones of the wrapped key
  have hfirst : signed = wrapped.take 32 := by
    rw [(packetBytes_eq_ok hsigned).1, hwrappedBytes, List.take_take, hheader.2.1]
    rfl
  have hsealingKey := tlsSha256_eq_ok hsealing
  obtain ⟨hkey, hkeyLength⟩ := decryptKey_eq_some hwrappedLength hdecrypt
  obtain ⟨hmacKey, hhmacKey, hcheck⟩ := bind_eq_ok.1 hgood
  have hmac : crypto.hmac hmacKey (aad ++ signed) = signature := by
    rw [Bool.not_eq_false] at hverified
    rw [hverified] at hcheck
    have hall := Except.ok.inj hcheck
    rw [Bool.and_eq_true, decide_eq_true_eq] at hall
    exact hall.2.2.2
  rw [tlsSha256_eq_ok hhmacKey, hfirst] at hmac
  rw [hsealingKey] at hkey
  exact ⟨aad, wrapped, signature, ⟨keyOffset, aadOffset, sigOffset, hkeyOffset, haadOffset,
    hsigOffset, hwrapped, haad, hsignature⟩, not_not.1 hlabel, hwrappedLength,
    (packetBytes_eq_ok hsignature).2, hmac, hkey, hkeyLength⟩

/-- An accepted packet has a key, which is the output. -/
theorem unwrapTlsKey_accepted {crypto : TlsCrypto} {calls : TlsCalls} {packet output : List UInt8}
    (h : (unwrapTlsKey crypto calls packet output).1 = .ok true) :
    unwrappedKey crypto calls packet =
      .ok (some (unwrapTlsKey crypto calls packet output).2) := by
  unfold unwrapTlsKey at h ⊢
  split
  · rename_i e he
    rw [he] at h
    cases h
  · rename_i he
    rw [he] at h
    cases h
  · rename_i key he
    exact he

/-- **Unwrapping the TLS key reads inside the packet and is not malleable.**  Whatever the packet,
the cryptographic functions and the calls that succeed, no byte outside the packet is read; a packet
is accepted only when the signature in it is the authentication code of its thirteen bytes of label
and of the first 32 bytes of the wrapped key; without acceptance the output is as it was; and two
accepted packets with the same label and the same first 32 bytes of wrapped key give the same key of
32 bytes. -/
theorem unwrapTlsKey_nonmalleable (crypto : TlsCrypto) :
    (∀ calls packet output, (unwrapTlsKey crypto calls packet output).1 ≠ .error .outOfBounds) ∧
    (∀ calls packet output, (unwrapTlsKey crypto calls packet output).1 = .ok true →
      ∃ aad wrapped signature, FieldsOf packet aad wrapped signature ∧ aad.length = 13 ∧
        (wrapped.take 32).length = 32 ∧ signature.length = 32 ∧
        crypto.hmac (crypto.sha256 (cString "FPC_HMAC_KEY")) (aad ++ wrapped.take 32) =
          signature ∧ (unwrapTlsKey crypto calls packet output).2.length = 32) ∧
    (∀ calls packet output, (unwrapTlsKey crypto calls packet output).1 ≠ .ok true →
      (unwrapTlsKey crypto calls packet output).2 = output) ∧
    ∀ calls calls' packet packet' output output' aad wrapped signature wrapped' signature',
      (unwrapTlsKey crypto calls packet output).1 = .ok true →
      (unwrapTlsKey crypto calls' packet' output').1 = .ok true →
      FieldsOf packet aad wrapped signature → FieldsOf packet' aad wrapped' signature' →
      wrapped.take 32 = wrapped'.take 32 →
      (unwrapTlsKey crypto calls packet output).2 =
        (unwrapTlsKey crypto calls' packet' output').2 := by
  refine ⟨?_, ?_, ?_, ?_⟩
  · intro calls packet output h
    refine unwrappedKey_inside crypto calls packet ?_
    unfold unwrapTlsKey at h
    split at h
    · rename_i e he
      rw [he]
      exact congrArg Except.error (Except.error.inj h)
    · cases h
    · cases h
  · intro calls packet output h
    obtain ⟨aad, wrapped, signature, hfields, haad, hwrapped, hsignature, hmac, -, hlength⟩ :=
      unwrappedKey_eq_some (unwrapTlsKey_accepted h)
    refine ⟨aad, wrapped, signature, hfields, ?_, List.length_take_of_le (by omega), hsignature,
      hmac, hlength⟩
    rw [haad]
    decide
  · intro calls packet output h
    unfold unwrapTlsKey at h ⊢
    split
    · rfl
    · rfl
    · rename_i key he
      rw [he] at h
      exact absurd rfl h
  · intro calls calls' packet packet' output output' aad wrapped signature wrapped' signature'
      h h' hfields hfields' hsame
    obtain ⟨_, _, _, hfound, -, -, -, -, hkey, -⟩ :=
      unwrappedKey_eq_some (unwrapTlsKey_accepted h)
    obtain ⟨_, _, _, hfound', -, -, -, -, hkey', -⟩ :=
      unwrappedKey_eq_some (unwrapTlsKey_accepted h')
    rw [hkey, hkey', (hfound.unique hfields).2.1, (hfound'.unique hfields').2.1, hsame]

/-- A key of zeros under functions that do nothing. -/
def plainCrypto : TlsCrypto where
  sha256 _ := List.replicate 32 0
  hmac _ _ := List.replicate 32 0
  aesDecrypt _ block := block

/-- A packet with the key, the label and the signature one after the other. -/
def plainPacket : List UInt8 :=
  [0xed, 0x0d, 0xec, 0x0d, 28, 0, 0, 0, 32, 0, 0, 0, 76, 0, 0, 0, 13, 0, 0, 0, 89, 0, 0, 0,
    32, 0, 0, 0] ++ (List.replicate 32 0 ++ (List.replicate 16 16 ++
      (cString "FPC TLS Keys" ++ List.replicate 32 0)))

/-- The packet and a longer one. -/
theorem unwrapTlsKey_nonmalleable_longer :
    (unwrapTlsKey plainCrypto ⟨true, true, true⟩ plainPacket []).1 = .ok true ∧
    (unwrapTlsKey plainCrypto ⟨true, true, true⟩ plainPacket []).2 =
      (unwrapTlsKey plainCrypto ⟨true, true, true⟩ (plainPacket ++ [1]) [5]).2 := by
  have haccepted : (unwrapTlsKey plainCrypto ⟨true, true, true⟩ plainPacket []).1 = .ok true := by
    decide +kernel
  refine ⟨haccepted, (unwrapTlsKey_nonmalleable plainCrypto).2.2.2 ⟨true, true, true⟩
    ⟨true, true, true⟩ plainPacket (plainPacket ++ [1]) [] [5] (cString "FPC TLS Keys")
    (List.replicate 32 0 ++ List.replicate 16 16) (List.replicate 32 0)
    (List.replicate 32 0 ++ List.replicate 16 16) (List.replicate 32 0) haccepted ?_
    ⟨28, 76, 89, ?_, ?_, ?_, ?_, ?_, ?_⟩ ⟨28, 76, 89, ?_, ?_, ?_, ?_, ?_, ?_⟩ rfl⟩
  all_goals decide +kernel

end Fpc
