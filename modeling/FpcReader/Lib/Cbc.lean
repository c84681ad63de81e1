/-
**Cipher block chaining and padding.**

Each block of a chained ciphertext is deciphered by itself and combined with the ciphertext block
before it, so that the first blocks of the plaintext depend on the first blocks of the ciphertext
only.  The last block of a padded plaintext tells in its last byte how many bytes to take off.

Main definitions:

* `Cbc.decrypt` — deciphering a chain of blocks;
* `Cbc.unpad` — taking the padding off the last block.

Main results:

* `Cbc.decrypt_take` — **the first blocks of the plaintext**.
-/

import Mathlib.Data.List.Basic
import Mathlib.Data.Nat.Notation

set_option relaxedAutoImplicit false
set_option autoImplicit false

namespace Cbc

section Chain

variable {β : Type*} (decipher : β → β) (combine : β → β → β)

/-- Decipher a chain that starts behind a block. -/
def decrypt : β → List β → List β
  | _, [] => []
  | previous, block :: blocks => combine (decipher block) previous :: decrypt block blocks

@[simp]
theorem decrypt_length (previous : β) (blocks : List β) :
    (decrypt decipher combine previous blocks).length = blocks.length := by
  induction blocks generalizing previous with
  | nil => rfl
  | cons block blocks ih => rw [decrypt, List.length_cons, ih, List.length_cons]

/-- **The first blocks of the plaintext** depend on the first blocks of the ciphertext only. -/
theorem decrypt_take (n : ℕ) (previous : β) (blocks : List β) :
    (decrypt decipher combine previous blocks).take n =
      decrypt decipher combine previous (blocks.take n) := by
  induction blocks generalizing n previous with
  | nil => simp [decrypt]
  | cons block blocks ih =>
      cases n with
      | zero => simp [decrypt]
      | succ n => rw [decrypt, List.take_succ_cons, ih, List.take_succ_cons, decrypt]

/-- All blocks but the last. -/
theorem decrypt_dropLast (previous : β) (blocks : List β) :
    (decrypt decipher combine previous blocks).dropLast =
      decrypt decipher combine previous blocks.dropLast := by
  rw [List.dropLast_eq_take, decrypt_take, decrypt_length, List.dropLast_eq_take]

end Chain

/-- A block without its padding: as many last bytes as the last byte says, all of that value. -/
def unpad (block : List UInt8) : Option (List UInt8) :=
  match block.getLast? with
  | none => none
  | some last =>
      let n := last.toNat
      if n = 0 ∨ block.length < n ∨ (block.drop (block.length - n)).any (· ≠ last) then none
      else some (block.take (block.length - n))

end Cbc
