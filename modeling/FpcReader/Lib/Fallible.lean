/-
**Fallible computations in sequence.**

A computation either comes to a value or reports what has gone wrong; a sequence of two goes wrong
where the first of them does.

Main results:

* `Fallible.ok_bind`, `Fallible.error_bind` — what a sequence comes to;
* `Fallible.bind_eq_ok` — **a sequence comes to a value when both parts do**.
-/

import Mathlib.Data.Nat.Notation

set_option relaxedAutoImplicit false
set_option autoImplicit false

namespace Fallible

universe u v

variable {ε : Type u} {α β : Type v}

@[simp]
theorem ok_bind (a : α) (f : α → Except ε β) : ((Except.ok a : Except ε α) >>= f) = f a := rfl

@[simp]
theorem error_bind (e : ε) (f : α → Except ε β) :
    ((Except.error e : Except ε α) >>= f) = Except.error e := rfl

/-- A sequence comes to a value when both of its parts do. -/
theorem bind_eq_ok {x : Except ε α} {f : α → Except ε β} {b : β} :
    (x >>= f) = .ok b ↔ ∃ a, x = .ok a ∧ f a = .ok b := by
  cases x with
  | error e => simp
  | ok a => simp

end Fallible
