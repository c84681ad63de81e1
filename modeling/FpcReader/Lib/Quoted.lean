/-
**Searching a quoted text.**

A text of quoted values may be searched for a name together with the quote behind it.  As the name
itself has no quote, an occurrence can end only at a quote of the text, and it is there when the
text between this quote and the one before ends in the name.

Main definitions:

* `Quoted.after` — what follows the first occurrence of a pattern;
* `Quoted.upTo` — a text up to the next quote.

Main results:

* `Quoted.after_quote` — **the search at the next quote**.
-/

import Mathlib.Data.List.Basic
import Mathlib.Data.List.Infix
import Mathlib.Data.Nat.Notation

set_option relaxedAutoImplicit false
set_option autoImplicit false

namespace Quoted

variable {α : Type*} [DecidableEq α]

/-- What follows the first occurrence of a pattern that is not empty. -/
def after (pattern : List α) : List α → Option (List α)
  | [] => none
  | c :: text =>
      if pattern <+: c :: text then some ((c :: text).drop pattern.length) else after pattern text

/-- A text up to the next quote, or to its end. -/
def upTo (quote : α) (text : List α) : List α := text.takeWhile (· ≠ quote)

theorem all_unquoted {quote : α} {text : List α} (h : quote ∉ text) :
    ∀ c ∈ text, decide (c ≠ quote) = true := by
  intro c hc
  have hne : c ≠ quote := fun heq => h (heq ▸ hc)
  simpa using hne

theorem upTo_quote {quote : α} {text rest : List α} (h : quote ∉ text) :
    upTo quote (text ++ quote :: rest) = text := by
  rw [upTo, List.takeWhile_append_of_pos (all_unquoted h)]
  simp

/-- A pattern that ends in a quote stands in front of the next quote or behind it. -/
theorem prefix_quote_iff {quote : α} {name text rest : List α} (hname : quote ∉ name)
    (htext : quote ∉ text) : (name ++ [quote]) <+: (text ++ quote :: rest) ↔ name = text := by
  constructor
  · intro h
    obtain ⟨tail, htail⟩ := h
    have hcut := congrArg (upTo quote) htail
    rw [List.append_assoc, List.singleton_append, upTo_quote hname, upTo_quote htext] at hcut
    exact hcut
  · rintro rfl
    refine ⟨rest, ?_⟩
    rw [List.append_assoc, List.singleton_append]

/-- **The search at the next quote**: the text in front of it ends in the name, or the search goes
on behind it. -/
theorem after_quote {quote : α} {name text rest : List α} (hne : name ≠ []) (hname : quote ∉ name)
    (htext : quote ∉ text) :
    after (name ++ [quote]) (text ++ quote :: rest) =
      if name <:+ text then some rest else after (name ++ [quote]) rest := by
  induction text with
  | nil =>
      have hprefix : ¬(name ++ [quote]) <+: quote :: rest := by
        intro h
        exact hne ((prefix_quote_iff hname htext).1 h)
      rw [List.nil_append, after, if_neg hprefix, if_neg (by simpa using hne)]
  | cons c text ih =>
      rw [List.mem_cons, not_or] at htext
      have hwhole : quote ∉ c :: text := by
        rw [List.mem_cons, not_or]
        exact htext
      rw [List.cons_append, after, ← List.cons_append]
      by_cases heq : name = c :: text
      · rw [if_pos ((prefix_quote_iff hname hwhole).2 heq),
          if_pos (List.suffix_cons_iff.2 (Or.inl heq)), heq]
        have hsplit : c :: text ++ quote :: rest = (c :: text ++ [quote]) ++ rest := by
          rw [List.append_assoc, List.singleton_append]
        rw [hsplit, List.drop_left]
      · rw [if_neg fun h => heq ((prefix_quote_iff hname hwhole).1 h), ih htext.2]
        by_cases hsuffix : name <:+ text
        · rw [if_pos hsuffix, if_pos (List.suffix_cons_iff.2 (Or.inr hsuffix))]
        · rw [if_neg hsuffix, if_neg fun h => (List.suffix_cons_iff.1 h).elim heq hsuffix]

end Quoted
