/-
**Labelling connected components.**

Nodes are labelled one after the other.  A new label starts at a node with a neighbour; after that,
nodes with a labelled neighbour receive the newest label until there is none left, and then the
next label starts.  Nodes are joined by any symmetric relation.

Main definitions:

* `Components.Grown` — the state of the labelling while the newest group grows;
* `Components.Closed` — no labelled node has an unlabelled neighbour.

Main results:

* `Components.Grown.start`, `Components.Grown.join` — the two steps;
* `Components.Grown.same_label_iff` — **in the end two nodes have the same label exactly when they
  are connected**.
-/

import Mathlib.Data.Nat.Notation
import Mathlib.Logic.Function.Basic
import Mathlib.Logic.Relation

set_option relaxedAutoImplicit false
set_option autoImplicit false

namespace Components

open Relation

variable {α : Type*} {R : α → α → Prop} {label : α → Option ℕ} {g : ℕ}

/-- Groups `0, …, g - 1` have been started, and all but the newest are complete. -/
structure Grown (R : α → α → Prop) (label : α → Option ℕ) (g : ℕ) : Prop where
  /-- Labels are those of started groups. -/
  lt : ∀ {a k}, label a = some k → k < g
  /-- Nodes of one group are connected, every node with itself by way of a neighbour. -/
  joined : ∀ {a b k}, label a = some k → label b = some k → TransGen R a b
  /-- Neighbours do not have different labels. -/
  agree : ∀ {a b k l}, R a b → label a = some k → label b = some l → k = l
  /-- A complete group has no neighbours outside. -/
  complete : ∀ {a b k}, R a b → label a = some k → k + 1 < g → label b = some k

/-- No labelled node has an unlabelled neighbour. -/
def Closed (R : α → α → Prop) (label : α → Option ℕ) : Prop :=
  ∀ a b, R a b → label a ≠ none → label b ≠ none

/-- Nothing is labelled yet. -/
theorem Grown.empty (R : α → α → Prop) : Grown R (fun _ => none) 0 :=
  ⟨fun h => by simp at h, fun h => by simp at h, fun _ h => by simp at h, fun _ h => by simp at h⟩

section Steps

variable [DecidableEq α]

/-- A label after one node has got another: the new one, or an old one of another node. -/
theorem update_eq_some {a c : α} {k : ℕ} (h : Function.update label a (some g) c = some k) :
    (c = a ∧ k = g) ∨ (c ≠ a ∧ label c = some k) := by
  by_cases hc : c = a
  · rw [hc, Function.update_self] at h
    exact Or.inl ⟨hc, (Option.some.inj h).symm⟩
  · rw [Function.update_of_ne hc] at h
    exact Or.inr ⟨hc, h⟩

/-- **Starting a group** at an unlabelled node with a neighbour. -/
theorem Grown.start (h : Grown R label g) (hsymm : ∀ {a b}, R a b → R b a)
    (hclosed : Closed R label) {a b : α} (ha : label a = none) (hab : R a b) :
    Grown R (Function.update label a (some g)) (g + 1) := by
  -- a labelled node is no neighbour of the new one
  have hfar : ∀ {c k}, label c = some k → ¬R c a := by
    intro c k hk hca
    exact hclosed c a hca (by rw [hk]; simp) ha
  refine ⟨?_, ?_, ?_, ?_⟩
  · intro c k hk
    rcases update_eq_some hk with ⟨-, rfl⟩ | ⟨-, hk'⟩
    · exact Nat.lt_succ_self k
    · exact Nat.lt_succ_of_lt (h.lt hk')
  · intro c d k hc hd
    rcases update_eq_some hc with ⟨rfl, hkc⟩ | ⟨-, hc'⟩
    · rcases update_eq_some hd with ⟨rfl, -⟩ | ⟨-, hd'⟩
      · exact TransGen.tail (TransGen.single hab) (hsymm hab)
      · exact absurd hkc (Nat.ne_of_lt (h.lt hd'))
    · rcases update_eq_some hd with ⟨-, hkd⟩ | ⟨-, hd'⟩
      · exact absurd hkd (Nat.ne_of_lt (h.lt hc'))
      · exact h.joined hc' hd'
  · intro c d k l hcd hc hd
    rcases update_eq_some hc with ⟨rfl, rfl⟩ | ⟨-, hc'⟩
    · rcases update_eq_some hd with ⟨-, rfl⟩ | ⟨-, hd'⟩
      · rfl
      · exact absurd (hsymm hcd) (hfar hd')
    · rcases update_eq_some hd with ⟨rfl, -⟩ | ⟨-, hd'⟩
      · exact absurd hcd (hfar hc')
      · exact h.agree hcd hc' hd'
  · intro c d k hcd hc hlt
    rcases update_eq_some hc with ⟨-, rfl⟩ | ⟨-, hc'⟩
    · exact absurd hlt (Nat.lt_irrefl _)
    · have hda : d ≠ a := by
        rintro rfl
        exact hfar hc' hcd
      rw [Function.update_of_ne hda]
      cases hd : label d with
      | none => exact absurd hd (hclosed c d hcd (by rw [hc']; simp))
      | some l => rw [h.agree hcd hc' hd]

/-- **Joining the newest group**: a node that has a labelled neighbour. -/
theorem Grown.join (h : Grown R label (g + 1)) (hsymm : ∀ {a b}, R a b → R b a) {a b : α}
    (ha : label a = none) (hb : label b ≠ none) (hab : R a b) :
    Grown R (Function.update label a (some g)) (g + 1) := by
  -- the labelled neighbours of an unlabelled node are in the newest group
  have hnewest : ∀ {c k}, R c a → label c = some k → k = g := by
    intro c k hca hk
    by_contra hne
    have hlt := h.lt hk
    rw [h.complete hca hk (by omega)] at ha
    cases ha
  obtain ⟨k, hk⟩ := Option.ne_none_iff_exists'.1 hb
  obtain rfl := hnewest (hsymm hab) hk
  refine ⟨?_, ?_, ?_, ?_⟩
  · intro c l hl
    rcases update_eq_some hl with ⟨-, rfl⟩ | ⟨-, hl'⟩
    · exact Nat.lt_succ_self l
    · exact h.lt hl'
  · intro c d l hc hd
    rcases update_eq_some hc with ⟨rfl, rfl⟩ | ⟨-, hc'⟩
    · rcases update_eq_some hd with ⟨rfl, -⟩ | ⟨-, hd'⟩
      · exact TransGen.tail (TransGen.single hab) (hsymm hab)
      · exact TransGen.head hab (h.joined hk hd')
    · rcases update_eq_some hd with ⟨rfl, rfl⟩ | ⟨-, hd'⟩
      · exact TransGen.tail (h.joined hc' hk) (hsymm hab)
      · exact h.joined hc' hd'
  · intro c d l m hcd hc hd
    rcases update_eq_some hc with ⟨rfl, rfl⟩ | ⟨-, hc'⟩
    · rcases update_eq_some hd with ⟨-, rfl⟩ | ⟨-, hd'⟩
      · rfl
      · exact (hnewest (hsymm hcd) hd').symm
    · rcases update_eq_some hd with ⟨rfl, rfl⟩ | ⟨-, hd'⟩
      · exact hnewest hcd hc'
      · exact h.agree hcd hc' hd'
  · intro c d l hcd hc hlt
    rcases update_eq_some hc with ⟨-, rfl⟩ | ⟨-, hc'⟩
    · exact absurd hlt (Nat.lt_irrefl _)
    · have hd := h.complete hcd hc' hlt
      have hda : d ≠ a := by
        rintro rfl
        rw [hd] at ha
        cases ha
      rw [Function.update_of_ne hda]
      exact hd

end Steps

/-- A connected node of a labelled one has its label. -/
theorem Grown.label_of_transGen (h : Grown R label g) (hclosed : Closed R label) {a b : α} {k : ℕ}
    (ha : label a = some k) (hab : TransGen R a b) : label b = some k := by
  have hstep : ∀ {c d}, label c = some k → R c d → label d = some k := by
    intro c d hc hcd
    obtain ⟨l, hl⟩ := Option.ne_none_iff_exists'.1 (hclosed c d hcd (by rw [hc]; simp))
    rw [hl, h.agree hcd hc hl]
  induction hab with
  | single hab => exact hstep ha hab
  | tail _ hbc ih => exact hstep ih hbc

/-- **Two nodes have the same label exactly when they are connected**, once no labelled node has an
unlabelled neighbour and no unlabelled node has a neighbour at all. -/
theorem Grown.same_label_iff (h : Grown R label g) (hclosed : Closed R label)
    (halone : ∀ {a b}, label a = none → ¬R a b) (a b : α) :
    (∃ k, label a = some k ∧ label b = some k) ↔ TransGen R a b := by
  constructor
  · rintro ⟨k, ha, hb⟩
    exact h.joined ha hb
  · intro hab
    cases ha : label a with
    | some k => exact ⟨k, rfl, h.label_of_transGen hclosed ha hab⟩
    | none =>
        obtain ⟨c, hac, -⟩ := TransGen.head'_iff.1 hab
        exact absurd hac (halone ha)

end Components
