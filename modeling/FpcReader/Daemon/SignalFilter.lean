/-
**The filter of signals.**

A task that listens to signals asks the bus for those that match a rule, and checks each message
against the rule once more, as signals may also be sent to the daemon directly.  The check searches
the text of the rule for the values of its items.  It does not look at the sender, and a value that
ends like the beginning of an item misleads the search.

Main definitions:

* `Fpc.RuleItem`, `Fpc.ruleText` — a rule, and its text;
* `Fpc.BusMessage`, `Fpc.RuleItem.Satisfied` — a message, and what an item says of it;
* `Fpc.ruleField`, `Fpc.listenFilterSignal` — the search for a value, and the filter;
* `Fpc.comesTo`, `Fpc.misread` — whether a search comes to the item of its key, and what it finds
  when it is misled.

Main results:

* `Fpc.ruleField_text` — **what a search finds**;
* `Fpc.passesFilter_iff` — what the filter checks;
* `Fpc.listenFilterSignal_enforces_iff` — **when the filter enforces its rule**;
* `Fpc.listenFilterSignal_claimRule`, `Fpc.listenFilterSignal_forwards` — the rule of a claim is
  enforced, and its listener in the daemon forwards what the filter lets through.
-/

import FpcReader.Daemon.Step
import FpcReader.Lib.Quoted
import Mathlib.Data.List.Nodup

set_option relaxedAutoImplicit false
set_option autoImplicit false

namespace Fpc

/-! ### Rules -/

/-- The keys of a rule. -/
inductive RuleKey where
  | type | sender | path | interface | member | arg0
  deriving DecidableEq, Repr

/-- The name of a key.  Texts are C strings: their characters are the bytes other than zero. -/
def RuleKey.name : RuleKey → List Char
  | .type => "type".toList
  | .sender => "sender".toList
  | .path => "path".toList
  | .interface => "interface".toList
  | .member => "member".toList
  | .arg0 => "arg0".toList

/-- An item `key='value'`; `blanks` is the number of blanks between the comma in front of it and
the item. -/
structure RuleItem where
  blanks : ℕ
  key : RuleKey
  value : List Char
  deriving DecidableEq, Repr

/-- An item in front of the quote of its value. -/
def RuleItem.opening (item : RuleItem) : List Char := item.key.name ++ ['=']

/-- What stands between the value of the item before and the quote of this one. -/
def RuleItem.lead (item : RuleItem) : List Char :=
  ',' :: (List.replicate item.blanks ' ' ++ item.opening)

/-- The items behind the first one. -/
def ruleTail (rule : List RuleItem) : List Char :=
  rule.flatMap fun item => item.lead ++ '\'' :: (item.value ++ ['\''])

/-- The text of a rule. -/
def ruleText : List RuleItem → List Char
  | [] => []
  | item :: rule => item.opening ++ '\'' :: (item.value ++ '\'' :: ruleTail rule)

/-- A rule has every key at most once, and no quote within a value. -/
structure RuleValid (rule : List RuleItem) : Prop where
  keys : (rule.map RuleItem.key).Nodup
  values : ∀ item ∈ rule, '\'' ∉ item.value

/-! ### Messages -/

inductive BusMessageType where
  | methodCall | methodReturn | error | signal
  deriving DecidableEq, Repr

def BusMessageType.name : BusMessageType → List Char
  | .methodCall => "method_call".toList
  | .methodReturn => "method_return".toList
  | .error => "error".toList
  | .signal => "signal".toList

/-- An argument: a string, or something else. -/
inductive BusArgument where
  | text (value : List Char)
  | other
  deriving DecidableEq, Repr

structure BusMessage where
  type : BusMessageType
  sender : Option (List Char)
  path : Option (List Char)
  interface : Option (List Char)
  member : Option (List Char)
  args : List BusArgument
  deriving DecidableEq, Repr

/-- A message has the value of an item; `owner` gives the unique name that owns a name. -/
def BusMessage.Has (owner : List Char → Option (List Char)) (message : BusMessage)
    (value : List Char) : RuleKey → Prop
  | .type => message.type.name = value
  | .sender => message.sender ≠ none ∧ message.sender = owner value
  | .path => message.path = some value
  | .interface => message.interface = some value
  | .member => message.member = some value
  | .arg0 => message.args.head? = some (.text value)

/-- What an item says of a message. -/
def RuleItem.Satisfied (owner : List Char → Option (List Char)) (message : BusMessage)
    (item : RuleItem) : Prop :=
  message.Has owner item.value item.key

instance (owner : List Char → Option (List Char)) (message : BusMessage) (value : List Char) :
    (key : RuleKey) → Decidable (message.Has owner value key)
  | .type => inferInstanceAs (Decidable (_ = _))
  | .sender => inferInstanceAs (Decidable (_ ∧ _))
  | .path => inferInstanceAs (Decidable (_ = _))
  | .interface => inferInstanceAs (Decidable (_ = _))
  | .member => inferInstanceAs (Decidable (_ = _))
  | .arg0 => inferInstanceAs (Decidable (_ = _))

instance (owner : List Char → Option (List Char)) (message : BusMessage) (item : RuleItem) :
    Decidable (item.Satisfied owner message) :=
  inferInstanceAs (Decidable (message.Has owner item.value item.key))

/-! ### The filter -/

/-- The text behind the first `key='` of a rule, up to the next quote; empty without one. -/
def ruleField (text : List Char) (key : RuleKey) : List Char :=
  match Quoted.after (key.name ++ ['=', '\'']) text with
  | some rest => Quoted.upTo '\'' rest
  | none => []

/-- What the filter asks of a message for the value it has found for a key; an empty value asks for
nothing. -/
def fieldPasses (message : BusMessage) (key : RuleKey) (value : List Char) : Bool :=
  value = [] || match key with
    | .interface => message.interface = some value
    | .member => message.member = some value
    | .path => message.path = some value
    | .arg0 => message.args.head? = some (.text value)
    -- these are not compared
    | .type | .sender => true

inductive HandlerResult where
  | handled | notYetHandled | needMemory
  deriving DecidableEq, Repr

/-- What the queue of messages becomes when a message is put into it; nothing when it fails. -/
abbrev QueuePut := BusMessage → List BusMessage → Option (List BusMessage)

/-- `WorkerListen::filter_signal`: the result, and the queue of messages afterwards. -/
def listenFilterSignal (put : QueuePut) (rule : List Char) (message : BusMessage)
    (queue : List BusMessage) : HandlerResult × List BusMessage :=
  if message.type ≠ .signal then (.notYetHandled, queue)
  else
    let interface := ruleField rule .interface
    let member := ruleField rule .member
    -- the sender is looked up as well, and not used
    let path := ruleField rule .path
    let arg0 := ruleField rule .arg0
    if !(fieldPasses message .interface interface && fieldPasses message .member member &&
        fieldPasses message .path path) then (.notYetHandled, queue)
    else if !fieldPasses message .arg0 arg0 then (.notYetHandled, queue)
    else
      match put message queue with
      | some queue => (.handled, queue)
      | none => (.needMemory, queue)

/-! ### What a search finds -/

/-- A value that ends like the beginning of an item of this key. -/
def endsIn (value : List Char) (key : RuleKey) : Bool := decide (key.name ++ ['='] <:+ value)

/-- The search for a key comes to its item: no value in front of it ends like its beginning. -/
def comesTo : List RuleItem → RuleKey → Bool
  | [], _ => false
  | item :: rule, key =>
      if item.key = key then true else if endsIn item.value key then false else comesTo rule key

/-- What the search for a key finds behind a value that misleads it. -/
def misread : List RuleItem → RuleKey → Option (List Char)
  | [], _ => none
  | item :: rule, key =>
      if item.key = key then none
      else if endsIn item.value key then rule.head?.map RuleItem.lead
      else misread rule key

/-- Only the key itself ends in the name of a key, and commas and blanks are no part of it. -/
theorem name_suffix_iff {before : List Char} (hbefore : ∀ c ∈ before, c = ',' ∨ c = ' ')
    (key other : RuleKey) :
    (key.name ++ ['=']) <:+ (before ++ (other.name ++ ['='])) ↔ key = other := by
  constructor
  · rintro ⟨front, hfront⟩
    rw [← List.append_assoc, ← List.append_assoc] at hfront
    have hnames := List.append_cancel_right hfront
    rcases List.append_eq_append_iff.1 hnames with ⟨u, hu, hname⟩ | ⟨u, hu, hname⟩
    · -- nothing of the name stands in front of the other name
      have hempty : u = [] := by
        cases u with
        | nil => rfl
        | cons c u =>
            have hc : c = ',' ∨ c = ' ' := hbefore c (by rw [hu]; simp)
            have hmem : c ∈ key.name := by rw [hname]; simp
            rcases hc with rfl | rfl
            · cases key <;> exact absurd hmem (by decide)
            · cases key <;> exact absurd hmem (by decide)
      rw [hempty, List.nil_append] at hname
      revert hname
      cases key <;> cases other <;> decide
    · have hsuffix : key.name <:+ other.name := ⟨u, hname.symm⟩
      revert hsuffix
      cases key <;> cases other <;> decide
  · rintro rfl
    exact List.suffix_append _ _

/-- What the search for a key finds in a rule. -/
def found : List RuleItem → RuleKey → List Char
  | [], _ => []
  | item :: rule, key =>
      if item.key = key then item.value
      else if endsIn item.value key then (rule.head?.map RuleItem.lead).getD []
      else found rule key

theorem opening_quote (key : RuleKey) : '\'' ∉ key.name ++ ['='] := by
  cases key <;> decide

/-- The search over one item. -/
theorem after_item {before : List Char} (hbefore : ∀ c ∈ before, c = ',' ∨ c = ' ')
    {item : RuleItem} (hvalue : '\'' ∉ item.value) (key : RuleKey) (rest : List Char) :
    Quoted.after (key.name ++ ['=', '\''])
        (before ++ (item.opening ++ '\'' :: (item.value ++ '\'' :: rest))) =
      if item.key = key then some (item.value ++ '\'' :: rest)
      else if endsIn item.value key then some rest
      else Quoted.after (key.name ++ ['=', '\'']) rest := by
  have hpattern : key.name ++ ['=', '\''] = (key.name ++ ['=']) ++ ['\''] := by
    rw [List.append_assoc]
    rfl
  have hne : key.name ++ ['='] ≠ [] := by simp
  have hopening : '\'' ∉ before ++ item.opening := by
    rw [List.mem_append, not_or]
    refine ⟨?_, opening_quote item.key⟩
    intro hmem
    rcases hbefore _ hmem with h | h
    · exact absurd h (by decide)
    · exact absurd h (by decide)
  rw [hpattern, ← List.append_assoc before,
    Quoted.after_quote hne (opening_quote key) hopening,
    Quoted.after_quote hne (opening_quote key) hvalue]
  have hfirst : key.name ++ ['='] <:+ before ++ item.opening ↔ key = item.key :=
    name_suffix_iff hbefore key item.key
  by_cases hkey : item.key = key
  · rw [if_pos hkey, if_pos (hfirst.2 hkey.symm)]
  · rw [if_neg hkey, if_neg fun h => hkey (hfirst.1 h).symm]
    by_cases hends : key.name ++ ['='] <:+ item.value
    · rw [if_pos hends, if_pos (by simpa [endsIn] using hends)]
    · rw [if_neg hends, if_neg (by simpa [endsIn] using hends)]

/-- The items behind a value begin with what stands in front of the next quote. -/
theorem upTo_ruleTail (rule : List RuleItem) :
    Quoted.upTo '\'' (ruleTail rule) = (rule.head?.map RuleItem.lead).getD [] := by
  cases rule with
  | nil => rfl
  | cons item rule =>
      have hlead : '\'' ∉ item.lead := by
        intro hmem
        rw [RuleItem.lead, List.mem_cons, List.mem_append] at hmem
        rcases hmem with h | h | h
        · exact absurd h (by decide)
        · exact absurd (List.eq_of_mem_replicate h) (by decide)
        · exact opening_quote item.key h
      rw [ruleTail, List.flatMap_cons, List.append_assoc, List.cons_append, Quoted.upTo_quote hlead]
      rfl

/-- The search in a text that begins with an item. -/
theorem ruleField_item {before : List Char} (hbefore : ∀ c ∈ before, c = ',' ∨ c = ' ')
    {item : RuleItem} (hvalue : '\'' ∉ item.value) (rule : List RuleItem) (key : RuleKey) :
    ruleField (before ++ (item.opening ++ '\'' :: (item.value ++ '\'' :: ruleTail rule))) key =
      if item.key = key then item.value
      else if endsIn item.value key then (rule.head?.map RuleItem.lead).getD []
      else ruleField (ruleTail rule) key := by
  rw [ruleField, after_item hbefore hvalue]
  by_cases hkey : item.key = key
  · simp only [if_pos hkey, Quoted.upTo_quote hvalue]
  · by_cases hends : endsIn item.value key
    · simp only [if_neg hkey, if_pos hends, upTo_ruleTail]
    · simp only [if_neg hkey, if_neg hends, ruleField]

/-- The comma in front of an item that is not the first, and the blanks behind it. -/
theorem ruleTail_cons (item : RuleItem) (rule : List RuleItem) :
    ruleTail (item :: rule) = (',' :: List.replicate item.blanks ' ') ++
      (item.opening ++ '\'' :: (item.value ++ '\'' :: ruleTail rule)) := by
  simp [ruleTail, RuleItem.lead]

theorem ruleField_tail {rule : List RuleItem} (hvalues : ∀ item ∈ rule, '\'' ∉ item.value)
    (key : RuleKey) : ruleField (ruleTail rule) key = found rule key := by
  induction rule with
  | nil => rfl
  | cons item rule ih =>
      have hbefore : ∀ c ∈ ',' :: List.replicate item.blanks ' ', c = ',' ∨ c = ' ' := by
        intro c hc
        rcases List.mem_cons.1 hc with h | h
        · exact Or.inl h
        · exact Or.inr (List.eq_of_mem_replicate h)
      rw [ruleTail_cons, ruleField_item hbefore (hvalues item List.mem_cons_self),
        ih fun other hother => hvalues other (List.mem_cons_of_mem _ hother), found]

/-- **What a search finds** in the text of a rule. -/
theorem ruleField_text {rule : List RuleItem} (hvalues : ∀ item ∈ rule, '\'' ∉ item.value)
    (key : RuleKey) : ruleField (ruleText rule) key = found rule key := by
  cases rule with
  | nil => rfl
  | cons item rule =>
      have hsearch := ruleField_item (fun c hc => absurd hc List.not_mem_nil)
        (hvalues item List.mem_cons_self) rule key
      rw [List.nil_append] at hsearch
      rw [ruleText, hsearch,
        ruleField_tail fun other hother => hvalues other (List.mem_cons_of_mem _ hother), found]

/-- A search that comes to an item is not misled. -/
theorem misread_of_comesTo {rule : List RuleItem} {key : RuleKey} (h : comesTo rule key = true) :
    misread rule key = none := by
  induction rule with
  | nil => cases h
  | cons item rule ih =>
      rw [comesTo] at h
      rw [misread]
      by_cases hkey : item.key = key
      · rw [if_pos hkey]
      · by_cases hends : endsIn item.value key
        · rw [if_neg hkey, if_pos hends] at h
          cases h
        · rw [if_neg hkey, if_neg hends] at h ⊢
          exact ih h

/-- A search that comes to no item finds what misleads it, if anything does. -/
theorem found_of_not_comesTo {rule : List RuleItem} {key : RuleKey}
    (h : comesTo rule key = false) : found rule key = (misread rule key).getD [] := by
  induction rule with
  | nil => rfl
  | cons item rule ih =>
      rw [comesTo] at h
      rw [misread, found]
      by_cases hkey : item.key = key
      · rw [if_pos hkey] at h
        cases h
      · by_cases hends : endsIn item.value key
        · rw [if_neg hkey, if_pos hends, if_neg hkey, if_pos hends]
        · rw [if_neg hkey, if_neg hends] at h ⊢
          rw [if_neg hkey, if_neg hends]
          exact ih h

/-- A search that comes to the item of its key finds the value. -/
theorem found_item {rule : List RuleItem} (hkeys : (rule.map RuleItem.key).Nodup)
    {item : RuleItem} (hmem : item ∈ rule) (hcomes : comesTo rule item.key = true) :
    found rule item.key = item.value := by
  induction rule with
  | nil => exact absurd hmem List.not_mem_nil
  | cons first rule ih =>
      rw [List.map_cons, List.nodup_cons] at hkeys
      rw [comesTo] at hcomes
      rw [found]
      by_cases hkey : first.key = item.key
      · rcases List.mem_cons.1 hmem with heq | hrest
        · rw [if_pos hkey, heq]
        · exact absurd (hkey ▸ List.mem_map_of_mem hrest) hkeys.1
      · rw [if_neg hkey] at hcomes ⊢
        have hrest : item ∈ rule := by
          rcases List.mem_cons.1 hmem with heq | hrest
          · exact absurd (congrArg RuleItem.key heq.symm) hkey
          · exact hrest
        by_cases hends : endsIn first.value item.key
        · rw [if_pos hends] at hcomes
          exact absurd hcomes (by decide)
        · rw [if_neg hends] at hcomes ⊢
          exact ih hkeys.2 hrest hcomes

/-- A search that comes to an item comes to one of its key. -/
theorem exists_of_comesTo {rule : List RuleItem} {key : RuleKey} (h : comesTo rule key = true) :
    ∃ item ∈ rule, item.key = key := by
  induction rule with
  | nil => cases h
  | cons item rule ih =>
      rw [comesTo] at h
      by_cases hkey : item.key = key
      · exact ⟨item, List.mem_cons_self, hkey⟩
      · by_cases hends : endsIn item.value key
        · rw [if_neg hkey, if_pos hends] at h
          cases h
        · rw [if_neg hkey, if_neg hends] at h
          obtain ⟨other, hother, heq⟩ := ih h
          exact ⟨other, List.mem_cons_of_mem _ hother, heq⟩

/-! ### What the filter checks -/

/-- The keys whose values the filter compares. -/
def comparedKeys : List RuleKey := [.interface, .member, .path, .arg0]

/-- The filter compares this item: it has a value, and the search comes to it. -/
def Compared (rule : List RuleItem) (item : RuleItem) : Prop :=
  item.key ∈ comparedKeys ∧ item.value ≠ [] ∧ comesTo rule item.key = true

instance (rule : List RuleItem) (item : RuleItem) : Decidable (Compared rule item) :=
  inferInstanceAs (Decidable (_ ∧ _ ∧ _))

/-- A message has what the searches find instead of the items. -/
def HasMisread (rule : List RuleItem) (message : BusMessage) : Prop :=
  ∀ key ∈ comparedKeys, ∀ t, misread rule key = some t → fieldPasses message key t

/-- An item that is compared passes as the rule says. -/
theorem fieldPasses_iff (owner : List Char → Option (List Char)) (message : BusMessage)
    {key : RuleKey} (hkey : key ∈ comparedKeys) {value : List Char} (hvalue : value ≠ []) :
    fieldPasses message key value = true ↔ message.Has owner value key := by
  cases key with
  | type => exact absurd hkey (by decide)
  | sender => exact absurd hkey (by decide)
  | path => simp [fieldPasses, hvalue, BusMessage.Has]
  | interface => simp [fieldPasses, hvalue, BusMessage.Has]
  | member => simp [fieldPasses, hvalue, BusMessage.Has]
  | arg0 => simp [fieldPasses, hvalue, BusMessage.Has]

theorem fieldPasses_nil (message : BusMessage) (key : RuleKey) :
    fieldPasses message key [] = true := by
  simp [fieldPasses]

section Checks

variable {rule : List RuleItem} (hrule : RuleValid rule)
  (owner : List Char → Option (List Char)) (message : BusMessage)

include hrule

/-- What the filter asks for one key. -/
theorem foundPasses_iff {key : RuleKey} (hkey : key ∈ comparedKeys) :
    fieldPasses message key (found rule key) = true ↔
      (∀ item ∈ rule, item.key = key → Compared rule item → item.Satisfied owner message) ∧
        ∀ t, misread rule key = some t → fieldPasses message key t := by
  cases hcomes : comesTo rule key with
  | true =>
      obtain ⟨item, hmem, rfl⟩ := exists_of_comesTo hcomes
      have hfound := found_item hrule.keys hmem hcomes
      have hmisread := misread_of_comesTo hcomes
      have honly : ∀ other ∈ rule, other.key = item.key → other = item := by
        intro other hother heq
        exact List.inj_on_of_nodup_map hrule.keys hother hmem heq
      rw [hfound, hmisread]
      by_cases hvalue : item.value = []
      · rw [hvalue, fieldPasses_nil]
        refine ⟨fun _ => ⟨?_, fun t ht => by cases ht⟩, fun _ => rfl⟩
        intro other hother heq hcompared
        exact absurd (honly other hother heq ▸ hvalue) hcompared.2.1
      · rw [fieldPasses_iff owner message hkey hvalue]
        constructor
        · intro hhas
          refine ⟨?_, fun t ht => by cases ht⟩
          intro other hother heq _
          rw [honly other hother heq]
          exact hhas
        · intro hall
          exact hall.1 item hmem rfl ⟨hkey, hvalue, hcomes⟩
  | false =>
      rw [found_of_not_comesTo hcomes]
      have hnone : ∀ item ∈ rule, item.key = key → ¬Compared rule item := by
        rintro item _ rfl hcompared
        exact absurd hcompared.2.2 (by rw [hcomes]; decide)
      constructor
      · intro hpass
        refine ⟨fun item hmem heq hcompared => absurd hcompared (hnone item hmem heq), ?_⟩
        intro t ht
        rw [ht] at hpass
        exact hpass
      · intro hall
        cases hmisread : misread rule key with
        | none => exact fieldPasses_nil message key
        | some t => exact hall.2 t hmisread

/-- What the filter asks of a message: the items that it compares, and what it misreads. -/
theorem passesFilter_iff :
    (∀ key ∈ comparedKeys, fieldPasses message key (ruleField (ruleText rule) key) = true) ↔
      (∀ item ∈ rule, Compared rule item → item.Satisfied owner message) ∧
        HasMisread rule message := by
  constructor
  · intro hpass
    have hkeys : ∀ key ∈ comparedKeys, _ := fun key hkey =>
      (foundPasses_iff hrule owner message hkey).1
        (ruleField_text hrule.values key ▸ hpass key hkey)
    refine ⟨?_, fun key hkey => (hkeys key hkey).2⟩
    intro item hmem hcompared
    exact (hkeys item.key hcompared.1).1 item hmem rfl hcompared
  · intro hall key hkey
    rw [ruleField_text hrule.values]
    refine (foundPasses_iff hrule owner message hkey).2 ⟨?_, hall.2 key hkey⟩
    intro item hmem _ hcompared
    exact hall.1 item hmem hcompared

omit hrule in
/-- A message that the queue takes is enqueued if it is a signal and passes for every key. -/
theorem listenFilterSignal_queue {put : QueuePut} {queue : List BusMessage}
    (hput : put message queue = some (queue ++ [message])) (text : List Char) :
    (listenFilterSignal put text message queue).2 = queue ++ [message] ↔
      message.type = .signal ∧
        ∀ key ∈ comparedKeys, fieldPasses message key (ruleField text key) = true := by
  have hlonger : queue ≠ queue ++ [message] := by simp
  rw [listenFilterSignal]
  by_cases htype : message.type = .signal
  · simp only [htype, ne_eq, not_true_eq_false, if_false, true_and, hput]
    cases hinterface : fieldPasses message .interface (ruleField text .interface) <;>
      cases hmember : fieldPasses message .member (ruleField text .member) <;>
      cases hpath : fieldPasses message .path (ruleField text .path) <;>
      cases harg0 : fieldPasses message .arg0 (ruleField text .arg0) <;>
      simp [comparedKeys, *]
  · simp [htype]

end Checks

/-! ### The filter and its rule -/

/-- **The filter enforces its rule exactly when this holds**: the message is no signal, or fails an
item that is compared, or the items that are not compared hold of it as what the searches find
instead does. -/
theorem listenFilterSignal_enforces_iff {rule : List RuleItem} (hrule : RuleValid rule)
    (owner : List Char → Option (List Char)) {put : QueuePut} {message : BusMessage}
    {queue : List BusMessage} (hput : put message queue = some (queue ++ [message])) :
    ((listenFilterSignal put (ruleText rule) message queue).2 = queue ++ [message] ↔
        message.type = .signal ∧ ∀ item ∈ rule, item.Satisfied owner message) ↔
      (message.type = .signal →
        (∀ item ∈ rule, Compared rule item → item.Satisfied owner message) →
        ((∀ item ∈ rule, ¬Compared rule item → item.Satisfied owner message) ↔
          HasMisread rule message)) := by
  have hwhole : (∀ item ∈ rule, item.Satisfied owner message) ↔
      (∀ item ∈ rule, Compared rule item → item.Satisfied owner message) ∧
        ∀ item ∈ rule, ¬Compared rule item → item.Satisfied owner message := by
    constructor
    · intro hall
      exact ⟨fun item hmem _ => hall item hmem, fun item hmem _ => hall item hmem⟩
    · intro hall item hmem
      by_cases hcompared : Compared rule item
      · exact hall.1 item hmem hcompared
      · exact hall.2 item hmem hcompared
  rw [listenFilterSignal_queue message hput, passesFilter_iff hrule owner, hwhole]
  tauto

/-- The rule of `WorkerPower`. -/
def powerRule : List RuleItem :=
  [⟨0, .type, "signal".toList⟩, ⟨0, .sender, "org.freedesktop.login1".toList⟩,
    ⟨0, .path, "/org/freedesktop/login1".toList⟩,
    ⟨0, .interface, "org.freedesktop.login1.Manager".toList⟩,
    ⟨0, .member, "PrepareForSleep".toList⟩]

example : ruleText powerRule =
    "type='signal',sender='org.freedesktop.login1',path='/org/freedesktop/login1',".toList ++
      "interface='org.freedesktop.login1.Manager',member='PrepareForSleep'".toList := by
  decide +kernel

theorem powerRule_valid : RuleValid powerRule := ⟨by decide, by decide⟩

/-- The signal of the power rule, from a connection. -/
def sleepSignal (sender : List Char) : BusMessage where
  type := .signal
  sender := some sender
  path := some "/org/freedesktop/login1".toList
  interface := some "org.freedesktop.login1.Manager".toList
  member := some "PrepareForSleep".toList
  args := [.other]

/-- A bus where `:1.2` owns the name of the login manager, and a queue with room. -/
def loginOwner (name : List Char) : Option (List Char) :=
  if name = "org.freedesktop.login1".toList then some ":1.2".toList else none

def queueWithRoom : QueuePut := fun message queue => some (queue ++ [message])

/-- The signal of the login manager itself. -/
theorem listenFilterSignal_enforces_login :
    (listenFilterSignal queueWithRoom (ruleText powerRule) (sleepSignal ":1.2".toList) []).2 =
        [sleepSignal ":1.2".toList] ↔
      (sleepSignal ":1.2".toList).type = .signal ∧
        ∀ item ∈ powerRule, item.Satisfied loginOwner (sleepSignal ":1.2".toList) := by
  refine (listenFilterSignal_enforces_iff powerRule_valid loginOwner rfl).2 ?_
  have hright : ∀ key ∈ comparedKeys, misread powerRule key = none := by decide
  have hsatisfied : ∀ item ∈ powerRule,
      item.Satisfied loginOwner (sleepSignal ":1.2".toList) := by decide
  intro _ _
  constructor
  · intro _ key hkey t ht
    rw [hright key hkey] at ht
    cases ht
  · intro _ item hmem _
    exact hsatisfied item hmem

/-- Another connection sends the signal, and it is enqueued as well. -/
theorem listenFilterSignal_forged :
    ¬((listenFilterSignal queueWithRoom (ruleText powerRule) (sleepSignal ":1.66".toList) []).2 =
        [sleepSignal ":1.66".toList] ↔
      (sleepSignal ":1.66".toList).type = .signal ∧
        ∀ item ∈ powerRule, item.Satisfied loginOwner (sleepSignal ":1.66".toList)) := by
  intro h
  have henqueued : (listenFilterSignal queueWithRoom (ruleText powerRule)
      (sleepSignal ":1.66".toList) []).2 = [sleepSignal ":1.66".toList] := by decide
  have hsender := (h.1 henqueued).2 ⟨0, .sender, "org.freedesktop.login1".toList⟩ (by decide)
  exact absurd hsender.2 (by decide)

/-- The rule of a claim, for the connection that has claimed the device. -/
def claimRule (sender : List Char) : List RuleItem :=
  [⟨0, .type, "signal".toList⟩, ⟨1, .interface, "org.freedesktop.DBus".toList⟩,
    ⟨1, .member, "NameOwnerChanged".toList⟩, ⟨1, .arg0, sender⟩]

example : ruleText (claimRule ":1.66".toList) =
    "type='signal', interface='org.freedesktop.DBus', member='NameOwnerChanged', ".toList ++
      "arg0=':1.66'".toList := by
  decide +kernel

theorem claimRule_compared {sender : List Char} (hsender : sender ≠ []) :
    ∀ item ∈ claimRule sender,
      item = ⟨0, .type, "signal".toList⟩ ∨ Compared (claimRule sender) item := by
  have hinterface : comesTo (claimRule sender) .interface = true := rfl
  have hmember : comesTo (claimRule sender) .member = true := rfl
  have harg0 : comesTo (claimRule sender) .arg0 = true := rfl
  have hkey : RuleKey.arg0 ∈ comparedKeys := by decide
  intro item hmem
  simp only [claimRule, List.mem_cons, List.not_mem_nil, or_false] at hmem
  rcases hmem with rfl | rfl | rfl | rfl
  · exact Or.inl rfl
  · exact Or.inr ⟨by decide, by decide, hinterface⟩
  · exact Or.inr ⟨by decide, by decide, hmember⟩
  · exact Or.inr ⟨hkey, hsender, harg0⟩

/-- Only the last value of the rule is not fixed, and nothing stands behind it. -/
theorem claimRule_misread (sender : List Char) (key : RuleKey) :
    misread (claimRule sender) key = none := by
  have hlast : misread [⟨1, .arg0, sender⟩] key = none := by
    simp [misread]
  cases key <;> first | rfl | exact hlast

/-- The rule of a claim names no sender, and the filter enforces the whole of it. -/
theorem listenFilterSignal_claimRule {sender : List Char} (hne : sender ≠ [])
    (hquote : '\'' ∉ sender) (owner : List Char → Option (List Char)) {put : QueuePut}
    {message : BusMessage} {queue : List BusMessage}
    (hput : put message queue = some (queue ++ [message])) :
    (listenFilterSignal put (ruleText (claimRule sender)) message queue).2 =
        queue ++ [message] ↔
      message.type = .signal ∧ ∀ item ∈ claimRule sender, item.Satisfied owner message := by
  have hvalid : RuleValid (claimRule sender) := by
    refine ⟨by simp [claimRule], ?_⟩
    intro item hmem
    simp only [claimRule, List.mem_cons, List.not_mem_nil, or_false] at hmem
    rcases hmem with rfl | rfl | rfl | rfl
    · decide
    · decide
    · decide
    · exact hquote
  have hmisread : HasMisread (claimRule sender) message := by
    intro key _ t ht
    rw [claimRule_misread] at ht
    cases ht
  rw [listenFilterSignal_queue message hput, passesFilter_iff hvalid owner]
  constructor
  · intro ⟨hsignal, hcompared, _⟩
    refine ⟨hsignal, ?_⟩
    intro item hmem
    rcases claimRule_compared hne item hmem with rfl | hitem
    · exact congrArg BusMessageType.name hsignal
    · exact hcompared item hmem hitem
  · intro ⟨hsignal, hall⟩
    exact ⟨hsignal, fun item hmem _ => hall item hmem, hmisread⟩

/-! ### The listener of a claim -/

/-- The characters of a name. -/
def nameText (name : Name) : List Char := name.map fun b => Char.ofNat b.toNat

theorem toNat_byteChar : ∀ n < 256, (Char.ofNat n).toNat = n := by
  decide +kernel

/-- Different bytes are different characters. -/
theorem nameText_injective : Function.Injective nameText := by
  refine List.map_injective_iff.2 ?_
  intro a b h
  have hsame := congrArg Char.toNat h
  dsimp only at hsame
  rw [toNat_byteChar _ a.toNat_lt, toNat_byteChar _ b.toNat_lt] at hsame
  exact UInt8.toNat_inj.1 hsame

/-- The signal of the bus about the owner of a name. -/
def ownerSignal (args : List Name) : BusMessage where
  type := .signal
  sender := some "org.freedesktop.DBus".toList
  path := some "/org/freedesktop/DBus".toList
  interface := some "org.freedesktop.DBus".toList
  member := some "NameOwnerChanged".toList
  args := args.map fun name => .text (nameText name)

/-- The signal satisfies the rule of a claim if its first argument is the name in the rule. -/
theorem ownerSignal_satisfied (owner : List Char → Option (List Char)) (args : List Name)
    (sender : Name) :
    (∀ item ∈ claimRule (nameText sender), item.Satisfied owner (ownerSignal args)) ↔
      args.head? = some sender := by
  have hhead : (args.map fun name => BusArgument.text (nameText name)).head? =
      some (.text (nameText sender)) ↔ args.head? = some sender := by
    rw [List.head?_map]
    cases args.head? with
    | none => simp
    | some name => simp [nameText_injective.eq_iff]
  rw [← hhead]
  constructor
  · intro h
    exact h ⟨1, .arg0, nameText sender⟩ (by simp [claimRule])
  · intro h item hmem
    simp only [claimRule, List.mem_cons, List.not_mem_nil, or_false] at hmem
    rcases hmem with rfl | rfl | rfl | rfl
    · exact rfl
    · exact rfl
    · exact rfl
    · exact h

/-- **The listener of a claim forwards what its filter lets through.** -/
theorem listenFilterSignal_forwards {listen : Listen} {args : List Name}
    (hplace : listen.pc = .installed ∨ listen.pc = .removing) (hne : listen.arg0 ≠ [])
    (hquote : '\'' ∉ nameText listen.arg0) {put : QueuePut} {queue : List BusMessage}
    (hput : put (ownerSignal args) queue = some (queue ++ [ownerSignal args])) :
    (listenFilterSignal put (ruleText (claimRule (nameText listen.arg0)))
        (ownerSignal args) queue).2 = queue ++ [ownerSignal args] ↔
      listen.forwards args = true := by
  have htext : nameText listen.arg0 ≠ [] := fun h => hne (List.map_eq_nil_iff.1 h)
  have hinstalled : (decide (listen.pc = .installed) || decide (listen.pc = .removing)) = true := by
    simpa using hplace
  rw [listenFilterSignal_claimRule htext hquote (fun _ => none) hput, ownerSignal_satisfied,
    Listen.forwards, hinstalled, Bool.true_and, decide_eq_true_iff]
  exact and_iff_right rfl

end Fpc
