import Highlighting.Proofs.Scan.Illegal

/-! # Numbers of rules

The numbers that the rule lists of a language come to are numbers of its rules. Laying the language out
gives a container its own number before the rules in it, and a name can only be looked up where it has
been given, so no number is ever as large as there are definitions in all. -/
set_option autoImplicit false
namespace Highlighting

theorem ok_toOption_get {ε α : Type} :
    ∀ {made : Except ε α} (isOk : made.toOption.isSome = true), made = .ok (made.toOption.get isOk)
  | .ok _, _ => rfl

variable {limit : Nat}

def Slot.Below (limit : Nat) : Slot → Prop
  | rule index => index < limit
  | named _ => True

def Slot.AllBelow (limit : Nat) (slots : List Slot) : Prop :=
  ∀ slot ∈ slots, slot.Below limit

def Definition.Below (limit : Nat) : Definition → Prop
  | single _ | parts _ => True
  | container _ slots => Slot.AllBelow limit slots

def Definition.AllBelow (limit : Nat) (definitions : List Definition) : Prop :=
  ∀ definition ∈ definitions, definition.Below limit

def RuleNames.Below (limit : Nat) (names : RuleNames) : Prop :=
  ∀ entry ∈ names, entry.2 < limit

/-- A rule lists numbers below the limit only. -/
def Rule.Below (limit : Nat) : Rule → Prop
  | single _ | parts _ => True
  | container rule => ∀ index ∈ rule.rules, index < limit

theorem RuleNames.Below.add? {names extended : RuleNames} {name : Option String} {index : Nat}
    (below : names.Below limit) (inside : index < limit)
    (added : names.add? name index = .ok extended) : extended.Below limit := by
  unfold RuleNames.add? at added
  split at added
  · cases added
    exact below
  · split at added
    · exact nomatch added
    · cases added
      intro entry member
      rcases List.mem_cons.mp member with rfl | earlier
      · exact inside
      · exact below entry earlier

/-! ## Laying out -/

/-- What has been laid out from a number on keeps below every limit that it fits below. -/
structure LaidOut (limit : Nat) (slots : List Slot) (definitions : List Definition)
    (names : RuleNames) : Prop where
  slots : Slot.AllBelow limit slots
  definitions : Definition.AllBelow limit definitions
  names : names.Below limit

mutual

theorem Entry.layOut_below {owner : Option Nat} (owned : ∀ index ∈ owner, index < limit) :
    ∀ (entry : Entry) (next : Nat) {names all : RuleNames} {slot : Slot}
      {definitions : List Definition}, names.Below limit →
        entry.layOut owner next names = .ok (slot, definitions, all) →
          next + definitions.length ≤ limit → LaidOut limit [slot] definitions all
  | .single rule, next => by
      intro known laid fits
      cases laid
      refine ⟨List.forall_mem_singleton.mpr ?_, List.forall_mem_singleton.mpr trivial, known⟩
      exact Nat.lt_of_succ_le fits
  | .parts rule, next => by
      intro known laid fits
      cases laid
      refine ⟨List.forall_mem_singleton.mpr ?_, List.forall_mem_singleton.mpr trivial, known⟩
      exact Nat.lt_of_succ_le fits
  | .container rule entries, next => by
      intro known laid fits
      rw [layOut] at laid
      obtain ⟨extended, added, laid⟩ := ok_of_bind laid
      obtain ⟨⟨slots, inner, last⟩, inside, laid⟩ := ok_of_bind laid
      cases laid
      rw [List.length_cons] at fits
      have here : next < limit := by omega
      have enclosing : ∀ index ∈ some next, index < limit := by
        intro index member
        cases member
        exact here
      have below := Entry.layOutList_below enclosing entries (next + 1) (known.add? here added) inside (by omega)
      refine ⟨List.forall_mem_singleton.mpr here, ?_, below.names⟩
      exact List.forall_mem_cons.mpr ⟨below.slots, below.definitions⟩
  | .named name, _ => by
      intro known laid fits
      cases laid
      exact ⟨List.forall_mem_singleton.mpr trivial, List.forall_mem_nil _, known⟩
  | .enclosing, _ => by
      intro known laid fits
      cases owner with
      | none => exact nomatch laid
      | some index =>
          cases laid
          refine ⟨List.forall_mem_singleton.mpr ?_, List.forall_mem_nil _, known⟩
          exact owned index rfl

theorem Entry.layOutList_below {owner : Option Nat} (owned : ∀ index ∈ owner, index < limit) :
    ∀ (entries : List Entry) (next : Nat) {names all : RuleNames} {slots : List Slot}
      {definitions : List Definition}, names.Below limit →
        Entry.layOutList owner next names entries = .ok (slots, definitions, all) →
          next + definitions.length ≤ limit → LaidOut limit slots definitions all
  | [], _ => by
      intro known laid fits
      cases laid
      exact ⟨List.forall_mem_nil _, List.forall_mem_nil _, known⟩
  | entry :: rest, next => by
      intro known laid fits
      rw [layOutList] at laid
      obtain ⟨⟨slot, first, extended⟩, here, laid⟩ := ok_of_bind laid
      obtain ⟨⟨others, more, last⟩, behind, laid⟩ := ok_of_bind laid
      cases laid
      rw [List.length_append] at fits
      have head := Entry.layOut_below owned entry next known here (by omega)
      have tail := Entry.layOutList_below owned rest _ head.names behind (by omega)
      refine ⟨?_, List.forall_mem_append.mpr ⟨head.definitions, tail.definitions⟩, tail.names⟩
      exact List.forall_mem_cons.mpr ⟨head.slots slot List.mem_cons_self, tail.slots⟩

end

/-! ## From definitions to rules -/

theorem Slot.resolve_below {names : RuleNames} {slot : Slot} {index : Nat} (known : names.Below limit)
    (below : slot.Below limit) (resolved : slot.resolve names = .ok index) : index < limit := by
  cases slot with
  | rule number =>
      cases resolved
      exact below
  | named name =>
      simp only [resolve] at resolved
      split at resolved
      · next found =>
          cases resolved
          obtain ⟨before, after, rfl, _⟩ := List.lookup_eq_some_iff.mp found
          exact known (name, index) List.mem_append_cons_self
      · exact nomatch resolved

theorem Slot.resolveAll_below {names : RuleNames} (known : names.Below limit) {slots : List Slot} :
    ∀ {indices : List Nat}, Slot.AllBelow limit slots → Slot.resolveAll names slots = .ok indices →
      ∀ index ∈ indices, index < limit := by
  induction slots with
  | nil =>
      intro indices _ resolved
      cases resolved
      exact List.forall_mem_nil _
  | cons slot rest ih =>
      intro indices below resolved
      obtain ⟨head, tail⟩ := List.forall_mem_cons.mp below
      rw [resolveAll] at resolved
      obtain ⟨first, here, resolved⟩ := ok_of_bind resolved
      obtain ⟨others, behind, resolved⟩ := ok_of_bind resolved
      cases resolved
      exact List.forall_mem_cons.mpr ⟨slot.resolve_below known head here, ih tail behind⟩

theorem Definition.toRule_below {names : RuleNames} (known : names.Below limit) {number : Nat}
    {definition : Definition} {rule : Rule} {reader : Pattern.Reader} (below : definition.Below limit)
    (made : definition.toRule names number reader = .ok rule) : rule.Below limit := by
  cases definition with
  | single rule =>
      obtain ⟨opener, _, made⟩ := ok_of_bind made
      obtain ⟨followedBy, _, made⟩ := ok_of_bind made
      obtain ⟨words, _, made⟩ := ok_of_bind made
      cases made
      trivial
  | parts rule =>
      obtain ⟨pattern, _, made⟩ := ok_of_bind made
      cases made
      trivial
  | container rule slots =>
      obtain ⟨opener, _, made⟩ := ok_of_bind made
      obtain ⟨closer, _, made⟩ := ok_of_bind made
      obtain ⟨rules, resolved, made⟩ := ok_of_bind made
      obtain ⟨illegal, _, made⟩ := ok_of_bind made
      obtain ⟨words, _, made⟩ := ok_of_bind made
      cases made
      exact Slot.resolveAll_below known below resolved

theorem Definition.toRules_below {names : RuleNames} (known : names.Below limit)
    {definitions : List Definition} {reader : Pattern.Reader} :
    ∀ {number : Nat} {rules : List Rule}, Definition.AllBelow limit definitions →
      Definition.toRules names number definitions reader = .ok rules →
        rules.length = definitions.length ∧ ∀ rule ∈ rules, rule.Below limit := by
  induction definitions with
  | nil =>
      intro number rules _ made
      cases made
      exact ⟨rfl, List.forall_mem_nil _⟩
  | cons definition rest ih =>
      intro number rules below made
      obtain ⟨head, tail⟩ := List.forall_mem_cons.mp below
      rw [toRules] at made
      obtain ⟨rule, here, made⟩ := ok_of_bind made
      obtain ⟨others, behind, made⟩ := ok_of_bind made
      cases made
      obtain ⟨length, all⟩ := ih tail behind
      refine ⟨?_, List.forall_mem_cons.mpr ⟨toRule_below known head here, all⟩⟩
      rw [List.length_cons, List.length_cons, length]

namespace Highlighter

/-- Every number in a rule list is the number of a rule. -/
structure Listed (highlighter : Highlighter) : Prop where
  root : ∀ index ∈ highlighter.root, index < highlighter.rules.size
  rules : ∀ rule ∈ highlighter.rules, rule.Below highlighter.rules.size

theorem listed_of_ofLanguage {language : Language} {highlighter : Highlighter} {reader : Pattern.Reader}
    (compiles : ofLanguage language reader = .ok highlighter) : highlighter.Listed := by
  unfold ofLanguage at compiles
  obtain ⟨⟨slots, definitions, names⟩, laid, compiles⟩ := ok_of_bind compiles
  obtain ⟨root, resolved, compiles⟩ := ok_of_bind compiles
  obtain ⟨rules, made, compiles⟩ := ok_of_bind compiles
  obtain ⟨words, _, compiles⟩ := ok_of_bind compiles
  obtain ⟨illegal, _, compiles⟩ := ok_of_bind compiles
  cases compiles
  have unowned : ∀ index ∈ (none : Option Nat), index < definitions.length :=
    fun _ absurdity => nomatch absurdity
  have unnamed : RuleNames.Below definitions.length [] := List.forall_mem_nil _
  have fits : 0 + definitions.length ≤ definitions.length := by omega
  have below := Entry.layOutList_below unowned language.rules 0 unnamed laid fits
  obtain ⟨length, all⟩ := Definition.toRules_below below.names below.definitions made
  have size : rules.toArray.size = definitions.length := by rw [List.size_toArray, length]
  refine ⟨?_, ?_⟩
  · rw [size]
    exact Slot.resolveAll_below below.names below.slots resolved
  · rw [size]
    intro rule member
    exact all rule (List.mem_toArray.mp member)

theorem Listed.ignoring {highlighter : Highlighter} (listed : highlighter.Listed) (ignore : Bool) :
    (highlighter.ignoring ignore).Listed :=
  ⟨listed.root, listed.rules⟩

end Highlighter

end Highlighting
