import Highlighting.Proofs.Grammar.Places

/-! # The rules mirror the grammar

A highlighter has one rule for every definition of its language, under the number of its place in the
order of all places. The numbers that a rule lists stand for the entries of its definition one by one: a
definition for its own number, a name for the container that has it, and a reference to the enclosing
container for the rule that lists it. -/
set_option autoImplicit false
namespace Highlighting

theorem forall₂_getElem? {α β : Type} {related : α → β → Prop} {left : List α} {right : List β}
    (all : List.Forall₂ related left right) :
    ∀ {place : Nat} {first : α}, left[place]? = some first →
      ∃ second, right[place]? = some second ∧ related first second := by
  induction all with
  | nil => exact fun absurdity => nomatch absurdity
  | cons here behind ih =>
      intro place first found
      cases place with
      | zero =>
          cases found
          exact ⟨_, rfl, here⟩
      | succ place => exact ih found

namespace Entry

/-! ## Where the definitions of a container are -/

mutual

theorem ways_block {definition : Entry} : (entry : Entry) → {number : Nat} → {way : List Nat} →
    entry.ways[number]? = some way → entry.inside? way = some definition →
      (places definition.rules).map (way ++ ·) <+: entry.ways.drop (number + 1)
  | .named name, _, _, absurdity, _ => nomatch absurdity
  | .enclosing, _, _, absurdity, _ => nomatch absurdity
  | .single rule, 0, _, listed, found => by
      cases listed
      cases found
      exact List.nil_prefix
  | .parts rule, 0, _, listed, found => by
      cases listed
      cases found
      exact List.nil_prefix
  | .container rule rules, 0, _, listed, found => by
      cases listed
      cases found
      have whole : (places rules).map ([] ++ ·) = places rules := List.map_id _
      rw [Entry.rules, whole]
      exact List.prefix_rfl
  | .single rule, _ + 1, _, absurdity, _ => nomatch absurdity
  | .parts rule, _ + 1, _, absurdity, _ => nomatch absurdity
  | .container rule rules, number + 1, way, listed, found => by
      rw [inside?_of_rules (places_ne_nil way (List.mem_of_getElem? listed))] at found
      exact places_block rules listed found

/-- The definitions in a container follow right behind it. -/
theorem places_block {definition : Entry} : (entries : List Entry) → {number : Nat} →
    {place : List Nat} → (places entries)[number]? = some place →
      at? entries place = some definition →
        (places definition.rules).map (place ++ ·) <+: (places entries).drop (number + 1)
  | [], _, _, absurdity, _ => nomatch absurdity
  | entry :: rest, number, place, listed, found => by
      rw [places] at listed ⊢
      rw [List.drop_append]
      by_cases here : number < (entry.ways.map (0 :: ·)).length
      · rw [List.getElem?_append_left here, List.getElem?_map] at listed
        obtain ⟨way, there, rfl⟩ := Option.map_eq_some_iff.mp listed
        have block := (ways_block entry there found).map (0 :: ·)
        rw [List.map_map, List.map_drop] at block
        exact block.trans (List.prefix_append _ _)
      · have behind := Nat.not_lt.mp here
        rw [List.getElem?_append_right behind, List.getElem?_map] at listed
        obtain ⟨other, there, rfl⟩ := Option.map_eq_some_iff.mp listed
        rw [at?_cons_shift] at found
        obtain ⟨step, way, rfl⟩ :=
          List.exists_cons_of_ne_nil (places_ne_nil other (List.mem_of_getElem? there))
        have block := (places_block rest there found).map shift
        rw [List.map_map, List.map_drop, ← Nat.sub_add_comm behind] at block
        rw [List.drop_eq_nil_of_le (Nat.le_succ_of_le behind), List.nil_append]
        exact block

end

theorem length_ways (entry : Entry) : entry.ways.length = entry.definitions.length := by
  have same := congrArg List.length (ways_map_inside? entry)
  simpa using same

/-- The slot of a definition holds the number of its place, counted from the first in the list. -/
theorem slots_of_definition (owner : Option Nat) {entries : List Entry} :
    ∀ (next : Nat) {step : Nat} {entry : Entry}, entries[step]? = some entry → entry.IsDefinition →
      ∃ offset, (places entries)[offset]? = some [step] ∧
        (slots owner next entries)[step]? = some (.rule (next + offset)) := by
  induction entries with
  | nil => exact fun _ _ _ absurdity => nomatch absurdity
  | cons first rest ih =>
      intro next step entry listed defines
      cases step with
      | zero =>
          cases listed
          refine ⟨0, ?_, ?_⟩
          · cases first with
            | named name => exact defines.elim
            | enclosing => exact defines.elim
            | single rule => rfl
            | parts rule => rfl
            | container rule rules => rfl
          · cases first with
            | named name => exact defines.elim
            | enclosing => exact defines.elim
            | single rule => rfl
            | parts rule => rfl
            | container rule rules => rfl
      | succ step =>
          obtain ⟨offset, there, slotted⟩ := ih (next + first.definitions.length) listed defines
          refine ⟨first.definitions.length + offset, ?_, ?_⟩
          · rw [places, List.getElem?_append_right (by rw [List.length_map, length_ways]; omega),
              List.length_map, length_ways, Nat.add_sub_cancel_left, List.getElem?_map, there]
            rfl
          · rw [slots, List.getElem?_cons_succ, slotted, Nat.add_assoc]

theorem length_slots (owner : Option Nat) (entries : List Entry) :
    ∀ next, (slots owner next entries).length = entries.length := by
  induction entries with
  | nil => intro next; rfl
  | cons entry rest ih => intro next; rw [slots, List.length_cons, List.length_cons, ih]

theorem slots_of_reference (owner : Option Nat) {entries : List Entry} :
    ∀ {next step : Nat} {entry : Entry}, entries[step]? = some entry → ¬ entry.IsDefinition →
      (slots owner next entries)[step]? = some (entry.slot owner 0) := by
  induction entries with
  | nil => exact fun absurdity => nomatch absurdity
  | cons first rest ih =>
      intro next step entry listed refers
      cases step with
      | zero =>
          cases listed
          cases first with
          | named name => rfl
          | enclosing => rfl
          | single rule => exact absurd trivial refers
          | parts rule => exact absurd trivial refers
          | container rule rules => exact absurd trivial refers
      | succ step => exact ih listed refers

end Entry

namespace Language

/-- The places of the definitions, in the order of their numbers. -/
def places (language : Language) : List (List Nat) :=
  Entry.places language.rules

variable {language : Language}

theorem place_of_definition {number : Nat} {definition : Entry}
    (numbered : (Entry.definitionsAll language.rules)[number]? = some definition) :
    ∃ place, language.places[number]? = some place ∧ Entry.at? language.rules place = some definition := by
  have same := congrArg (·[number]?) (Entry.places_map_at? language.rules)
  simp only [List.getElem?_map, numbered, Option.map_some] at same
  exact Option.map_eq_some_iff.mp same

theorem definition_of_place {number : Nat} {place : List Nat}
    (listed : language.places[number]? = some place) :
    ∃ definition, (Entry.definitionsAll language.rules)[number]? = some definition ∧
      Entry.at? language.rules place = some definition := by
  have same := congrArg (·[number]?) (Entry.places_map_at? language.rules)
  rw [places] at listed
  simp only [List.getElem?_map, listed, Option.map_some] at same
  obtain ⟨definition, numbered, found⟩ := Option.map_eq_some_iff.mp same.symm
  exact ⟨definition, numbered, found.symm⟩

/-- Names that are given once belong to one definition each. -/
theorem number_unique (once : language.names.Nodup) {first second : Nat} {left right : Entry}
    {name : String} (here : (Entry.definitionsAll language.rules)[first]? = some left)
    (there : (Entry.definitionsAll language.rules)[second]? = some right)
    (leftNamed : left.name? = some name) (rightNamed : right.name? = some name) : first = second := by
  have apart := List.pairwise_filterMap.mp once
  rw [List.pairwise_iff_getElem] at apart
  obtain ⟨firstInside, rfl⟩ := List.getElem?_eq_some_iff.mp here
  obtain ⟨secondInside, rfl⟩ := List.getElem?_eq_some_iff.mp there
  rcases Nat.lt_trichotomy first second with less | same | more
  · exact absurd rfl (apart first second firstInside secondInside less name leftNamed name rightNamed)
  · exact same
  · exact absurd rfl (apart second first secondInside firstInside more name rightNamed name leftNamed)

end Language

namespace Highlighter
variable {language : Language} {highlighter : Highlighter}

def IsContainer (highlighter : Highlighter) (number : Nat) : Prop :=
  ∃ rule, highlighter.rules[number]? = some (.container rule)

/-- The number stands for the entry at the place, in the list of the container with the number `owner`.
A definition has the number of its place, a name that of the only container with this name, and a
reference to the enclosing container that of the owner. -/
def StandsFor (highlighter : Highlighter) (language : Language) (place : List Nat) (owner : Option Nat)
    (number : Nat) : Entry → Prop
  | .single _ | .parts _ | .container _ _ => language.places[number]? = some place
  | .named name => highlighter.IsContainer number ∧
      ∃ there rule rules, language.places[number]? = some there ∧
        Entry.at? language.rules there = some (.container rule rules) ∧ rule.name = some name ∧
          ∀ other rule rules, Entry.at? language.rules other = some (.container rule rules) →
            rule.name = some name → other = there
  | .enclosing => highlighter.IsContainer number ∧ owner = some number

/-- The numbers stand for the entries of the list at the place, one by one. -/
structure Lists (highlighter : Highlighter) (language : Language) (place : List Nat) (owner : Option Nat)
    (entries : List Entry) (numbers : List Nat) : Prop where
  length : numbers.length = entries.length
  below : ∀ number ∈ numbers, number < highlighter.rules.size
  stands : ∀ (step number : Nat) (entry : Entry), entries[step]? = some entry → numbers[step]? = some number →
    highlighter.StandsFor language (place ++ [step]) owner number entry

section Built
variable {reader : Pattern.Reader} (built : BuiltFrom reader language highlighter)
include built

theorem BuiltFrom.size : highlighter.rules.size = language.places.length := by
  have same := congrArg List.length (Entry.places_map_at? language.rules)
  rw [List.length_map, List.length_map] at same
  have length := built.rules.length_eq
  rw [Language.numbered, List.length_zipIdx] at length
  exact length.symm.trans same.symm

theorem BuiltFrom.becomes {number : Nat} {definition : Entry}
    (numbered : (Entry.definitionsAll language.rules)[number]? = some definition) :
    ∃ rule, highlighter.rules[number]? = some rule ∧
      definition.Becomes reader (Entry.nameTable language.numbered) number rule := by
  have counted : language.numbered[number]? = some (definition, number) := by
    rw [Language.numbered, List.getElem?_zipIdx, numbered, Option.map_some, Nat.zero_add]
  obtain ⟨rule, made, becomes⟩ := forall₂_getElem? built.rules counted
  rw [Array.getElem?_toList] at made
  exact ⟨rule, made, becomes⟩

theorem BuiltFrom.container {number : Nat} {given : Container} {rules : List Entry}
    (numbered : (Entry.definitionsAll language.rules)[number]? = some (.container given rules)) :
    highlighter.IsContainer number := by
  obtain ⟨rule, made, becomes⟩ := built.becomes numbered
  have describes := becomes.describes
  cases rule with
  | single rule => exact describes.elim
  | parts rule => exact describes.elim
  | container rule => exact ⟨rule, made⟩

/-- A name that can be looked up has the number of the only container with this name. -/
theorem BuiltFrom.named (once : language.names.Nodup) {name : String} {number : Nat} (place : List Nat)
    (owner : Option Nat) (found : (Entry.nameTable language.numbered).lookup name = some number) :
    highlighter.StandsFor language place owner number (.named name) := by
  obtain ⟨before, after, whole, _⟩ := List.lookup_eq_some_iff.mp found
  have member : (name, number) ∈ Entry.nameTable language.numbered := by
    rw [whole]
    exact List.mem_append_cons_self
  rw [Entry.nameTable, List.mem_reverse, List.mem_filterMap] at member
  obtain ⟨⟨definition, counted⟩, listed, named⟩ := member
  obtain ⟨given, called, same⟩ := Option.map_eq_some_iff.mp named
  cases same
  have numbered := List.mem_zipIdx_iff_getElem?.mp listed
  obtain ⟨there, stands, leads⟩ := Language.place_of_definition numbered
  cases definition with
  | single rule => exact nomatch called
  | parts rule => exact nomatch called
  | named other => exact nomatch called
  | enclosing => exact nomatch called
  | container rule rules =>
      refine ⟨built.container numbered, there, rule, rules, stands, leads, called, ?_⟩
      intro other otherRule otherRules elsewhere alsoCalled
      have defines : (Entry.container otherRule otherRules).IsDefinition := trivial
      obtain ⟨position, stood⟩ :=
        List.mem_iff_getElem?.mp (Entry.mem_places_iff.mpr ⟨_, elsewhere, defines⟩)
      obtain ⟨definition, otherNumbered, sameEntry⟩ := Language.definition_of_place stood
      obtain rfl : Entry.container otherRule otherRules = definition :=
        Option.some.inj (elsewhere.symm.trans sameEntry)
      obtain rfl := Language.number_unique once numbered otherNumbered called alsoCalled
      exact Option.some.inj (stood.symm.trans stands)

theorem BuiltFrom.below_of_standsFor {place : List Nat} {owner : Option Nat} {number : Nat}
    {entry : Entry} (stands : highlighter.StandsFor language place owner number entry) :
    number < highlighter.rules.size := by
  have placed : ∀ {place : List Nat}, language.places[number]? = some place →
      number < highlighter.rules.size := by
    intro place listed
    obtain ⟨inside, _⟩ := List.getElem?_eq_some_iff.mp listed
    exact built.size ▸ inside
  have contained : highlighter.IsContainer number → number < highlighter.rules.size := by
    rintro ⟨rule, made⟩
    exact (Array.getElem?_eq_some_iff.mp made).1
  cases entry with
  | single rule => exact placed stands
  | parts rule => exact placed stands
  | container rule rules => exact placed stands
  | named name => exact contained stands.1
  | enclosing => exact contained stands.1

/-- What slots resolve to stands for their entries. -/
theorem BuiltFrom.lists (once : language.names.Nodup) {place : List Nat} {owner : Option Nat} {next : Nat}
    {entries : List Entry} {numbers : List Nat}
    (block : (Entry.places entries).map (place ++ ·) <+: language.places.drop next)
    (owned : Entry.enclosing ∈ entries → ∃ number, owner = some number ∧ highlighter.IsContainer number)
    (resolved : List.Forall₂ (Slot.Resolves (Entry.nameTable language.numbered))
      (Entry.slots owner next entries) numbers) :
    highlighter.Lists language place owner entries numbers := by
  have length : numbers.length = entries.length := by
    rw [← resolved.length_eq, Entry.length_slots]
  have stands : ∀ (step number : Nat) (entry : Entry), entries[step]? = some entry →
      numbers[step]? = some number →
        highlighter.StandsFor language (place ++ [step]) owner number entry := by
    intro step number entry listed counted
    have slotted : ∀ {slot : Slot}, (Entry.slots owner next entries)[step]? = some slot →
        slot.Resolves (Entry.nameTable language.numbered) number := by
      intro slot here
      obtain ⟨other, same, resolves⟩ := forall₂_getElem? resolved here
      exact Option.some.inj (counted.symm.trans same) ▸ resolves
    have defined : entry.IsDefinition → language.places[number]? = some (place ++ [step]) := by
      intro defines
      obtain ⟨offset, there, here⟩ := Entry.slots_of_definition owner next listed defines
      obtain rfl : number = next + offset := slotted here
      have first : ((Entry.places entries).map (place ++ ·))[offset]? = some (place ++ [step]) := by
        rw [List.getElem?_map, there]
        rfl
      obtain ⟨inside, same⟩ := List.getElem?_eq_some_iff.mp first
      have here := List.prefix_iff_getElem?.mp block offset inside
      rwa [List.getElem?_drop, same] at here
    cases entry with
    | single rule => exact defined trivial
    | parts rule => exact defined trivial
    | container rule rules => exact defined trivial
    | named name =>
        exact built.named once _ owner (slotted (Entry.slots_of_reference owner listed id))
    | enclosing =>
        obtain ⟨index, rfl, container⟩ := owned (List.mem_of_getElem? listed)
        obtain rfl : number = index := slotted (Entry.slots_of_reference _ listed id)
        exact ⟨container, rfl⟩
  refine ⟨length, ?_, stands⟩
  intro number member
  obtain ⟨step, counted⟩ := List.mem_iff_getElem?.mp member
  obtain ⟨inside, _⟩ := List.getElem?_eq_some_iff.mp counted
  have listed := List.getElem?_eq_getElem (length ▸ inside : step < entries.length)
  exact built.below_of_standsFor (stands step number _ listed counted)

end Built

/-- The rules of a highlighter mirror its language. There is one for each definition, numbered in the
order of the places, and every number that stands in a list of rules stands for the entry there. -/
theorem ofLanguage_mirrors {reader : Pattern.Reader} (language : Language) (highlighter : Highlighter)
    (compiles : ofLanguage language reader = .ok highlighter) :
    (language.places.Pairwise (· < ·) ∧ ∀ place, place ∈ language.places ↔
      ∃ definition, Entry.at? language.rules place = some definition ∧ definition.IsDefinition) ∧
    highlighter.rules.size = language.places.length ∧
    highlighter.Lists language [] none language.rules highlighter.root ∧
    ∀ number place, language.places[number]? = some place →
      ∃ definition rule, Entry.at? language.rules place = some definition ∧
        highlighter.rules[number]? = some rule ∧ definition.Describes reader rule ∧
          highlighter.Lists language place (some number) definition.rules rule.numbers := by
  have built := (ofLanguage_stops reader language).good_of_ok compiles
  have consistent := (ofLanguage_stops reader language).eq_ok_iff.mp ⟨highlighter, compiles⟩
  rw [language.violations_eq_nil_iff] at consistent
  refine ⟨⟨Entry.places_ascending _, fun place => Entry.mem_places_iff⟩, built.size, ?_, ?_⟩
  · refine built.lists consistent.names ?_ ?_ built.root
    · rw [List.drop_zero]
      exact (List.map_id _).symm ▸ List.prefix_rfl
    · exact fun absurdity => absurd absurdity consistent.outside
  · intro number place listed
    obtain ⟨definition, numbered, found⟩ := Language.definition_of_place listed
    obtain ⟨rule, made, becomes⟩ := built.becomes numbered
    refine ⟨definition, rule, found, made, becomes.describes, ?_⟩
    refine built.lists consistent.names (Entry.places_block _ listed found) ?_ becomes.resolves
    intro inside
    cases definition with
    | container given rules => exact ⟨number, rfl, built.container numbered⟩
    | single rule => exact nomatch inside
    | parts rule => exact nomatch inside
    | named name => exact nomatch inside
    | enclosing => exact nomatch inside

end Highlighter

namespace Brackets

/-- Two kinds of brackets that hold each other and themselves, one of them before it is defined. -/
def language : Language where
  name := "brackets"
  rules :=
    [.named "round",
      .container { name := some "square", opener := "\\[", closer := "\\]" }
        [.single { opener := "[0-9]+" }, .named "round", .enclosing],
      .container { name := some "round", opener := "\\(", closer := "\\)" } [.named "square", .enclosing]]

theorem brackets_mirrored :
    ∃ highlighter, Highlighter.ofLanguage language = .ok highlighter ∧ highlighter.root = [2, 0, 2] ∧
      highlighter.rules.toList.map Rule.numbers = [[1, 2, 0], [], [0, 2]] ∧ highlighter.rules.size = 3 ∧
        highlighter.Lists language [] none language.rules highlighter.root := by
  have compiles : (Highlighter.ofLanguage language).toOption.any (fun highlighter =>
      highlighter.root == [2, 0, 2] &&
        highlighter.rules.toList.map Rule.numbers == [[1, 2, 0], [], [0, 2]]) = true := by
    decide +kernel
  cases compiled : Highlighter.ofLanguage language with
  | error error =>
      rw [compiled] at compiles
      exact nomatch compiles
  | ok highlighter =>
      rw [compiled] at compiles
      obtain ⟨root, numbers⟩ := Bool.and_eq_true_iff.mp compiles
      obtain ⟨_, size, lists, _⟩ := Highlighter.ofLanguage_mirrors language highlighter compiled
      exact ⟨highlighter, rfl, eq_of_beq root, eq_of_beq numbers, size, lists⟩

end Brackets

end Highlighting
