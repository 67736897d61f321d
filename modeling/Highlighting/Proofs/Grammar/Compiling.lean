import Mathlib.Data.List.Forall2
import Highlighting.Highlighter
import Highlighting.Proofs.Grammar.Numbering

/-! # When languages compile

A language asks for some texts to be patterns and for some names to be those of containers, in a fixed
order. It compiles when all of this holds, no name is given twice and no entry outside of all containers
refers to the enclosing one. Otherwise the first violation is the error. All of this is so whatever reader
tells which texts are patterns. -/
set_option autoImplicit false
namespace Highlighting

/-- Something that a language needs. -/
inductive Requirement where
  /-- The text has to be a pattern. -/
  | pattern (owner : PatternOwner) (role : PatternRole) (text : String)
  /-- The name has to be that of a container. -/
  | container (name : String)
deriving DecidableEq, Repr

/-- The text is a pattern to the reader. -/
def Pattern.Reader.Reads (reader : Pattern.Reader) (text : String) : Prop :=
  (reader text).isSome = true

instance (reader : Pattern.Reader) (text : String) : Decidable (reader.Reads text) :=
  inferInstanceAs (Decidable (_ = true))

namespace Requirement

/-- The error if the requirement does not hold, where these are the names of the containers. -/
def violation? (reader : Pattern.Reader) (names : List String) : Requirement → Option GrammarError
  | pattern owner role text =>
      if reader.Reads text then none else some (.pattern owner role text)
  | container name => if name ∈ names then none else some (.unknownRule name)

end Requirement

/-! ## What languages need -/

namespace Keywords

def requirements (owner : PatternOwner) (keywords : Keywords) : List Requirement :=
  .pattern owner .word keywords.pattern ::
    (WordTable.operatorText? keywords.operator).toList.map (.pattern owner .operators)

end Keywords

namespace Entry

def reference? : Entry → Option String
  | named name => some name
  | single _ | parts _ | container _ _ | enclosing => none

/-- What a definition with this number needs, in the order in which it is looked at. -/
def requirements (number : Nat) : Entry → List Requirement
  | single rule =>
      .pattern (.rule number) .opener rule.opener ::
        (rule.followedBy.toList.map (.pattern (.rule number) .lookahead) ++
          rule.keywords.toList.flatMap (Keywords.requirements (.rule number)))
  | parts rule => [.pattern (.rule number) .parts (Parts.assemble 1 rule.parts)]
  | container rule rules =>
      .pattern (.rule number) .opener rule.opener ::
        .pattern (.rule number) .closer rule.closer ::
          ((rules.filterMap reference?).map .container ++
            (rule.illegal.toList.map (.pattern (.rule number) .illegal) ++
              rule.keywords.toList.flatMap (Keywords.requirements (.rule number))))
  | named _ | enclosing => []

end Entry

namespace Language

/-- The definitions of the language with their numbers. -/
def numbered (language : Language) : List (Entry × Nat) :=
  (Entry.definitionsAll language.rules).zipIdx

/-- The names of the containers, in the order of these. -/
def names (language : Language) : List String :=
  (Entry.definitionsAll language.rules).filterMap Entry.name?

/-- What the language needs, in the order in which it is looked at: the references outside of all
containers, what each definition needs, its own words and its marker of illegal text. -/
def requirements (language : Language) : List Requirement :=
  (language.rules.filterMap Entry.reference?).map .container ++
    (language.numbered.flatMap (fun (definition, number) => definition.requirements number) ++
      (language.keywords.requirements (.language language.name) ++
        language.illegal.toList.map (.pattern (.language language.name) .illegalMarker)))

/-- Everything that is wrong with the language. Mistakes in the names and entries on a walk through its
lists come first. -/
def violations (language : Language) (reader : Pattern.Reader) : List GrammarError :=
  Landmark.mistakes [] (Entry.landmarksAll true language.rules) ++
    language.requirements.filterMap (Requirement.violation? reader language.names)

end Language

/-! ## Compiling stops at the first violation -/

/-- What a slot stands for, given the numbers of the names. -/
def Slot.Resolves (names : RuleNames) : Slot → Nat → Prop
  | rule index, number => number = index
  | named name, number => names.lookup name = some number

/-- The entries inside a container. -/
def Entry.rules : Entry → List Entry
  | container _ rules => rules
  | single _ | parts _ | named _ | enclosing => []

/-- The numbers that a rule lists. -/
def Rule.numbers : Rule → List Nat
  | container rule => rule.rules
  | single _ | parts _ => []

/-- The rule is made for the definition: it is of the same kind and has the same patterns and data. -/
def Entry.Describes (reader : Pattern.Reader) : Entry → Rule → Prop
  | single given, .single made =>
      reader.program? given.opener = some made.opener ∧
        made.followedBy = given.followedBy.bind reader.program? ∧ made.scope = given.scope ∧
          made.excluded = given.excluded ∧ made.fence = given.fence ∧ made.relevance = given.relevance
  | parts given, .parts made =>
      reader.program? (Parts.assemble 1 given.parts) = some made.pattern ∧
        made.parts.map (·.2) = (List.range given.parts.length).map (fun i => given.scope? (i + 1)) ∧
          made.relevance = given.relevance
  | container given _, .container made =>
      reader.program? given.opener = some made.opener ∧ reader.program? given.closer = some made.closer ∧
        made.illegal = given.illegal.bind reader.program? ∧ made.scope = given.scope ∧
          made.relevance = given.relevance
  | _, _ => False

/-- The rule that a definition with this number becomes. -/
structure Entry.Becomes (reader : Pattern.Reader) (names : RuleNames) (number : Nat) (entry : Entry)
    (rule : Rule) : Prop where
  describes : entry.Describes reader rule
  resolves : List.Forall₂ (Slot.Resolves names) (slots (some number) (number + 1) entry.rules) rule.numbers

variable (reader : Pattern.Reader)

section Reading
variable (names : List String) (owner : PatternOwner) (role : PatternRole)

theorem readPattern_stops (text : String) :
    StopsAt (([.pattern owner role text] : List Requirement).filterMap
        (Requirement.violation? reader names))
      (fun pattern => reader text = some pattern) (readPattern owner role text reader) := by
  unfold readPattern
  cases read : reader text with
  | none =>
      have unreadable : ¬ reader.Reads text := by simp [Pattern.Reader.Reads, read]
      simp only [List.filterMap_cons, Requirement.violation?, if_neg unreadable]
      rfl
  | some pattern =>
      have readable : reader.Reads text := by simp [Pattern.Reader.Reads, read]
      simp only [List.filterMap_cons, Requirement.violation?, if_pos readable]
      exact .ok rfl

theorem readProgram_stops (text : String) :
    StopsAt (([.pattern owner role text] : List Requirement).filterMap
        (Requirement.violation? reader names))
      (fun program => reader.program? text = some program) (readProgram owner role text reader) :=
  (readPattern_stops reader names owner role text).map fun pattern read => by
    rw [Pattern.Reader.program?, read, Option.map_some]

theorem readProgram?_stops (text : Option String) :
    StopsAt ((text.toList.map (Requirement.pattern owner role)).filterMap
        (Requirement.violation? reader names))
      (· = text.bind reader.program?) (readProgram? owner role text reader) := by
  cases text with
  | none => exact .ok rfl
  | some text => exact (readProgram_stops reader names owner role text).map fun program read => read.symm

theorem ofKeywords_stops (keywords : Keywords) :
    StopsAt ((keywords.requirements owner).filterMap (Requirement.violation? reader names))
      (fun _ => True) (WordTable.ofKeywords owner keywords reader) := by
  rw [Keywords.requirements, ← List.singleton_append, List.filterMap_append]
  refine (readProgram_stops reader names owner .word keywords.pattern).bind fun pattern _ => ?_
  exact (readProgram?_stops reader names owner .operators _).map fun operators _ => trivial

theorem ofKeywords?_stops (keywords : Option Keywords) :
    StopsAt ((keywords.toList.flatMap (Keywords.requirements owner)).filterMap
        (Requirement.violation? reader names))
      (fun _ => True) (WordTable.ofKeywords? owner keywords reader) := by
  cases keywords with
  | none => exact .ok trivial
  | some keywords =>
      rw [Option.toList_some, List.flatMap_singleton]
      exact (ofKeywords_stops reader names owner keywords).map fun _ _ => trivial

end Reading

/-- The table knows these names and no others. -/
def RuleNames.Knows (table : RuleNames) (names : List String) : Prop :=
  ∀ name, (table.lookup name).isSome ↔ name ∈ names

section Resolving
variable {table : RuleNames} {names : List String} (knows : table.Knows names)
include knows

theorem Slot.resolve_stops (owner : Option Nat) (next : Nat) (entry : Entry) :
    StopsAt ((entry.reference?.toList.map Requirement.container).filterMap
        (Requirement.violation? reader names))
      (Slot.Resolves table (entry.slot owner next)) ((entry.slot owner next).resolve table) := by
  cases entry with
  | single rule => exact .ok rfl
  | parts rule => exact .ok rfl
  | container rule rules => exact .ok rfl
  | enclosing => exact .ok rfl
  | named name =>
      simp only [Entry.slot, Slot.resolve, Entry.reference?, Option.toList_some, List.map_cons,
        List.map_nil, List.filterMap_cons, Requirement.violation?]
      cases found : table.lookup name with
      | none =>
          have unknown : name ∉ names := by rw [← knows name, found]; simp
          rw [if_neg unknown]
          rfl
      | some number =>
          have known : name ∈ names := by rw [← knows name, found]; rfl
          rw [if_pos known]
          exact .ok found

theorem Slot.resolveAll_stops (owner : Option Nat) (entries : List Entry) :
    ∀ next, StopsAt (((entries.filterMap Entry.reference?).map Requirement.container).filterMap
        (Requirement.violation? reader names))
      (List.Forall₂ (Slot.Resolves table) (Entry.slots owner next entries))
      (Slot.resolveAll table (Entry.slots owner next entries)) := by
  induction entries with
  | nil => intro next; exact .ok .nil
  | cons entry rest ih =>
      intro next
      have inOrder : ((entry :: rest).filterMap Entry.reference?).map Requirement.container =
          entry.reference?.toList.map Requirement.container ++
            (rest.filterMap Entry.reference?).map Requirement.container := by
        cases entry <;> rfl
      rw [inOrder, List.filterMap_append, Entry.slots, Slot.resolveAll]
      refine (Slot.resolve_stops reader knows owner next entry).bind fun number resolved => ?_
      exact (ih _).map fun numbers others => List.Forall₂.cons resolved others

/-- Making a rule of a definition stops at the first requirement that does not hold. -/
theorem Definition.toRule_stops {entry : Entry} {number : Nat} {definition : Definition}
    (defines : entry.definition? number = some definition) :
    StopsAt ((entry.requirements number).filterMap (Requirement.violation? reader names))
      (entry.Becomes reader table number) (definition.toRule table number reader) := by
  cases entry with
  | named name => exact nomatch defines
  | enclosing => exact nomatch defines
  | single rule =>
      cases defines
      have inOrder : (Entry.single rule).requirements number =
          [.pattern (.rule number) .opener rule.opener] ++
            (rule.followedBy.toList.map (.pattern (.rule number) .lookahead) ++
              rule.keywords.toList.flatMap (Keywords.requirements (.rule number))) := rfl
      rw [inOrder, List.filterMap_append, List.filterMap_append]
      refine (readProgram_stops reader names (.rule number) .opener rule.opener).bind fun opener opens => ?_
      refine (readProgram?_stops reader names (.rule number) .lookahead rule.followedBy).bind
        fun followedBy follows => ?_
      exact (ofKeywords?_stops reader names (.rule number) rule.keywords).map fun words _ =>
        ⟨⟨opens, follows, rfl, rfl, rfl, rfl⟩, .nil⟩
  | parts rule =>
      cases defines
      refine (readPattern_stops reader names (.rule number) .parts _).map fun pattern read =>
        ⟨⟨?_, ?_, rfl⟩, .nil⟩
      · rw [Pattern.Reader.program?, read, Option.map_some]
      · rw [Parts.located, List.map_map]
        rfl
  | container rule rules =>
      cases defines
      have inOrder : (Entry.container rule rules).requirements number =
          [.pattern (.rule number) .opener rule.opener] ++
            ([.pattern (.rule number) .closer rule.closer] ++
              ((rules.filterMap Entry.reference?).map .container ++
                (rule.illegal.toList.map (.pattern (.rule number) .illegal) ++
                  rule.keywords.toList.flatMap (Keywords.requirements (.rule number))))) := rfl
      rw [inOrder, List.filterMap_append, List.filterMap_append, List.filterMap_append,
        List.filterMap_append]
      refine (readProgram_stops reader names (.rule number) .opener rule.opener).bind fun opener opens => ?_
      refine (readProgram_stops reader names (.rule number) .closer rule.closer).bind fun closer closes => ?_
      refine (Slot.resolveAll_stops reader knows (some number) rules (number + 1)).bind
        fun numbers resolved => ?_
      refine (readProgram?_stops reader names (.rule number) .illegal rule.illegal).bind
        fun illegal refuses => ?_
      exact (ofKeywords?_stops reader names (.rule number) rule.keywords).map fun words _ =>
        ⟨⟨opens, closes, refuses, rfl, rfl⟩, resolved⟩

theorem Definition.toRules_stops (entries : List Entry) :
    ∀ (next : Nat) {definitions : List Definition},
      definitions.map some = (entries.zipIdx next).map (fun (entry, number) => entry.definition? number) →
        StopsAt (((entries.zipIdx next).flatMap fun (entry, number) => entry.requirements number).filterMap
            (Requirement.violation? reader names))
          (fun rules => List.Forall₂ (fun (numbered : Entry × Nat) rule =>
            numbered.1.Becomes reader table numbered.2 rule) (entries.zipIdx next) rules)
          (Definition.toRules table next definitions reader) := by
  induction entries with
  | nil =>
      intro next definitions defined
      obtain rfl : definitions = [] := List.map_eq_nil_iff.mp defined
      exact .ok .nil
  | cons entry rest ih =>
      intro next definitions defined
      rw [List.zipIdx_cons, List.map_cons] at defined
      obtain ⟨definition, others, rfl, here, behind⟩ := List.map_eq_cons_iff.mp defined
      rw [List.zipIdx_cons, List.flatMap_cons, List.filterMap_append]
      refine (Definition.toRule_stops reader knows here.symm).bind fun rule becomes => ?_
      exact (ih (next + 1) behind).map fun rules become => .cons becomes become

end Resolving

namespace Highlighter

/-- The rules of the highlighter are what the definitions of the language become. -/
structure BuiltFrom (reader : Pattern.Reader) (language : Language) (highlighter : Highlighter) : Prop where
  root : List.Forall₂ (Slot.Resolves (Entry.nameTable language.numbered))
    (Entry.slots none 0 language.rules) highlighter.root
  rules : List.Forall₂ (fun (numbered : Entry × Nat) rule =>
    numbered.1.Becomes reader (Entry.nameTable language.numbered) numbered.2 rule)
      language.numbered highlighter.rules.toList

theorem nameTable_knows (language : Language) :
    (Entry.nameTable language.numbered).Knows language.names := by
  intro name
  rw [RuleNames.lookup_isSome_iff, Language.numbered, Entry.given_nameTable, List.mem_reverse]
  rfl

/-- Compiling a language stops at its first violation. -/
theorem ofLanguage_stops (language : Language) :
    StopsAt (language.violations reader) (BuiltFrom reader language) (ofLanguage language reader) := by
  have knows := nameTable_knows language
  rw [Language.violations, Language.requirements, List.filterMap_append, List.filterMap_append,
    List.filterMap_append]
  refine (Entry.layOutList_stops none language.rules 0 []).bind ?_
  rintro ⟨slots, definitions, table⟩ ⟨rfl, laid⟩
  obtain rfl : table = Entry.nameTable language.numbered := by
    rw [laid.names, List.append_nil]
    rfl
  refine (Slot.resolveAll_stops reader knows none language.rules 0).bind fun root resolved => ?_
  refine (Definition.toRules_stops reader knows _ 0 laid.definitions).bind fun rules become => ?_
  refine (ofKeywords_stops reader language.names (.language language.name) language.keywords).bind
    fun words _ => ?_
  exact (readProgram?_stops reader language.names (.language language.name) .illegalMarker language.illegal).map
    fun illegal _ => ⟨resolved, become⟩

end Highlighter

end Highlighting
