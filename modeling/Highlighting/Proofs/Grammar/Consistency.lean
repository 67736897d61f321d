import Highlighting.Proofs.Grammar.Compiling

/-! # Consistent languages

A language is consistent when its names are given once and every reference, at whatever depth, has
something to refer to and every text that is to be a pattern is one to the reader. These are the
languages that compile. -/
set_option autoImplicit false
namespace Highlighting

namespace Entry

/-- The entry stands in the list, or inside a container of the list at any depth. -/
inductive Occurs (entry : Entry) : List Entry → Prop where
  | here {entries : List Entry} (listed : entry ∈ entries) : Occurs entry entries
  | inside {entries rules : List Entry} {rule : Container} (listed : container rule rules ∈ entries)
      (occurs : Occurs entry rules) : Occurs entry entries

def IsDefinition : Entry → Prop
  | single _ | parts _ | container _ _ => True
  | named _ | enclosing => False

theorem Occurs.mono {entry : Entry} {few many : List Entry} (occurs : entry.Occurs few)
    (more : ∀ other ∈ few, other ∈ many) : entry.Occurs many := by
  cases occurs with
  | here listed => exact .here (more _ listed)
  | inside listed occurs => exact .inside (more _ listed) occurs

theorem definitionsAll_eq (entries : List Entry) :
    definitionsAll entries = entries.flatMap definitions := by
  induction entries with
  | nil => rfl
  | cons entry rest ih => rw [definitionsAll, ih, List.flatMap_cons]

mutual

theorem occurs_of_mem_definitions {definition : Entry} :
    (entry : Entry) → definition ∈ entry.definitions →
      definition.IsDefinition ∧ definition.Occurs [entry]
  | .single rule => by
      intro member
      obtain rfl := List.mem_singleton.mp member
      exact ⟨trivial, .here List.mem_cons_self⟩
  | .parts rule => by
      intro member
      obtain rfl := List.mem_singleton.mp member
      exact ⟨trivial, .here List.mem_cons_self⟩
  | .container rule rules => by
      intro member
      rcases List.mem_cons.mp member with rfl | inner
      · exact ⟨trivial, .here List.mem_cons_self⟩
      · obtain ⟨defines, occurs⟩ := occurs_of_mem_definitionsAll rules inner
        exact ⟨defines, .inside List.mem_cons_self occurs⟩
  | .named name => fun absurdity => nomatch absurdity
  | .enclosing => fun absurdity => nomatch absurdity

theorem occurs_of_mem_definitionsAll {definition : Entry} :
    (entries : List Entry) → definition ∈ definitionsAll entries →
      definition.IsDefinition ∧ definition.Occurs entries
  | [] => fun absurdity => nomatch absurdity
  | entry :: rest => by
      intro member
      rcases List.mem_append.mp member with here | behind
      · obtain ⟨defines, occurs⟩ := occurs_of_mem_definitions entry here
        exact ⟨defines, occurs.mono (by simp)⟩
      · obtain ⟨defines, occurs⟩ := occurs_of_mem_definitionsAll rest behind
        exact ⟨defines, occurs.mono fun other => List.mem_cons_of_mem entry⟩

end

theorem IsDefinition.mem_definitions {definition : Entry} (defines : definition.IsDefinition) :
    definition ∈ definition.definitions := by
  cases definition with
  | named name => exact defines.elim
  | enclosing => exact defines.elim
  | single rule => exact List.mem_cons_self
  | parts rule => exact List.mem_cons_self
  | container rule rules => exact List.mem_cons_self

/-- The listed definitions are those that occur anywhere. -/
theorem mem_definitionsAll_iff {definition : Entry} {entries : List Entry} :
    definition ∈ definitionsAll entries ↔ definition.IsDefinition ∧ definition.Occurs entries := by
  refine ⟨occurs_of_mem_definitionsAll entries, ?_⟩
  rintro ⟨defines, occurs⟩
  induction occurs with
  | here listed =>
      rw [definitionsAll_eq]
      exact List.mem_flatMap_of_mem listed defines.mem_definitions
  | inside listed occurs ih =>
      rw [definitionsAll_eq]
      exact List.mem_flatMap_of_mem listed (List.mem_cons_of_mem _ ih)

theorem mem_references_iff {name : String} {entries : List Entry} :
    name ∈ entries.filterMap reference? ↔ named name ∈ entries := by
  rw [List.mem_filterMap]
  constructor
  · rintro ⟨entry, listed, refers⟩
    cases entry with
    | named other =>
        cases refers
        exact listed
    | single rule => exact nomatch refers
    | parts rule => exact nomatch refers
    | container rule rules => exact nomatch refers
    | enclosing => exact nomatch refers
  · intro listed
    exact ⟨named name, listed, rfl⟩

/-- A reference stands outside of all containers or in the list of one of them. -/
theorem occurs_named_iff {name : String} {entries : List Entry} :
    (named name).Occurs entries ↔ named name ∈ entries ∨
      ∃ rule rules, (container rule rules).Occurs entries ∧ named name ∈ rules := by
  constructor
  · intro occurs
    induction occurs with
    | here listed => exact .inl listed
    | @inside entries rules rule listed occurs ih =>
        rcases ih with here | ⟨inner, others, deeper, there⟩
        · exact .inr ⟨rule, rules, .here listed, here⟩
        · exact .inr ⟨inner, others, .inside listed deeper, there⟩
  · rintro (listed | ⟨rule, rules, occurs, listed⟩)
    · exact .here listed
    · generalize owner : container rule rules = whole at occurs
      induction occurs with
      | here there =>
          subst owner
          exact .inside there (.here listed)
      | inside there deeper ih => exact .inside there ih

/-! ## Entries that refer outwards -/

mutual

theorem stray_not_mem_inside : (entry : Entry) → .stray ∉ entry.landmarks false
  | .single _ | .parts _ | .named _ | .enclosing => fun absurdity => nomatch absurdity
  | .container rule rules => by
      intro member
      rcases List.mem_append.mp member with naming | inner
      · obtain ⟨name, _, absurdity⟩ := List.mem_map.mp naming
        exact nomatch absurdity
      · exact stray_not_mem_insideAll rules inner

theorem stray_not_mem_insideAll : (entries : List Entry) → .stray ∉ landmarksAll false entries
  | [] => fun absurdity => nomatch absurdity
  | entry :: rest => by
      intro member
      rcases List.mem_append.mp member with here | behind
      · exact stray_not_mem_inside entry here
      · exact stray_not_mem_insideAll rest behind

end

theorem stray_mem_iff {entries : List Entry} :
    .stray ∈ landmarksAll true entries ↔ enclosing ∈ entries := by
  have each : ∀ entry : Entry, .stray ∈ entry.landmarks true ↔ enclosing = entry := by
    intro entry
    cases entry with
    | enclosing => simp [landmarks]
    | single rule => simp [landmarks]
    | parts rule => simp [landmarks]
    | named name => simp [landmarks]
    | container rule rules => simp [landmarks, stray_not_mem_insideAll rules]
  induction entries with
  | nil => simp [landmarksAll]
  | cons entry rest ih => exact List.mem_append.trans ((or_congr (each entry) ih).trans List.mem_cons.symm)

end Entry

/-! ## Texts that are to be patterns -/

namespace Keywords

def patterns (keywords : Keywords) : List String :=
  keywords.pattern :: (WordTable.operatorText? keywords.operator).toList

end Keywords

namespace Entry

/-- The texts of a definition that are to be patterns. -/
def patterns : Entry → List String
  | single rule =>
      rule.opener :: (rule.followedBy.toList ++ rule.keywords.toList.flatMap Keywords.patterns)
  | parts rule => [Parts.assemble 1 rule.parts]
  | container rule _ =>
      rule.opener :: rule.closer :: (rule.illegal.toList ++ rule.keywords.toList.flatMap Keywords.patterns)
  | named _ | enclosing => []

theorem isDefinition_of_mem_patterns {entry : Entry} {text : String} (listed : text ∈ entry.patterns) :
    entry.IsDefinition := by
  cases entry with
  | named name => exact nomatch listed
  | enclosing => exact nomatch listed
  | single rule => trivial
  | parts rule => trivial
  | container rule rules => trivial

end Entry

/-- What makes a language one that compiles. -/
structure Language.Consistent (language : Language) (reader : Pattern.Reader) : Prop where
  names : language.names.Nodup
  outside : Entry.enclosing ∉ language.rules
  references : ∀ name, (Entry.named name).Occurs language.rules →
    ∃ rule rules, (Entry.container rule rules).Occurs language.rules ∧ rule.name = some name
  patterns : ∀ entry : Entry, entry.Occurs language.rules → ∀ text ∈ entry.patterns, reader.Reads text
  words : ∀ text ∈ language.keywords.patterns, reader.Reads text
  illegal : ∀ text ∈ language.illegal, reader.Reads text

namespace Requirement

def Holds (reader : Pattern.Reader) (names : List String) : Requirement → Prop
  | pattern _ _ text => reader.Reads text
  | container name => name ∈ names

variable {reader : Pattern.Reader} {names : List String}

@[simp] theorem holds_pattern (owner : PatternOwner) (role : PatternRole) (text : String) :
    (pattern owner role text).Holds reader names ↔ reader.Reads text := Iff.rfl

@[simp] theorem holds_container (name : String) :
    (container name).Holds reader names ↔ name ∈ names := Iff.rfl

theorem violation?_eq_none_iff {requirement : Requirement} :
    requirement.violation? reader names = none ↔ requirement.Holds reader names := by
  cases requirement <;> simp [violation?]

end Requirement

variable {reader : Pattern.Reader}

section Holding
variable {names : List String}

theorem forall_pattern_iff (owner : PatternOwner) (role : PatternRole) (texts : List String) :
    (∀ requirement ∈ texts.map (Requirement.pattern owner role), requirement.Holds reader names) ↔
      ∀ text ∈ texts, reader.Reads text :=
  List.forall_mem_map

theorem forall_container_iff (references : List String) :
    (∀ requirement ∈ references.map Requirement.container, requirement.Holds reader names) ↔
      ∀ name ∈ references, name ∈ names :=
  List.forall_mem_map

theorem Keywords.requirements_hold_iff (owner : PatternOwner) (keywords : Keywords) :
    (∀ requirement ∈ keywords.requirements owner, requirement.Holds reader names) ↔
      ∀ text ∈ keywords.patterns, reader.Reads text := by
  simp only [requirements, patterns, List.forall_mem_cons, forall_pattern_iff, Requirement.holds_pattern]

theorem Keywords.flatMap_hold_iff (owner : PatternOwner) (keywords : Option Keywords) :
    (∀ requirement ∈ keywords.toList.flatMap (Keywords.requirements owner), requirement.Holds reader names) ↔
      ∀ text ∈ keywords.toList.flatMap Keywords.patterns, reader.Reads text := by
  cases keywords with
  | none => simp
  | some keywords =>
      rw [Option.toList_some, List.flatMap_singleton, List.flatMap_singleton]
      exact requirements_hold_iff owner keywords

/-- What a definition needs does not depend on its number. -/
theorem Entry.requirements_hold_iff (number : Nat) (entry : Entry) :
    (∀ requirement ∈ entry.requirements number, requirement.Holds reader names) ↔
      (∀ rule rules, entry = .container rule rules → ∀ name, .named name ∈ rules → name ∈ names) ∧
        ∀ text ∈ entry.patterns, reader.Reads text := by
  cases entry with
  | named name => simp [requirements, patterns]
  | enclosing => simp [requirements, patterns]
  | parts rule => simp [requirements, patterns]
  | single rule =>
      simp only [requirements, patterns, List.forall_mem_cons, List.forall_mem_append,
        forall_pattern_iff, Keywords.flatMap_hold_iff, Requirement.holds_pattern]
      simp
  | container rule rules =>
      simp only [requirements, patterns, List.forall_mem_cons, List.forall_mem_append,
        forall_pattern_iff, forall_container_iff, Keywords.flatMap_hold_iff, Requirement.holds_pattern,
        mem_references_iff]
      constructor
      · rintro ⟨opens, closes, refers, refuses, words⟩
        refine ⟨?_, opens, closes, refuses, words⟩
        rintro _ _ ⟨⟩
        exact refers
      · rintro ⟨refers, opens, closes, refuses, words⟩
        exact ⟨opens, closes, refers rule rules rfl, refuses, words⟩

end Holding

namespace Language

theorem mem_names_iff {language : Language} {name : String} :
    name ∈ language.names ↔
      ∃ rule rules, (Entry.container rule rules).Occurs language.rules ∧ rule.name = some name := by
  rw [names, List.mem_filterMap]
  constructor
  · rintro ⟨entry, listed, named⟩
    cases entry with
    | container rule rules => exact ⟨rule, rules, (Entry.mem_definitionsAll_iff.mp listed).2, named⟩
    | single rule => exact nomatch named
    | parts rule => exact nomatch named
    | named other => exact nomatch named
    | enclosing => exact nomatch named
  · rintro ⟨rule, rules, occurs, named⟩
    have defines : (Entry.container rule rules).IsDefinition := trivial
    exact ⟨.container rule rules, Entry.mem_definitionsAll_iff.mpr ⟨defines, occurs⟩, named⟩

theorem numbered_hold_iff {language : Language} :
    (∀ requirement ∈ language.numbered.flatMap (fun (entry, number) => entry.requirements number),
        requirement.Holds reader language.names) ↔
      (∀ rule rules, (Entry.container rule rules).Occurs language.rules →
        ∀ name, .named name ∈ rules → name ∈ language.names) ∧
      ∀ entry : Entry, entry.Occurs language.rules → ∀ text ∈ entry.patterns, reader.Reads text := by
  rw [List.forall_mem_flatMap]
  constructor
  · intro hold
    have each : ∀ entry ∈ Entry.definitionsAll language.rules, ∃ number,
        ∀ requirement ∈ entry.requirements number, requirement.Holds reader language.names := by
      intro entry listed
      obtain ⟨place, here⟩ := List.mem_iff_getElem?.mp listed
      have counted : (entry, place) ∈ language.numbered := List.mem_zipIdx_iff_getElem?.mpr here
      exact ⟨place, hold (entry, place) counted⟩
    refine ⟨?_, ?_⟩
    · intro rule rules occurs
      have defines : (Entry.container rule rules).IsDefinition := trivial
      obtain ⟨number, holds⟩ := each _ (Entry.mem_definitionsAll_iff.mpr ⟨defines, occurs⟩)
      exact ((Entry.requirements_hold_iff number _).mp holds).1 rule rules rfl
    · intro entry occurs text listed
      have defines := Entry.isDefinition_of_mem_patterns listed
      obtain ⟨number, holds⟩ := each entry (Entry.mem_definitionsAll_iff.mpr ⟨defines, occurs⟩)
      exact ((Entry.requirements_hold_iff number entry).mp holds).2 text listed
  · rintro ⟨refers, readable⟩ ⟨entry, number⟩ counted
    have listed := List.fst_mem_of_mem_zipIdx counted
    obtain ⟨_, occurs⟩ := Entry.mem_definitionsAll_iff.mp listed
    refine (Entry.requirements_hold_iff number entry).mpr ⟨?_, readable entry occurs⟩
    rintro rule rules rfl
    exact refers rule rules occurs

/-- A language without violations is a consistent one. -/
theorem violations_eq_nil_iff (language : Language) :
    language.violations reader = [] ↔ language.Consistent reader := by
  have walk : Landmark.mistakes [] (Entry.landmarksAll true language.rules) = [] ↔
      Entry.enclosing ∉ language.rules ∧ language.names.Nodup := by
    rw [Landmark.mistakes_eq_nil_iff, Entry.stray_mem_iff, Entry.landmarksAll_names]
    simp [names]
  have needs : language.requirements.filterMap (Requirement.violation? reader language.names) = [] ↔
      (∀ name, .named name ∈ language.rules → name ∈ language.names) ∧
        ((∀ rule rules, (Entry.container rule rules).Occurs language.rules →
            ∀ name, .named name ∈ rules → name ∈ language.names) ∧
          ∀ entry : Entry, entry.Occurs language.rules → ∀ text ∈ entry.patterns, reader.Reads text) ∧
        (∀ text ∈ language.keywords.patterns, reader.Reads text) ∧
          ∀ text ∈ language.illegal, reader.Reads text := by
    simp only [List.filterMap_eq_nil_iff, Requirement.violation?_eq_none_iff, requirements,
      List.forall_mem_append, forall_container_iff, Entry.mem_references_iff, numbered_hold_iff,
      Keywords.requirements_hold_iff, forall_pattern_iff, Option.mem_toList]
    exact Iff.rfl
  rw [violations, List.append_eq_nil_iff, walk, needs]
  constructor
  · rintro ⟨⟨outside, once⟩, top, ⟨inner, patterns⟩, words, illegal⟩
    refine ⟨once, outside, ?_, patterns, words, illegal⟩
    intro name occurs
    rcases Entry.occurs_named_iff.mp occurs with listed | ⟨rule, rules, there, listed⟩
    · exact mem_names_iff.mp (top name listed)
    · exact mem_names_iff.mp (inner rule rules there name listed)
  · intro consistent
    have known : ∀ name, (Entry.named name).Occurs language.rules → name ∈ language.names :=
      fun name occurs => mem_names_iff.mpr (consistent.references name occurs)
    refine ⟨⟨consistent.outside, consistent.names⟩, ?_, ⟨?_, consistent.patterns⟩, consistent.words,
      consistent.illegal⟩
    · exact fun name listed => known name (.here listed)
    · exact fun rule rules occurs name listed =>
        known name (Entry.occurs_named_iff.mpr (.inr ⟨rule, rules, occurs, listed⟩))

end Language

/-! ## The number in an error -/

theorem Landmark.pattern_not_mem_mistakes {owner : PatternOwner} {role : PatternRole} {text : String}
    {marks : List Landmark} : ∀ {known : List String}, .pattern owner role text ∉ mistakes known marks := by
  induction marks with
  | nil => exact fun absurdity => nomatch absurdity
  | cons mark rest ih =>
      intro known member
      cases mark with
      | stray =>
          rcases List.mem_cons.mp member with absurdity | later
          · cases absurdity
          · exact ih later
      | naming name =>
          rw [mistakes] at member
          split at member
          · rcases List.mem_cons.mp member with absurdity | later
            · cases absurdity
            · exact ih later
          · exact ih member

section Owners
variable {owner other : PatternOwner} {role : PatternRole} {text : String}

theorem owner_eq_of_mem_map {asked : PatternRole} {texts : List String}
    (needed : .pattern owner role text ∈ texts.map (Requirement.pattern other asked)) : owner = other := by
  obtain ⟨_, _, same⟩ := List.mem_map.mp needed
  cases same
  rfl

theorem Keywords.owner_eq {keywords : Keywords}
    (needed : .pattern owner role text ∈ keywords.requirements other) : owner = other := by
  unfold requirements at needed
  rcases List.mem_cons.mp needed with same | operators
  · cases same
    rfl
  · exact owner_eq_of_mem_map operators

theorem Keywords.owner_eq_of_mem_flatMap {keywords : Option Keywords}
    (needed : .pattern owner role text ∈ keywords.toList.flatMap (requirements other)) : owner = other := by
  obtain ⟨table, _, needed⟩ := List.mem_flatMap.mp needed
  exact owner_eq needed

theorem Entry.owner_eq {entry : Entry} {number : Nat}
    (needed : .pattern owner role text ∈ entry.requirements number) : owner = .rule number := by
  cases entry with
  | named name => exact nomatch needed
  | enclosing => exact nomatch needed
  | parts rule =>
      cases List.mem_singleton.mp needed
      rfl
  | single rule =>
      rcases List.mem_cons.mp needed with same | needed
      · cases same
        rfl
      rcases List.mem_append.mp needed with lookahead | words
      · exact owner_eq_of_mem_map lookahead
      · exact Keywords.owner_eq_of_mem_flatMap words
  | container rule rules =>
      rcases List.mem_cons.mp needed with same | needed
      · cases same
        rfl
      rcases List.mem_cons.mp needed with same | needed
      · cases same
        rfl
      rcases List.mem_append.mp needed with references | needed
      · obtain ⟨_, _, absurdity⟩ := List.mem_map.mp references
        exact nomatch absurdity
      rcases List.mem_append.mp needed with illegal | words
      · exact owner_eq_of_mem_map illegal
      · exact Keywords.owner_eq_of_mem_flatMap words

end Owners

/-- A pattern of a rule that is no pattern is one that the definition with this number needs. -/
theorem Language.pattern_mem_violations {language : Language} {number : Nat} {role : PatternRole}
    {text : String} (wrong : .pattern (.rule number) role text ∈ language.violations reader) :
    ∃ definition, (Entry.definitionsAll language.rules)[number]? = some definition ∧
      .pattern (.rule number) role text ∈ definition.requirements number ∧ ¬ reader.Reads text := by
  rcases List.mem_append.mp wrong with walk | needs
  · exact absurd walk Landmark.pattern_not_mem_mistakes
  obtain ⟨requirement, needed, fails⟩ := List.mem_filterMap.mp needs
  cases requirement with
  | container name =>
      rw [Requirement.violation?] at fails
      split at fails <;> cases fails
  | pattern owner asked unread =>
      rw [Requirement.violation?] at fails
      split at fails
      · cases fails
      next unreadable =>
      cases fails
      rcases List.mem_append.mp needed with references | needed
      · obtain ⟨_, _, absurdity⟩ := List.mem_map.mp references
        cases absurdity
      rcases List.mem_append.mp needed with numbered | needed
      · obtain ⟨⟨definition, place⟩, counted, asks⟩ := List.mem_flatMap.mp numbered
        obtain rfl : number = place := PatternOwner.rule.inj (Entry.owner_eq asks)
        exact ⟨definition, List.mem_zipIdx_iff_getElem?.mp counted, asks, unreadable⟩
      rcases List.mem_append.mp needed with words | illegal
      · cases Keywords.owner_eq words
      · cases owner_eq_of_mem_map illegal

namespace Highlighter

/-- Whatever the reader takes for a pattern, a language compiles if and only if it is consistent. If it
does not, the error is the first of its violations, and where this is a pattern of a rule, the error names
the number of its definition. -/
theorem ofLanguage_first_violation (reader : Pattern.Reader) (language : Language) :
    ((∃ highlighter, ofLanguage language reader = .ok highlighter) ↔ language.Consistent reader) ∧
    (∀ error, ofLanguage language reader = .error error ↔
      (language.violations reader).head? = some error) ∧
    ∀ number role text, ofLanguage language reader = .error (.pattern (.rule number) role text) →
      ∃ definition, (Entry.definitionsAll language.rules)[number]? = some definition ∧
        .pattern (.rule number) role text ∈ definition.requirements number ∧ ¬ reader.Reads text ∧
          GrammarError.context (.rule number) role = "rule #" ++ toString number ++ " " ++ role.toString := by
  have stops := ofLanguage_stops reader language
  refine ⟨stops.eq_ok_iff.trans language.violations_eq_nil_iff, stops.eq_error_iff, ?_⟩
  intro number role text refused
  have first := (stops.eq_error_iff _).mp refused
  obtain ⟨definition, numbered, needed, unreadable⟩ :=
    Language.pattern_mem_violations (List.mem_of_head? first)
  refine ⟨definition, numbered, needed, unreadable, ?_⟩
  have shown : PatternOwner.toString (.rule number) = "rule #" ++ toString number := rfl
  rw [GrammarError.context, shown]

end Highlighter

namespace Tangle

/-- The opener of the second definition is no pattern, and neither is that of the third one, which also
refers to nothing. -/
def language : Language where
  name := "tangle"
  rules :=
    [.container { name := some "loop", opener := "<", closer := ">" }
        [.enclosing, .named "late", .single { opener := "(" }],
      .container { name := some "late", opener := "[", closer := "]" } [.named "nowhere"]]

theorem opener_refused :
    Highlighter.ofLanguage language = .error (.pattern (.rule 1) .opener "(") ∧
      ∃ definition, (Entry.definitionsAll language.rules)[1]? = some definition ∧
        .pattern (.rule 1) .opener "(" ∈ definition.requirements 1 ∧ ¬ Pattern.Reader.Reads Pattern.parse? "(" ∧
          GrammarError.context (.rule 1) .opener = "rule #" ++ toString 1 ++ " " ++ "begin" := by
  have refused : Highlighter.ofLanguage language = .error (.pattern (.rule 1) .opener "(") := by
    decide +kernel
  exact ⟨refused, (Highlighter.ofLanguage_first_violation Pattern.parse? language).2.2 1 .opener "(" refused⟩

/-- A reader that refuses long texts. -/
def readBrief : Pattern.Reader := fun text =>
  if text.utf8ByteSize ≤ 16 then Pattern.parse? text else none

/-- The operators of the first definition are too long for the reader, those of the language too. -/
example :
    Highlighter.ofLanguage
        { name := "tangle"
          keywords := { operator := ["<<=", ">>=", "+=", "-=", "*="] }
          rules :=
            [.single { opener := "[a-z]+", keywords := some { operator := ["**", "|", "===", "!==", "or"] } }] }
        readBrief =
      .error (.pattern (.rule 0) .operators "===|!==|\\*\\*|or|\\|") := by
  decide +kernel

end Tangle

end Highlighting
