import Highlighting.Proofs.Scan.Origins

/-! # What may stand inside what

The rules and the words of a container decide which scopes can be marked directly inside it. Where every
container has a scope, and no other rule has both a scope and words, each marked node of a result is a
container with such marks inside it, or plain text. -/
set_option autoImplicit false
namespace Highlighting

namespace Node

theorem mem_marks_of_scope? {node : Node} {scope : Scope} (marked : node.scope? = some scope) :
    ⟨scope, node.start, node.stop⟩ ∈ node.marks := by
  cases node with
  | text start stop => exact nomatch marked
  | marked other start stop children =>
      obtain rfl := Option.some.inj marked
      exact List.mem_cons_self

theorem Occurs.sound {node : Node} {siblings : List Node} (occurs : node.Occurs siblings)
    (sound : ∀ sibling ∈ siblings, sibling.Sound) : node.Sound := by
  induction occurs with
  | here member => exact sound _ member
  | inside member occurs ih =>
      cases sound _ member with
      | marked _ _ _ below => exact ih below

/-- Only text occurs where text stands alone. -/
theorem Occurs.eq_text {node : Node} {start stop : Nat} (occurs : node.Occurs [text start stop]) :
    node = text start stop := by
  cases occurs with
  | here member => exact List.mem_singleton.mp member
  | inside member _ => exact nomatch List.mem_singleton.mp member

end Node

namespace Rule

/-- The scopes that a match can bring to the level where it is found. -/
def scopes : Rule → List Scope
  | single rule => (single rule).ownScopes ++ (rule.words.map (·.scopes)).getD []
  | parts rule => (parts rule).ownScopes
  | container rule => (container rule).ownScopes

/-- A container has a scope, and nothing else has both a scope and words. -/
def Whole : Rule → Prop
  | single rule => rule.scope = none ∨ rule.words = none
  | parts _ => True
  | container rule => rule.scope ≠ none

instance : (rule : Rule) → Decidable rule.Whole
  | single rule => inferInstanceAs (Decidable (rule.scope = none ∨ rule.words = none))
  | parts _ => inferInstanceAs (Decidable True)
  | container rule => inferInstanceAs (Decidable (rule.scope ≠ none))

end Rule

namespace Highlighter

/-- The scopes that marks can have directly inside the container, or outside of all. -/
def scopesIn (highlighter : Highlighter) (around : Option ContainerRule) : List Scope :=
  ((highlighter.wordsIn around).map (·.scopes)).getD [] ++
    (highlighter.rulesIn around).flatMap fun index =>
      ((highlighter.rules[index]?).map (·.scopes)).getD []

/-- The rules of the language that are containers. -/
def containerRules (highlighter : Highlighter) : List ContainerRule :=
  highlighter.rules.toList.filterMap fun
    | .container rule => some rule
    | _ => none

variable {highlighter : Highlighter} {source : Source} {around : Option ContainerRule}

theorem mem_containerRules {rule : ContainerRule} {index : Nat}
    (listed : highlighter.rules[index]? = some (.container rule)) : rule ∈ highlighter.containerRules := by
  have member := Array.mem_toList_iff.mpr (Array.mem_of_getElem? listed)
  exact List.mem_filterMap.mpr ⟨_, member, rfl⟩

theorem mem_scopesIn_of_words {table : WordTable} (words : highlighter.wordsIn around = some table)
    {scope : Scope} (listed : scope ∈ table.scopes) : scope ∈ highlighter.scopesIn around := by
  rw [scopesIn, words]
  exact List.mem_append_left _ listed

theorem Takes.mem_scopesIn {start : Nat} {found : Found}
    (taken : highlighter.Takes source around start found) {scope : Scope}
    (brings : scope ∈ found.rule.scopes) : scope ∈ highlighter.scopesIn around := by
  obtain ⟨listed, rule, _⟩ := taken.listed
  refine List.mem_append_right _ (List.mem_flatMap.mpr ⟨found.index, listed, ?_⟩)
  rw [rule]
  exact brings

/-- The words that are found in text at a level are marked with scopes of the level. -/
theorem mem_scopesIn_of_word {table : WordTable} (words : highlighter.wordsIn around = some table)
    {start stop : Nat} {node : Node} (member : node ∈ (table.sort source start stop).nodes)
    {mark : Marking} (marks : mark ∈ node.marks) : mark.scope ∈ highlighter.scopesIn around :=
  mem_scopesIn_of_words words (table.sort_finds mark (mem_marksAll_of_mem member marks)).scope_mem

theorem Takes.mem_scopesIn_of_single {index start stop : Nat} {rule : SingleRule}
    (taken : highlighter.Takes source around start (.single index rule stop)) {node : Node}
    (member : node ∈ (Yield.ofSingle source rule start stop).nodes) {mark : Marking}
    (marks : mark ∈ node.marks) : mark.scope ∈ highlighter.scopesIn around := by
  apply taken.mem_scopesIn
  rcases marks_of_wrapped member marks with ⟨hasScope, _⟩ | inside
  · exact List.mem_append_left _ (Option.mem_toList.mpr hasScope)
  · obtain ⟨table, words, finds⟩ := foundIn_finds inside
    refine List.mem_append_right _ ?_
    rw [words]
    exact finds.scope_mem

/-- If the scopes inside all containers are among some, so are those of all marks below. -/
theorem Stems.marks_within {allowed : List Scope}
    (closed : ∀ rule ∈ highlighter.containerRules, highlighter.scopesIn (some rule) ⊆ allowed)
    {node : Node} (stems : highlighter.Stems source around node) {rule : ContainerRule}
    (within : around = some rule) (known : rule ∈ highlighter.containerRules) :
    ∀ mark ∈ node.marks, mark.scope ∈ allowed := by
  induction stems generalizing rule with
  | text start stop => exact fun _ absurdity => absurd absurdity List.not_mem_nil
  | word words member =>
      intro mark marks
      exact closed rule known (within ▸ mem_scopesIn_of_word words member marks)
  | single taken member =>
      intro mark marks
      exact closed rule known (within ▸ taken.mem_scopesIn_of_single member marks)
  | part taken member proper =>
      intro mark marks
      rw [List.mem_singleton.mp marks]
      exact closed rule known (within ▸ taken.mem_scopesIn (taken.part_scope member))
  | container taken reaches inside member ih =>
      intro mark marks
      rcases marks_of_wrapped member marks with ⟨hasScope, _⟩ | below
      · exact closed rule known (within ▸ taken.mem_scopesIn (Option.mem_toList.mpr hasScope))
      · rw [Node.marksAll_eq] at below
        obtain ⟨child, listed, marks⟩ := List.mem_flatMap.mp below
        exact ih child listed rfl (mem_containerRules taken.listed.2.1) mark marks

section Whole
variable (whole : ∀ rule ∈ highlighter.rules, rule.Whole)
include whole

theorem Takes.isWhole {start : Nat} {found : Found} (taken : highlighter.Takes source around start found) :
    found.rule.Whole :=
  whole _ (Array.mem_of_getElem? taken.listed.2.1)

/-- A marked node has a scope that the rules and the words around it can bring. -/
theorem Stems.scope_mem {node : Node} (stems : highlighter.Stems source around node) {scope : Scope}
    (marked : node.scope? = some scope) : scope ∈ highlighter.scopesIn around := by
  have own := Node.mem_marks_of_scope? marked
  cases stems with
  | text start stop => exact nomatch marked
  | word words member => exact mem_scopesIn_of_word words member own
  | single taken member => exact taken.mem_scopesIn_of_single member own
  | part taken member proper =>
      obtain rfl := Option.some.inj marked
      exact taken.mem_scopesIn (taken.part_scope member)
  | container taken reaches inside member =>
      obtain ⟨given, hasScope⟩ := Option.ne_none_iff_exists'.mp (taken.isWhole whole)
      rw [hasScope] at member
      rw [List.mem_singleton.mp member] at marked
      exact taken.mem_scopesIn (Option.mem_toList.mpr (hasScope.trans marked))

/-- A marked node is plain text inside, or a container with what stems from inside it. -/
theorem Stems.children {scope : Scope} {start stop : Nat} {children : List Node}
    (stems : highlighter.Stems source around (.marked scope start stop children)) :
    children = [.text start stop] ∨
      ∃ index rule opened, highlighter.Takes source around start (.container index rule opened) ∧
        opened ≤ stop ∧ rule.scope = some scope ∧ highlighter.AllStem source (some rule) children := by
  have leaf : (Node.marked scope start stop children).IsLeaf → children = [.text start stop] := by
    intro isLeaf
    cases isLeaf
    rfl
  generalize same : Node.marked scope start stop children = node at stems leaf
  cases stems with
  | text => exact nomatch same
  | @word _ table _ _ _ words member => exact .inl (leaf (table.sort_leaves _ member))
  | @single _ index first last rule _ taken member =>
      refine .inl (leaf ?_)
      have member : node ∈ Yield.wrapped rule.scope first last
          (Yield.ofText source rule.words first last).nodes := member
      rcases taken.isWhole whole with noScope | noWords
      · rw [show rule.scope = none from noScope] at member
        cases words : rule.words with
        | none =>
            rw [words] at member
            rw [List.mem_singleton.mp member]
            exact .text first last
        | some table =>
            rw [words] at member
            exact table.sort_leaves _ (List.mem_reverse.mp member)
      · rw [show rule.words = none from noWords] at member
        cases given : rule.scope with
        | none =>
            rw [given] at member
            rw [List.mem_singleton.mp member]
            exact .text first last
        | some other =>
            rw [given] at member
            rw [List.mem_singleton.mp member]
            exact .leaf other first last
  | part => exact .inl (leaf (.leaf _ _ _))
  | @container _ index first opened last rule inner _ taken reaches inside member =>
      obtain ⟨given, hasScope⟩ := Option.ne_none_iff_exists'.mp (taken.isWhole whole)
      rw [hasScope] at member
      cases same.trans (List.mem_singleton.mp member)
      exact .inr ⟨index, rule, opened, taken, reaches, hasScope, inside⟩

theorem AllStem.occurs {siblings : List Node} {node : Node} (occurs : node.Occurs siblings) :
    ∀ {around : Option ContainerRule}, highlighter.AllStem source around siblings →
      ∃ inner, highlighter.Stems source inner node := by
  induction occurs with
  | here member => exact fun all => ⟨_, all _ member⟩
  | inside member occurs ih =>
      intro around all
      rcases (all _ member).children whole with rfl | ⟨_, rule, _, _, _, _, inside⟩
      · rw [occurs.eq_text]
        exact ⟨none, .text _ _⟩
      · exact ih inside

/-- Each marked node of a result is plain text inside, or a container whose children have scopes that it
can bring. -/
theorem highlight_nests {text : String} {result : Highlight}
    (highlighted : highlighter.highlight text = .ok result) {scope : Scope} {start stop : Nat}
    {children : List Node} (occurs : (Node.marked scope start stop children).Occurs result.nodes) :
    children = [.text start stop] ∨
      ∃ around index rule opened,
        highlighter.Takes (.ofString text) around start (.container index rule opened) ∧
        opened ≤ stop ∧ rule.scope = some scope ∧ highlighter.AllStem (.ofString text) (some rule) children := by
  obtain ⟨around, stems⟩ := AllStem.occurs whole occurs (highlight_stems highlighted)
  exact (stems.children whole).imp_right fun inside => ⟨around, inside⟩

end Whole

end Highlighter

end Highlighting
