import Highlighting.Proofs.Jacy
import Highlighting.Proofs.Pattern.Literal
import Highlighting.Proofs.Scan.Nesting

/-! # What may stand inside what in Jacy

Comments hold markers and, between `/*` and `*/`, comments. Attributes hold strings. Everything else that
is marked is one piece of text. -/
set_option autoImplicit false
namespace Highlighting.Jacy

/-- What a marked range of Jacy can have inside it. -/
structure NestsIn (source : Source) (scope : Scope) (start stop : Nat) (children : List Node) : Prop where
  comment : scope = .comment → ∀ child ∈ children, ∀ inner ∈ child.scope?,
    inner = .doctag ∨ inner = .comment ∧ ∃ rest, source.slice start stop = "/*" ++ rest
  metadata : scope = .metadata → ∀ child ∈ children, ∀ inner ∈ child.scope?, inner = .string
  plain : scope ≠ .comment → scope ≠ .metadata → children = [.text start stop]
  below : scope ∈ [.string, .comment, .metadata] → ∀ mark ∈ Node.marksAll children,
    mark.scope ∈ [Scope.doctag, .comment, .string]

/-- The containers of a language are comments, attributes and strings with what Jacy allows in them. -/
structure Allows (highlighter : Highlighter) : Prop where
  whole : ∀ rule ∈ highlighter.rules, rule.Whole
  containers : ∀ rule ∈ highlighter.containerRules,
    rule.scope = some .comment ∧ highlighter.scopesIn (some rule) = [.doctag] ∨
    rule.scope = some .comment ∧ highlighter.scopesIn (some rule) = [.comment, .doctag] ∧
      rule.opener = .ofPattern (.literal ['/', '*']) ∨
    rule.scope = some .metadata ∧ highlighter.scopesIn (some rule) = [.string] ∨
    rule.scope = some .string ∧ highlighter.scopesIn (some rule) = []

theorem allows : Allows highlighter := by
  rw [highlighter_eq]
  constructor <;> decide +kernel

section Allows
variable {highlighter : Highlighter} {source : Source} {around : Option ContainerRule}
  {index start opened stop : Nat} {rule : ContainerRule} {children : List Node}

theorem Allows.ignoring (allows : Allows highlighter) (ignore : Bool) :
    Allows (highlighter.ignoring ignore) :=
  ⟨allows.whole, allows.containers⟩

theorem Allows.scopesIn_subset (allows : Allows highlighter) :
    ∀ rule ∈ highlighter.containerRules,
      highlighter.scopesIn (some rule) ⊆ [Scope.doctag, .comment, .string] := by
  intro rule listed
  rcases allows.containers rule listed with ⟨_, inside⟩ | ⟨_, inside, _⟩ | ⟨_, inside⟩ | ⟨_, inside⟩ <;>
    simp [inside]

/-- A container that opens with two characters starts with them, however far it reaches. -/
theorem slice_of_opener (taken : highlighter.Takes source around start (.container index rule opened))
    (reaches : opened ≤ stop) (opener : rule.opener = .ofPattern (.literal ['/', '*'])) :
    ∃ rest, source.slice start stop = "/*" ++ rest := by
  obtain ⟨_, matched, same⟩ := Option.map_eq_some_iff.mp taken.listed.2.2
  cases same
  have ends := (Option.filter_eq_some_iff.mp matched).1
  rw [opener, Program.stop?_literal] at ends
  obtain ⟨stands, same⟩ := Option.ite_none_right_eq_some.mp ends
  have behind : start + ['/', '*'].length = opened := Option.some.inj same
  exact source.slice_of_prefix stands (behind ▸ reaches)

theorem Allows.container (allows : Allows highlighter) {scope : Scope}
    (filled : Node.Fills start stop children) (proper : start < stop)
    (taken : highlighter.Takes source around start (.container index rule opened))
    (reaches : opened ≤ stop) (hasScope : rule.scope = some scope)
    (inside : highlighter.AllStem source (some rule) children) :
    NestsIn source scope start stop children := by
  have listed : rule ∈ highlighter.containerRules := Highlighter.mem_containerRules taken.listed.2.1
  have brings : ∀ child ∈ children, ∀ inner ∈ child.scope?, inner ∈ highlighter.scopesIn (some rule) :=
    fun child member inner marked => (inside child member).scope_mem allows.whole marked
  have below : ∀ mark ∈ Node.marksAll children, mark.scope ∈ [Scope.doctag, .comment, .string] := by
    intro mark marks
    rw [Node.marksAll_eq] at marks
    obtain ⟨child, member, marks⟩ := List.mem_flatMap.mp marks
    exact (inside child member).marks_within allows.scopesIn_subset rfl listed mark marks
  have known := allows.containers rule listed
  simp only [hasScope, Option.some.injEq] at known
  rcases known with ⟨rfl, can⟩ | ⟨rfl, can, opener⟩ | ⟨rfl, can⟩ | ⟨rfl, can⟩
  · simp only [can, List.mem_singleton] at brings
    exact {
      comment := fun _ child member inner marked => .inl (brings child member inner marked)
      metadata := by simp
      plain := by simp
      below := fun _ => below }
  · simp only [can, List.mem_cons, List.not_mem_nil, or_false] at brings
    have opens := slice_of_opener taken reaches opener
    exact {
      comment := fun _ child member inner marked =>
        (brings child member inner marked).symm.imp_right fun isComment => ⟨isComment, opens⟩
      metadata := by simp
      plain := by simp
      below := fun _ => below }
  · simp only [can, List.mem_singleton] at brings
    exact {
      comment := by simp
      metadata := fun _ => brings
      plain := by simp
      below := fun _ => below }
  · -- Nothing is marked in a string, so that its nodes are one piece of text.
    have unmarked : ∀ child ∈ children, child.scope? = none := by
      intro child member
      rw [Option.eq_none_iff_forall_not_mem]
      intro inner marked
      simpa [can] using brings child member inner marked
    exact {
      comment := by simp
      metadata := by simp
      plain := fun _ _ => filled.eq_text proper unmarked
      below := fun _ => below }

end Allows

theorem text_nests (source : Source) (scope : Scope) (start stop : Nat) :
    NestsIn source scope start stop [.text start stop] where
  comment := by simp [Node.scope?]
  metadata := by simp [Node.scope?]
  plain _ _ := rfl
  below := by simp [Node.marksAll, Node.marks]

/-- Whatever is marked in Jacy has only inside it what its scope allows, whether illegal text is ignored
or not. -/
theorem marked_nests (ignore : Bool) (text : String) (result : Highlight)
    (highlighted : (highlighter.ignoring ignore).highlight text = .ok result) :
    ∀ scope start stop children, (Node.marked scope start stop children).Occurs result.nodes →
      NestsIn result.source scope start stop children := by
  intro scope start stop children occurs
  obtain ⟨source, formed⟩ := Highlighter.highlight_wellFormed (takesInOrder ignore _) highlighted
  have lenient := allows.ignoring ignore
  rw [source]
  rcases Highlighter.highlight_nests lenient.whole highlighted occurs with
    rfl | ⟨around, index, rule, opened, taken, reaches, hasScope, inside⟩
  · exact text_nests _ scope start stop
  · cases occurs.sound formed.sound with
    | marked proper tiled apart sound =>
        exact lenient.container ⟨tiled, apart, sound⟩ proper taken reaches hasScope inside

/-- Nested comments with a marker, an attribute with a string, a string with an escape and a comment up to
the end. -/
def nested : String :=
  "/*/*NOTE:*/*/#[\"d\"]\"e\\\"f\"//g"

theorem nested_nests :
    ∃ result, (highlighter.ignoring false).highlight nested = .ok result ∧
      result.scopes =
        [⟨.comment, 0, 13, 0⟩, ⟨.comment, 2, 11, 1⟩, ⟨.doctag, 4, 9, 2⟩, ⟨.metadata, 13, 19, 0⟩,
          ⟨.string, 15, 18, 1⟩, ⟨.string, 19, 25, 0⟩, ⟨.comment, 25, 28, 0⟩] ∧
      ∀ scope start stop children, (Node.marked scope start stop children).Occurs result.nodes →
        NestsIn result.source scope start stop children := by
  have scopes : ((highlighter.ignoring false).highlight nested).toOption.map (·.scopes) =
      some [⟨.comment, 0, 13, 0⟩, ⟨.comment, 2, 11, 1⟩, ⟨.doctag, 4, 9, 2⟩, ⟨.metadata, 13, 19, 0⟩,
        ⟨.string, 15, 18, 1⟩, ⟨.string, 19, 25, 0⟩, ⟨.comment, 25, 28, 0⟩] := by
    rw [highlighter_eq]
    decide +kernel
  cases highlighted : (highlighter.ignoring false).highlight nested with
  | error illegal =>
      rw [highlighted] at scopes
      exact nomatch scopes
  | ok result =>
      rw [highlighted] at scopes
      exact ⟨result, rfl, Option.some.inj scopes, marked_nests false nested result highlighted⟩

end Highlighting.Jacy
