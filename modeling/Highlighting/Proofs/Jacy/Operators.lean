import Highlighting.Proofs.Jacy
import Highlighting.Proofs.Scan.Catching

/-! # Operators in Jacy

No operator character of Jacy is left plain: each is part of an operator, of an arrow, of a number or of
a comment, a string or an attribute. And what is marked as an operator is one. -/
set_option autoImplicit false
namespace Highlighting.Jacy

/-- The operators of one character. -/
def operatorCharacters : List Char :=
  ['=', '+', '-', '*', '/', '%', '&', '|', '^', '~', '<', '>', '.', '$', '@']

/-- The scopes of text in which an operator character can be. -/
def operatorScopes : List Scope :=
  [.operator, .comment, .string, .metadata, .number, .punctuation]

/-- What is decided about a language whose operators are to be accounted for. -/
structure Marks (highlighter : Highlighter) : Prop where
  words : ∀ c ∈ operatorCharacters, highlighter.words.Catches Patterns.spellings operatorScopes c
  bars : ∀ c ∈ operatorCharacters, highlighter.Bars operatorScopes c
  tables : highlighter.tables = [Ready.words, Ready.pathWords]
  rules : ∀ rule ∈ highlighter.rules, Scope.operator ∉ rule.ownScopes

theorem marks : Marks highlighter := by
  rw [highlighter_eq]
  constructor <;> decide +kernel

theorem words_operatorsIn : Ready.words.OperatorsIn operators := by
  refine ⟨⟨Patterns.spellings, by decide +kernel, rfl⟩, ?_⟩
  decide +kernel

theorem pathWords_operatorsIn : Ready.pathWords.OperatorsIn operators := by
  refine ⟨⟨["::"], by decide +kernel, rfl⟩, ?_⟩
  decide +kernel

section Marks
variable {highlighter : Highlighter}

theorem Marks.ignoring (marks : Marks highlighter) (ignore : Bool) : Marks (highlighter.ignoring ignore) :=
  ⟨marks.words, marks.bars, marks.tables, marks.rules⟩

theorem Marks.operatorsIn (marks : Marks highlighter) :
    ∀ table ∈ highlighter.tables, table.OperatorsIn operators := by
  intro table listed
  rw [marks.tables] at listed
  simp only [List.mem_cons, List.not_mem_nil, or_false] at listed
  rcases listed with rfl | rfl
  · exact words_operatorsIn
  · exact pathWords_operatorsIn

end Marks

/-- Every operator character lies in an operator or in text that may have it, and every operator that is
marked is one of the language, whether illegal text is ignored or not. -/
theorem operators_accounted (ignore : Bool) (text : String) (result : Highlight)
    (highlighted : (highlighter.ignoring ignore).highlight text = .ok result) :
    (∀ before after : String, ∀ c ∈ operatorCharacters, text = before ++ String.singleton c ++ after →
      ∃ region ∈ result.regions, region.scope ∈ operatorScopes ∧
        region.start ≤ before.utf8ByteSize ∧ before.utf8ByteSize < region.stop) ∧
    ∀ region ∈ result.regions, region.scope = .operator → region.text ∈ operators := by
  have inOrder := takesInOrder ignore (.ofString text)
  obtain ⟨source, _⟩ := Highlighter.highlight_wellFormed inOrder highlighted
  have marks := marks.ignoring ignore
  constructor
  · intro before after c listed stands
    exact Highlighter.highlight_catches ⟨marks.words c listed, marks.bars c listed⟩ inOrder highlighted
      stands
  · exact Highlighter.highlight_operators marks.operatorsIn marks.rules source highlighted

/-- An operator of two characters, a number with a point, an arrow and a string. -/
def comparison : String :=
  "x<=1.5->\"&\""

theorem comparison_accounted :
    ∃ result, (highlighter.ignoring false).highlight comparison = .ok result ∧
      result.scopes =
        [⟨.operator, 1, 3, 0⟩, ⟨.number, 3, 6, 0⟩, ⟨.punctuation, 6, 8, 0⟩, ⟨.string, 8, 11, 0⟩] ∧
      (∀ before after : String, ∀ c ∈ operatorCharacters,
        comparison = before ++ String.singleton c ++ after →
          ∃ region ∈ result.regions, region.scope ∈ operatorScopes ∧
            region.start ≤ before.utf8ByteSize ∧ before.utf8ByteSize < region.stop) ∧
      ∀ region ∈ result.regions, region.scope = .operator → region.text ∈ operators := by
  have scopes : ((highlighter.ignoring false).highlight comparison).toOption.map (·.scopes) =
      some [⟨.operator, 1, 3, 0⟩, ⟨.number, 3, 6, 0⟩, ⟨.punctuation, 6, 8, 0⟩, ⟨.string, 8, 11, 0⟩] := by
    rw [highlighter_eq]
    decide +kernel
  cases highlighted : (highlighter.ignoring false).highlight comparison with
  | error illegal =>
      rw [highlighted] at scopes
      exact nomatch scopes
  | ok result =>
      rw [highlighted] at scopes
      exact ⟨result, rfl, Option.some.inj scopes,
        operators_accounted false comparison result highlighted⟩

end Highlighting.Jacy
