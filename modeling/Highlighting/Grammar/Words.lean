import Highlighting.Grammar.Basic
import Highlighting.Grammar.Error
import Highlighting.Pattern.Parser
import Highlighting.Pattern.Program

/-! # Word tables

A word table is what a set of vocabularies becomes: a pattern for words, the scope of each word, and a
pattern for the operators, longer spellings first. What reads the texts of patterns is a parameter, since
a reader may know more of them than `Pattern.parse?`, or refuse those that are too large. -/
set_option autoImplicit false
namespace Highlighting

namespace Pattern

/-- Tells which texts are patterns, and which pattern each of them is. -/
abbrev Reader := String → Option Pattern

/-- The program of a text that is a pattern. -/
def Reader.program? (reader : Reader) (text : String) : Option Program :=
  (reader text).map .ofPattern

end Pattern

/-- Reads the pattern of an owner. -/
def readPattern (owner : PatternOwner) (role : PatternRole) (text : String) (reader : Pattern.Reader) :
    Except GrammarError Pattern :=
  match reader text with
  | some pattern => .ok pattern
  | none => .error (.pattern owner role text)

/-- Reads a pattern and makes it ready to be matched. -/
def readProgram (owner : PatternOwner) (role : PatternRole) (text : String) (reader : Pattern.Reader) :
    Except GrammarError Program :=
  (readPattern owner role text reader).map .ofPattern

def readProgram? (owner : PatternOwner) (role : PatternRole) (text : Option String)
    (reader : Pattern.Reader) : Except GrammarError (Option Program) :=
  match text with
  | none => .ok none
  | some text => (readProgram owner role text reader).map some

theorem ok_of_bind {ε α β : Type} {first : Except ε α} {rest : α → Except ε β} {last : β}
    (both : first >>= rest = .ok last) : ∃ middle, first = .ok middle ∧ rest middle = .ok last := by
  cases first with
  | error e => exact nomatch both
  | ok middle => exact ⟨middle, rfl, both⟩

section Reading
variable {owner : PatternOwner} {role : PatternRole} {reader : Pattern.Reader}

theorem readPattern_eq_ok_iff {text : String} {pattern : Pattern} :
    readPattern owner role text reader = .ok pattern ↔ reader text = some pattern := by
  unfold readPattern
  cases reader text <;> simp

theorem readProgram_eq_ok_iff {text : String} {program : Program} :
    readProgram owner role text reader = .ok program ↔ reader.program? text = some program := by
  unfold readProgram readPattern Pattern.Reader.program?
  cases reader text <;> simp [Except.map]

theorem readProgram?_eq_ok {text : Option String}
    (known : ∀ given ∈ text, (reader.program? given).isSome = true) :
    readProgram? owner role text reader = .ok (text.bind reader.program?) := by
  cases text with
  | none => rfl
  | some given =>
      obtain ⟨program, made⟩ := Option.isSome_iff_exists.mp (known given rfl)
      rw [readProgram?, readProgram_eq_ok_iff.mpr made, Option.bind_some, made]
      rfl

theorem eq_of_readProgram? {text : Option String} {program : Option Program}
    (read : readProgram? owner role text reader = .ok program) : program = text.bind reader.program? := by
  cases text with
  | none => exact (Except.ok.inj read).symm
  | some given =>
      cases made : readProgram owner role given reader with
      | error error =>
          rw [readProgram?, made] at read
          exact nomatch read
      | ok known =>
          rw [readProgram?, made] at read
          cases read
          exact (readProgram_eq_ok_iff.mp made).symm

end Reading

/-- Puts a spelling before the first one that is not longer. -/
def insertByLength (spelling : String) : List String → List String
  | [] => [spelling]
  | other :: rest =>
      if spelling.utf8ByteSize < other.utf8ByteSize then other :: insertByLength spelling rest
      else spelling :: other :: rest

/-- Longer spellings first; those of one length keep their order. -/
def longestFirst (spellings : List String) : List String :=
  spellings.foldr insertByLength []

structure WordTable where
  pattern : Program
  vocabularies : List (Scope × List String)
  operators : Option Program
deriving DecidableEq, Repr

namespace WordTable

/-- The scope of a word: that of the first vocabulary that lists it. -/
def scope? (table : WordTable) (word : String) : Option Scope :=
  (table.vocabularies.find? (fun vocabulary => vocabulary.2.contains word)).map (·.1)

/-- How many different words there are. -/
def wordCount (table : WordTable) : Nat :=
  (table.vocabularies.flatMap (·.2)).eraseDups.length

/-- The pattern text for the operators: a choice between their spellings, longer ones first. -/
def operatorText (spellings : List String) : String :=
  String.ofList (Pattern.escapedChoice ((longestFirst spellings).map (·.toList)))

/-- The pattern text for the operators, if there are any. -/
def operatorText? (spellings : List String) : Option String :=
  if spellings.isEmpty then none else some (operatorText spellings)

theorem operatorText?_of_ne_nil {spellings : List String} (nonempty : spellings ≠ []) :
    operatorText? spellings = some (operatorText spellings) :=
  if_neg (mt List.isEmpty_iff.mp nonempty)

def ofKeywords (owner : PatternOwner) (keywords : Keywords)
    (reader : Pattern.Reader := Pattern.parse?) : Except GrammarError WordTable := do
  let pattern ← readProgram owner .word keywords.pattern reader
  let operators ← readProgram? owner .operators (operatorText? keywords.operator) reader
  return { pattern, operators, vocabularies := keywords.vocabularies }

def ofKeywords? (owner : PatternOwner) (keywords : Option Keywords)
    (reader : Pattern.Reader := Pattern.parse?) : Except GrammarError (Option WordTable) :=
  match keywords with
  | none => .ok none
  | some keywords => do
      let table ← ofKeywords owner keywords reader
      return some table

end WordTable

end Highlighting
