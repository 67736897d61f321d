import Highlighting.Jacy
import Highlighting.Proofs.Pattern.Choices

/-! # The patterns of Jacy

What the pattern texts of Jacy are read as, and the rules that they make. Facts about the rules are
decided on this form, which has no text left to be read. -/
set_option autoImplicit false
namespace Highlighting.Jacy

namespace Patterns

def letters : CharSet :=
  (CharSet.range 'A' 'Z').union (.range 'a' 'z')

/-- Letters, digits and underscores of ASCII. -/
def wordChars : CharSet :=
  ((CharSet.range '0' '9').union letters).union (.single '_')

def nameStarts : CharSet :=
  letters.union (.single '_')

def one (c : Char) : Pattern :=
  .char (.single c)

def maybe (p : Pattern) : Pattern :=
  .rounds 0 (some 1) true p

def many (set : CharSet) : Pattern :=
  .rounds 0 none true (.char set)

def several (set : CharSet) : Pattern :=
  .rounds 1 none true (.char set)

def text (chars : String) : Pattern :=
  .literal chars.toList

def boundary : Pattern :=
  .check (.word true .boundary)

def name : Pattern :=
  .seq (.char nameStarts) (many wordChars)

section Ways
variable {text : Array Char} {limit : Nat} {m k : Match}

theorem mem_char_ways {set : CharSet} :
    k ∈ (Pattern.char set).ways text limit m ↔
      (m.stop < limit ∧ text[m.stop]?.any set.contains = true) ∧ k = { m with stop := m.stop + 1 } := by
  rw [Pattern.ways]
  split
  · next taken => simp only [List.mem_singleton, taken, and_self, true_and]
  · next stays => simp only [List.not_mem_nil, stays, false_and]

theorem mem_one_ways {c : Char} :
    k ∈ (one c).ways text limit m ↔
      (m.stop < limit ∧ text[m.stop]? = some c) ∧ k = { m with stop := m.stop + 1 } := by
  have here : text[m.stop]?.any (CharSet.single c).contains = true ↔ text[m.stop]? = some c := by
    simp [Option.any_eq_true, CharSet.contains_single]
  rw [one, mem_char_ways, here]

theorem mem_maybe_ways {p : Pattern} :
    k ∈ (maybe p).ways text limit m ↔ k ∈ p.ways text limit m ∨ k = m := by
  have once : (maybe p).ways text limit m = Ways.upTo true (p.ways text limit) 1 m :=
    List.flatMap_singleton _ m
  rw [once, Ways.upTo, Ways.mem_orElse, Ways.flatMap_upTo_zero]

/-- What any number of characters takes is in the set. -/
theorem mem_many_ways {set : CharSet} (member : k ∈ (many set).ways text limit m) :
    k.marks = m.marks ∧ m.stop ≤ k.stop ∧
      ∀ place, m.stop ≤ place → place < k.stop → text[place]?.any set.contains = true :=
  Pattern.mem_ways_run member

end Ways

/-! ## Comments -/

def lineEnd : Pattern :=
  .check (.lineEnd false)

def doctag : Pattern :=
  .seqs [boundary,
    .alts (["TODO", "FIXME", "NOTE", "BUG", "OPTIMIZE", "HACK", "XXX"].map text), one ':']

/-! ## Strings, characters and lifetimes -/

def string : Pattern :=
  .seq (maybe (one 'b')) (one '"')

def escape : Pattern :=
  .seq (one '\\') (.char .all)

def rawString : Pattern :=
  .seqs [maybe (one 'b'), one 'r', .capture 1 none (many (.single '#')), one '"']

def escaped (mark : Char) (count : Nat) : Pattern :=
  .seq (one mark) (.rounds count (some count) true (.char wordChars))

def character : Pattern :=
  .seqs [maybe (one 'b'), one '\'', maybe (one '\\'),
    .capture 1 none (.alts [escaped 'x' 2, escaped 'u' 4, escaped 'U' 8, .char .notNewline]), one '\'']

def lifetime : Pattern :=
  .seqs [one '\'', .char nameStarts, many wordChars]

/-! ## Numbers -/

/-- The type at the end of a number, whose groups are numbered from `group` on. -/
def suffix (group : Nat) : Pattern :=
  maybe (.capture group none (.alt
    (.seq (.char ((CharSet.single 'i').union (.single 'u')))
      (maybe (.capture (group + 1) none (.alts (["8", "16", "32", "64", "128"].map text)))))
    (.seq (one 'f') (.capture (group + 2) none (.alts (["32", "64"].map text))))))

/-- A zero, a letter and digits. -/
def number (base : Char) (digits : CharSet) : Pattern :=
  .seqs [boundary, one '0', one base, .capture 1 none (several digits), suffix 2]

def binaryDigits : CharSet :=
  (CharSet.range '0' '1').union (.single '_')

def octalDigits : CharSet :=
  (CharSet.range '0' '7').union (.single '_')

def hexadecimalDigits : CharSet :=
  (((CharSet.range '0' '9').union (.range 'A' 'F')).union (.single '_')).union (.range 'a' 'f')

def decimalDigits : CharSet :=
  (CharSet.range '0' '9').union (.single '_')

def fraction : Pattern :=
  maybe (.capture 2 none (.seq (one '.') (several decimalDigits)))

def exponent : Pattern :=
  maybe (.capture 3 none (.seqs [.char ((CharSet.single 'E').union (.single 'e')),
    maybe (.char ((CharSet.single '+').union (.single '-'))), several decimalDigits]))

def decimal : Pattern :=
  .seqs [boundary,
    .capture 1 none (.seqs [.char (.range '0' '9'), many decimalDigits, fraction, exponent]), suffix 4]

/-! ## Names behind keywords -/

def part (number : Nat) (p : Pattern) : Pattern :=
  .capture number (some (Parts.groupName number)) p

/-- A word, which does not start inside another one. -/
def keyword (chars : String) : Pattern :=
  .seqs (boundary :: chars.toList.map one)

def function : Pattern :=
  .seqs [part 1 (keyword "func"), part 2 (several .blank), part 3 name]

def binding : Pattern :=
  .seqs [part 1 (keyword "let"), part 2 (several .blank),
    part 3 (maybe (.seqs ("mut".toList.map one ++ [several .blank]))), part 4 name]

def loop : Pattern :=
  .seqs [part 1 (keyword "for"), part 2 (several .blank), part 3 name, part 4 (several .blank),
    part 5 (.seqs ("in".toList.map one ++ [boundary]))]

def typeAlias : Pattern :=
  .seqs [part 1 (keyword "type"), part 2 (several .blank), part 3 name]

def declaration : Pattern :=
  .seqs [part 1 (.seq boundary
      (.alts (["trait", "enum", "struct", "union", "impl", "for", "mod"].map text))),
    part 2 (several .blank), part 3 name]

/-! ## Paths, arrows and calls -/

def path : Pattern :=
  .seqs [.char letters, many wordChars, one ':', one ':']

def call : Pattern :=
  .seqs [boundary, .char letters, many wordChars, maybe (one '!')]

def parenthesis : Pattern :=
  .seq (many .blank) (one '(')

def word : Pattern :=
  .seqs [.char letters, many wordChars, maybe (one '!')]

/-! ## Operators -/

/-- The operators, longer spellings first. -/
def spellings : List String :=
  ["**=", "<<=", ">>=", "not", "and", "<=>", "===", "!==", "..=", "...", "+=", "-=", "*=", "/=", "%=",
    "&=", "|=", "^=", "**", "or", "<<", ">>", "==", "!=", "<=", ">=", "..", "::", "|>", "=", "+", "-",
    "*", "/", "%", "&", "|", "^", "~", "<", ">", ".", "$", "@"]

def operator : Pattern :=
  .alts (spellings.map text)

/-! ## Attributes -/

def attributes : Pattern :=
  .seqs [one '#', maybe (one '!'), one '[']

end Patterns

namespace Ready
open Patterns

/-- A match of the pattern has the scope. -/
def single (scope : Option Scope) (p : Pattern) (relevance : Nat) : SingleRule where
  scope := scope
  opener := .ofPattern p
  followedBy := none
  excluded := []
  fence := none
  words := none
  relevance := relevance

/-- A container of its own rules, without words and without illegal text. -/
def container (scope : Scope) (opener closer : Pattern) (rules : List Nat) : ContainerRule where
  scope := some scope
  opener := .ofPattern opener
  closer := .ofPattern closer
  rules := rules
  illegal := none
  words := none
  relevance := 1

def parts (p : Pattern) (scopes : List (Option Scope)) : PartsRule where
  pattern := .ofPattern p
  parts := scopes.zipIdx.map fun (scope, index) => (index + 1, scope)
  relevance := 1

def lineComment : ContainerRule := container .comment (text "//") lineEnd [1]

def doctag : SingleRule := single (some .doctag) Patterns.doctag 0

def blockComment : ContainerRule := container .comment (text "/*") (text "*/") [2, 3]

def string : ContainerRule := container .string Patterns.string (one '"') [5]

def escape : SingleRule := single none Patterns.escape 0

def rawString : SingleRule :=
  { single (some .string) Patterns.rawString 1 with fence := some ⟨1, '"', '#'⟩ }

def character : SingleRule := single (some .string) Patterns.character 1

def lifetime : SingleRule := single (some .symbol) Patterns.lifetime 1

def binary : SingleRule := single (some .number) (Patterns.number 'b' binaryDigits) 0

def octal : SingleRule := single (some .number) (Patterns.number 'o' octalDigits) 0

def hexadecimal : SingleRule := single (some .number) (Patterns.number 'x' hexadecimalDigits) 0

def decimal : SingleRule := single (some .number) Patterns.decimal 0

def function : PartsRule := parts Patterns.function [some .keyword, none, some .titleFunction]

def attributes : ContainerRule := container .metadata Patterns.attributes (one ']') [15]

def attributeString : ContainerRule := container .string (one '"') (one '"') []

def binding : PartsRule :=
  parts Patterns.binding [some .keyword, none, some .keyword, some .variableName]

def loop : PartsRule :=
  parts Patterns.loop [some .keyword, none, some .variableName, none, some .keyword]

def typeAlias : PartsRule := parts Patterns.typeAlias [some .keyword, none, some .titleClass]

def declaration : PartsRule := parts Patterns.declaration [some .keyword, none, some .titleClass]

/-- The vocabularies of Jacy with the pattern for its words. -/
def words : WordTable where
  pattern := .ofPattern word
  vocabularies := language.keywords.vocabularies
  operators := some (.ofPattern operator)

def pathKeywords : Keywords := { keyword := ["Self"], builtIn := builtInWords, operator := ["::"] }

def pathWords : WordTable where
  pattern := .ofPattern (several wordChars)
  vocabularies := pathKeywords.vocabularies
  operators := some (.ofPattern (text "::"))

def path : SingleRule := { single none Patterns.path 1 with words := some pathWords }

def arrow : SingleRule := single (some .punctuation) (text "->") 1

def call : SingleRule :=
  { single (some .titleFunctionInvoke) Patterns.call 0 with
    followedBy := some (.ofPattern parenthesis), excluded := keywordWords }

def rules : Array Rule :=
  #[.container lineComment, .single doctag, .container blockComment, .single doctag, .container string,
    .single escape, .single rawString, .single character, .single lifetime, .single binary,
    .single octal, .single hexadecimal, .single decimal, .parts function, .container attributes,
    .container attributeString, .parts binding, .parts loop, .parts typeAlias, .parts declaration,
    .single path, .single arrow, .single call]

/-- The rules outside of all containers. -/
def root : List Nat :=
  [0, 2, 4, 6, 7, 8, 9, 10, 11, 12, 13, 14, 16, 17, 18, 19, 20, 21, 22]

def highlighter : Highlighter where
  name := "Jacy"
  aliases := ["jc"]
  rules := rules
  root := root
  words := words
  illegal := some (.ofPattern (text "</"))

end Ready

/-- What is decided of listed characters looks at these alone, not at every character there is. -/
instance (priority := high) decidableListed {p : Char → Prop} [DecidablePred p] (chars : List Char) :
    Decidable (∀ c ∈ chars, p c) :=
  List.decidableBAll p chars

/-- The patterns of Jacy are read as these, and its rules are made of them. -/
theorem highlighter_eq : highlighter = Ready.highlighter := by
  decide +kernel

end Highlighting.Jacy
