import Highlighting.Grammar.Common
import Highlighting.Registry

/-! # The Jacy language

The vocabularies and rules of Jacy. The rules are tried from top to bottom: loops over a name come
before declarations, which also start with `for`, and character literals before lifetimes. -/
set_option autoImplicit false
namespace Highlighting.Jacy

/-- The type that may stand at the end of a number. -/
def numberSuffix : String := "([ui](8|16|32|64|128)?|f(32|64))?"

def keywordWords : List String :=
  ["as", "break", "const", "continue", "else", "enum", "false", "func", "for", "if", "impl", "in",
    "let", "loop", "match", "mod", "move", "mut", "party", "priv", "pub", "ref", "return", "self",
    "Self", "static", "struct", "super", "trait", "true", "type", "use", "where", "while"]

def literalWords : List String :=
  ["true", "false", "Some", "None", "Ok", "Err"]

def builtInWords : List String := []

def typeWords : List String :=
  ["i8", "i16", "i32", "i64", "i128", "int", "u8", "u16", "u32", "u64", "u128", "uint", "f32",
    "f64", "str", "char", "bool", "Option", "Result", "String", "Vec"]

def operators : List String :=
  ["=", "+=", "-=", "*=", "/=", "%=", "**=", "<<=", ">>=", "&=", "|=", "^=", "+", "-", "*", "/",
    "%", "**", "not", "or", "and", "<<", ">>", "&", "|", "^", "~", "==", "!=", "<", ">", "<=", ">=",
    "<=>", "===", "!==", "..", "..=", ".", "::", "...", "|>", "$", "@"]

def blockComment : Container :=
  { Common.blockComment with name := some "block_comment" }

/-- Comments nest. -/
def blockCommentRules : List Entry := [.enclosing, .single Common.doctag]

/-- Strings and byte strings, which may go over several lines. -/
def string : Container :=
  { Common.quotedString with opener := r#"b?""#, illegal := none }

/-- Closed by a quote and as many `#` as stand before the opening one. -/
def rawString : Single where
  scope := some .string
  opener := r#"b?r(#*)""#
  fence := some ⟨1, '"', '#'⟩

def character : Single where
  scope := some .string
  opener := r"b?'\\?(x[a-zA-Z0-9_]{2}|u[a-zA-Z0-9_]{4}|U[a-zA-Z0-9_]{8}|.)'"

def lifetime : Single where
  scope := some .symbol
  opener := r"'[a-zA-Z_][a-zA-Z0-9_]*"

/-- A number with digits of this form. -/
def number (digits : String) : Single where
  scope := some .number
  opener := digits ++ numberSuffix
  relevance := 0

def binary : Single := number r"\b0b([01_]+)"

def octal : Single := number r"\b0o([0-7_]+)"

def hexadecimal : Single := number r"\b0x([A-Fa-f0-9_]+)"

def decimal : Single := number r"\b([0-9][0-9_]*(\.[0-9_]+)?([eE][+-]?[0-9_]+)?)"

def function : Parts where
  parts := [r"\bfunc", r"\s+", Common.underscoreIdentifier]
  scopes := [(1, .keyword), (3, .titleFunction)]

/-- `#[...]` and `#![...]`. -/
def attributes : Container where
  scope := some .metadata
  opener := r"#!?\["
  closer := r"\]"

/-- A string in an attribute, which has no escapes. -/
def attributeString : Container where
  scope := some .string
  opener := "\""
  closer := "\""

def binding : Parts where
  parts := [r"\blet", r"\s+", r"(?:mut\s+)?", Common.underscoreIdentifier]
  scopes := [(1, .keyword), (3, .keyword), (4, .variableName)]

def loop : Parts where
  parts := [r"\bfor", r"\s+", Common.underscoreIdentifier, r"\s+", r"in\b"]
  scopes := [(1, .keyword), (3, .variableName), (5, .keyword)]

def typeAlias : Parts where
  parts := [r"\btype", r"\s+", Common.underscoreIdentifier]
  scopes := [(1, .keyword), (3, .titleClass)]

def declaration : Parts where
  parts := [r"\b(?:trait|enum|struct|union|impl|for|mod)", r"\s+", Common.underscoreIdentifier]
  scopes := [(1, .keyword), (3, .titleClass)]

/-- A name with two colons, sorted by a small vocabulary of its own. -/
def path : Single where
  opener := Common.identifier ++ "::"
  keywords := some { keyword := ["Self"], builtIn := builtInWords, operator := ["::"] }

def arrow : Single where
  scope := some .punctuation
  opener := "->"

/-- A name before an opening parenthesis, with or without an exclamation mark. -/
def call : Single where
  scope := some .titleFunctionInvoke
  opener := r"\b" ++ Common.identifier ++ "!?"
  followedBy := some r"\s*\("
  excluded := keywordWords
  relevance := 0

def language : Language where
  name := "Jacy"
  aliases := ["jc"]
  keywords :=
    { pattern := Common.identifier ++ "!?"
      types := typeWords
      keyword := keywordWords
      literal := literalWords
      builtIn := builtInWords
      operator := operators }
  illegal := some "</"
  rules :=
    [.container Common.lineComment Common.commentRules,
      .container blockComment blockCommentRules,
      .container string Common.quotedStringRules,
      .single rawString,
      .single character,
      .single lifetime,
      .single binary,
      .single octal,
      .single hexadecimal,
      .single decimal,
      .parts function,
      .container attributes [.container attributeString []],
      .parts binding,
      .parts loop,
      .parts typeAlias,
      .parts declaration,
      .single path,
      .single arrow,
      .single call]

/-- The grammar of Jacy has no errors. -/
theorem compiles : (Highlighter.ofLanguage language).toOption.isSome = true := by
  decide +kernel

def highlighter : Highlighter :=
  (Highlighter.ofLanguage language).toOption.get compiles

def highlight (text : String) : Except IllegalText Highlight :=
  highlighter.highlight text

/-- The registry that holds Jacy only. -/
def registry : Registry :=
  ({} : Registry).register highlighter

end Highlighting.Jacy
