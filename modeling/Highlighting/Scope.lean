/-! # Scopes

The kinds of text that highlighting tells apart. A scope has a dotted name; in style classes each
component after the first carries as many underscores as components come before it. -/
set_option autoImplicit false
namespace Highlighting

inductive Scope where
  | keyword
  | type
  | literal
  | builtIn
  | operator
  | comment
  | doctag
  | string
  | number
  | symbol
  | metadata
  | titleFunction
  | titleFunctionInvoke
  | titleClass
  | variableName
  | punctuation
deriving DecidableEq, Ord, Repr

namespace Scope

def all : List Scope :=
  [keyword, type, literal, builtIn, operator, comment, doctag, string, number, symbol, metadata,
    titleFunction, titleFunctionInvoke, titleClass, variableName, punctuation]

def components : Scope → List String
  | keyword => ["keyword"]
  | type => ["type"]
  | literal => ["literal"]
  | builtIn => ["built_in"]
  | operator => ["operator"]
  | comment => ["comment"]
  | doctag => ["doctag"]
  | string => ["string"]
  | number => ["number"]
  | symbol => ["symbol"]
  | metadata => ["meta"]
  | titleFunction => ["title", "function"]
  | titleFunctionInvoke => ["title", "function", "invoke"]
  | titleClass => ["title", "class"]
  | variableName => ["variable"]
  | punctuation => ["punctuation"]

def name (scope : Scope) : String :=
  ".".intercalate scope.components

def ofName? (name : String) : Option Scope :=
  all.find? (·.name == name)

/-- The spelling of the scope in log lines. -/
def label : Scope → String
  | keyword => "Keyword"
  | type => "Type"
  | literal => "Literal"
  | builtIn => "BuiltIn"
  | operator => "Operator"
  | comment => "Comment"
  | doctag => "Doctag"
  | string => "String"
  | number => "Number"
  | symbol => "Symbol"
  | metadata => "Meta"
  | titleFunction => "TitleFunction"
  | titleFunctionInvoke => "TitleFunctionInvoke"
  | titleClass => "TitleClass"
  | variableName => "Variable"
  | punctuation => "Punctuation"

/-- The components after the first, each behind a space and with one more underscore than the last. -/
def suffixed (underscores : Nat) : List String → String
  | [] => ""
  | part :: rest =>
      " " ++ part ++ String.ofList (List.replicate underscores '_') ++ suffixed (underscores + 1) rest

/-- The style classes of the scope in HTML. -/
def styleClass (scope : Scope) : String :=
  match scope.components with
  | [] => "hljs-"
  | first :: rest => "hljs-" ++ first ++ suffixed 1 rest

theorem mem_all (scope : Scope) : scope ∈ all := by
  cases scope <;> decide

end Scope

end Highlighting
