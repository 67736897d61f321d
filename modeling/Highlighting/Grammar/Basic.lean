import Highlighting.Scope

/-! # Grammars

A language is described by vocabularies of words and by an ordered list of rules. A single rule gives
one scope to a whole match, a rule of parts one to each part of a match, and a container holds text
between an opener and a closer, with rules of its own. -/
set_option autoImplicit false
namespace Highlighting

/-- Words with a scope of their own, and the pattern for the words to look up. Operators are also
matched by their spelling. -/
structure Keywords where
  pattern : String := "[a-zA-Z0-9_]+"
  types : List String := []
  keyword : List String := []
  literal : List String := []
  builtIn : List String := []
  operator : List String := []
deriving DecidableEq, Repr

namespace Keywords

/-- The vocabularies; a word belongs to the first that lists it. -/
def vocabularies (keywords : Keywords) : List (Scope × List String) :=
  [(.type, keywords.types), (.keyword, keywords.keyword), (.literal, keywords.literal),
    (.builtIn, keywords.builtIn), (.operator, keywords.operator)]

end Keywords

/-- How a match that opens with marks closes: by `close`, the same marks again and no further mark.
The marks are what a group of the opener took. -/
structure Fence where
  group : Nat
  close : Char
  mark : Char
deriving DecidableEq, Repr

structure Single where
  scope : Option Scope := none
  opener : String := ""
  /-- What has to follow the match without being part of it. -/
  followedBy : Option String := none
  /-- Texts that do not count as a match. -/
  excluded : List String := []
  fence : Option Fence := none
  keywords : Option Keywords := none
  relevance : Nat := 1
deriving DecidableEq, Repr

/-- Patterns that match one after the other. Scopes are given by the number of the part, which counts
from one, and the first one given holds. -/
structure Parts where
  parts : List String := []
  scopes : List (Nat × Scope) := []
  relevance : Nat := 1
deriving DecidableEq, Repr

structure Container where
  /-- The name by which rule lists can refer to the container. -/
  name : Option String := none
  scope : Option Scope := none
  opener : String := ""
  closer : String := ""
  illegal : Option String := none
  keywords : Option Keywords := none
  relevance : Nat := 1
deriving DecidableEq, Repr

/-- An entry of a list of rules. -/
inductive Entry where
  | single (rule : Single)
  | parts (rule : Parts)
  | container (rule : Container) (rules : List Entry)
  /-- The container with this name. -/
  | named (name : String)
  /-- The container whose list the entry is in. -/
  | enclosing
deriving Repr

structure Language where
  name : String
  aliases : List String := []
  keywords : Keywords := {}
  /-- What must not stand outside of all rules. -/
  illegal : Option String := none
  rules : List Entry := []
deriving Repr

end Highlighting
