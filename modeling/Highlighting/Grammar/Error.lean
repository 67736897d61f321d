import Highlighting.Text.Quoted

/-! # Errors in grammars -/
set_option autoImplicit false
namespace Highlighting

/-- Whose pattern it is. Rules are numbered in the order in which their definitions start. -/
inductive PatternOwner where
  | rule (index : Nat)
  | language (name : String)
deriving DecidableEq, Repr

namespace PatternOwner

def toString : PatternOwner → String
  | rule index => s!"rule #{index}"
  | language name => name

end PatternOwner

/-- What the pattern is for. -/
inductive PatternRole where
  | opener
  | lookahead
  | parts
  | closer
  | illegal
  | illegalMarker
  | word
  | operators
deriving DecidableEq, Repr

namespace PatternRole

def toString : PatternRole → String
  | opener => "begin"
  | lookahead => "lookahead"
  | parts => "groups"
  | closer => "end"
  | illegal => "illegal"
  | illegalMarker => "illegal marker"
  | word => "keyword pattern"
  | operators => "operator vocabulary"

end PatternRole

inductive GrammarError where
  /-- The text is no pattern. -/
  | pattern (owner : PatternOwner) (role : PatternRole) (text : String)
  /-- No container has the name. -/
  | unknownRule (name : String)
  /-- Two containers have the name. -/
  | duplicateRule (name : String)
  /-- A reference to the enclosing container outside of all containers. -/
  | enclosingOutside
deriving DecidableEq, Repr

namespace GrammarError

def context (owner : PatternOwner) (role : PatternRole) : String :=
  owner.toString ++ " " ++ role.toString

/-- What lies behind an error: for a pattern, that its text cannot be read. -/
def cause? : GrammarError → Option String
  | pattern _ _ _ => some "error parsing pattern 0"
  | _ => none

def message : GrammarError → String
  | pattern owner role text =>
      "invalid pattern " ++ quoted text ++ " in " ++ context owner role ++ ": error parsing pattern 0"
  | unknownRule name => "unknown rule reference " ++ quoted name
  | duplicateRule name => "duplicate rule name " ++ quoted name
  | enclosingOutside => "self reference outside of a nested rule"

end GrammarError

end Highlighting
