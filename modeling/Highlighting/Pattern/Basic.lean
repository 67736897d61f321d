import Highlighting.Pattern.CharSet

/-! # Patterns

A pattern describes texts that may stand at a place. The capturing groups of a pattern are numbered
from one in the order in which they open. -/
set_option autoImplicit false
namespace Highlighting

/-- What the characters around a place are, by whether they belong to a word. -/
inductive WordEdge where
  | boundary
  | noBoundary
  | start
  | stop
  | noWordBefore
  | noWordAfter
deriving DecidableEq, Repr

namespace WordEdge

def holds (before after : Bool) : WordEdge → Bool
  | boundary => before != after
  | noBoundary => before == after
  | start => !before && after
  | stop => before && !after
  | noWordBefore => !before
  | noWordAfter => !after

end WordEdge

/-- A condition on a place between two characters. A line ends with a line feed; where the carriage
return ends lines too, a pair of them ends one line and stays together. -/
inductive Assertion where
  | textStart
  | textEnd
  | lineStart (returnEnds : Bool)
  | lineEnd (returnEnds : Bool)
  | word (unicode : Bool) (edge : WordEdge)
deriving DecidableEq, Repr

namespace Assertion

/-- Word characters of every script, or of ASCII alone. -/
def isWord (unicode : Bool) (c : Char) : Bool :=
  if unicode then Unicode.isWord c else c.isAlphanum || c == '_'

/-- Conditions look at the whole text, also beyond the part that is searched. -/
def holds (text : Array Char) (pos : Nat) : Assertion → Bool :=
  let before := if pos = 0 then none else text[pos - 1]?
  let after := text[pos]?
  fun
    | textStart => pos == 0
    | textEnd => pos == text.size
    | lineStart returnEnds =>
        before.all (· == '\n') || (returnEnds && before == some '\r' && after != some '\n')
    | lineEnd false => after.all (· == '\n')
    | lineEnd true =>
        after.all (· == '\r') || (after == some '\n' && before != some '\r')
    | word unicode edge => edge.holds (before.any (isWord unicode)) (after.any (isWord unicode))

end Assertion

inductive Pattern where
  | empty
  | char (set : CharSet)
  | check (assertion : Assertion)
  | seq (first second : Pattern)
  /-- Prefers the first choice. -/
  | alt (first second : Pattern)
  /-- At least `least` and at most `most` rounds; a greedy one prefers more rounds. -/
  | rounds (least : Nat) (most : Option Nat) (greedy : Bool) (body : Pattern)
  /-- A capturing group. -/
  | capture (number : Nat) (name : Option String) (body : Pattern)
deriving DecidableEq, Repr

namespace Pattern

def seqs : List Pattern → Pattern
  | [] => empty
  | [p] => p
  | p :: rest => seq p (seqs rest)

/-- The first of the listed patterns is the most preferred one. -/
def alts : List Pattern → Pattern
  | [] => char .none
  | [p] => p
  | p :: rest => alt p (alts rest)

/-- The pattern for exactly this text. -/
def literal (text : List Char) : Pattern :=
  seqs (text.map fun c => char (.single c))

/-- The named groups with their numbers. -/
def namedGroups : Pattern → List (String × Nat)
  | empty | char _ | check _ => []
  | seq first second | alt first second => first.namedGroups ++ second.namedGroups
  | rounds _ _ _ body => body.namedGroups
  | capture number name body => (name.toList.map fun n => (n, number)) ++ body.namedGroups

def groupNumber? (p : Pattern) (name : String) : Option Nat :=
  p.namedGroups.lookup name

end Pattern

end Highlighting
