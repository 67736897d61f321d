import Highlighting.Pattern.Escape

/-! # Sets in brackets

A set in brackets lists characters, ranges, escaped classes and further sets in brackets. Its parts
can be combined by `&&` (both), `--` (the first without the second) and `~~` (exactly one), which
bind alike and from the left. Where case is ignored, the sides of an operator and the whole of a
bracket are closed under case before they are combined or negated. -/
set_option autoImplicit false
namespace Highlighting.Pattern

/-- How deep several things nest that stand side by side: one alone adds nothing. -/
def depthOf : List Nat → Nat
  | [] => 0
  | [depth] => depth
  | depths => depths.foldl max 0 + 1

/-- A set of characters, with how deep its text nests. -/
structure NestedSet where
  set : CharSet
  depth : Nat := 0
deriving DecidableEq, Repr

/-- A bracket that is still open. -/
structure Bracket where
  negated : Bool
  /-- What stands before the last operator, and the operator, which waits for its right side. -/
  pending : Option (NestedSet × (CharSet → CharSet → CharSet)) := none
  /-- The members listed since then, the latest first. -/
  members : List NestedSet := []

namespace Bracket

def add (bracket : Bracket) (set : NestedSet) : Bracket :=
  { bracket with members := set :: bracket.members }

/-- The members of a bracket that were listed last, as one set. -/
def listed (bracket : Bracket) : NestedSet where
  set := (bracket.members.map (·.set)).foldr .union .none
  depth := depthOf (bracket.members.map (·.depth))

/-- What has been read of a bracket. -/
def content (flags : Flags) (bracket : Bracket) : NestedSet :=
  let right := bracket.listed
  match bracket.pending with
  | none => right
  | some (left, combine) =>
      { set := combine (flags.caseSet left.set) (flags.caseSet right.set)
        depth := depthOf [left.depth, right.depth] }

def operate (flags : Flags) (combine : CharSet → CharSet → CharSet) (bracket : Bracket) : Bracket :=
  { bracket with pending := some (bracket.content flags, combine), members := [] }

/-- Closes a set under case, and takes its complement if it is negated. -/
def negate? (flags : Flags) (negated : Bool) (set : CharSet) : Option CharSet :=
  let set := flags.caseSet set
  if negated then flags.complement? set else some set

/-- The set that a bracket stands for. -/
def close? (flags : Flags) (bracket : Bracket) : Option NestedSet :=
  let content := bracket.content flags
  (negate? flags bracket.negated content.set).map fun set => { set, depth := content.depth + 1 }

/-- Reads what follows an opening bracket up to the first proper member. Dashes at the start are
members, and a closing bracket that comes before any member is one itself. -/
def start (flags : Flags) (text : List Char) : Bracket × List Char :=
  let (negated, text) := match flags.skip text with
    | '^' :: rest => (true, rest)
    | text => (false, text)
  let (dashes, text) := flags.collectAll (· == '-') text
  let members := dashes.map fun c => { set := .single c : NestedSet }
  match members, text with
  | [], ']' :: rest => ({ negated, members := [{ set := .single ']' }] }, rest)
  | members, text => ({ negated, members }, text)

/-- A class with a name between colons, where the text follows the opening bracket, and whether it is
negated. -/
def named? : List Char → Option (CharSet × Bool × List Char)
  | ':' :: rest =>
      let (negated, rest) := match rest with
        | '^' :: rest => (true, rest)
        | rest => (false, rest)
      match rest.span (· != ':') with
      | (name, ':' :: ']' :: rest) =>
          (CharSet.named? (String.ofList name)).map fun set => (set, negated, rest)
      | _ => none
  | _ => none

/-- A single character or escape of a bracket. -/
def item? (flags : Flags) : List Char → Option (Escape × List Char)
  | [] => none
  | '\\' :: rest => Escape.next? flags rest
  | c :: rest => some (.literal c, rest)

/-- The character that an item stands for. Without Unicode a bracket lists ASCII alone. -/
def char? (flags : Flags) (item : Escape) : Option Char :=
  (item.char? flags).filter fun c => flags.unicode || c.toNat < 0x80

/-- A member: an item, or a range between two characters. A dash before a dash or before a closing
bracket makes no range. -/
def member? (flags : Flags) (text : List Char) : Option (CharSet × List Char) := do
  let (first, rest) ← item? flags text
  let alone := ((char? flags first).map CharSet.single <|> first.class? flags).map (·, rest)
  match flags.skip rest with
  | '-' :: rest =>
      match flags.skip rest with
      | ']' :: _ => alone
      | '-' :: _ => alone
      | rest =>
          let (last, rest) ← item? flags rest
          let first ← char? flags first
          let last ← char? flags last
          if first ≤ last then some (.range first last, rest) else none
  | _ => alone

/-- Reads to the end of the outermost bracket. Every turn takes at least one character. -/
def read? (flags : Flags) :
    Nat → Bracket → List Bracket → List Char → Option (NestedSet × List Char)
  | 0, _, _, _ => none
  | fuel + 1, bracket, outer, text =>
      match flags.skip text with
      | [] => none
      | ']' :: rest =>
          match bracket.close? flags, outer with
          | none, _ => none
          | some closed, [] => some (closed, rest)
          | some closed, enclosing :: outer => read? flags fuel (enclosing.add closed) outer rest
      | '[' :: rest =>
          match named? rest with
          | some (set, negated, rest) =>
              match negate? flags negated set with
              | some set => read? flags fuel (bracket.add { set }) outer rest
              | none => none
          | none =>
              let (inner, rest) := start flags rest
              read? flags fuel inner (bracket :: outer) rest
      | '&' :: '&' :: rest => read? flags fuel (bracket.operate flags .inter) outer rest
      | '-' :: '-' :: rest => read? flags fuel (bracket.operate flags .diff) outer rest
      | '~' :: '~' :: rest => read? flags fuel (bracket.operate flags .symmDiff) outer rest
      | text =>
          match member? flags text with
          | some (set, rest) => read? flags fuel (bracket.add { set }) outer rest
          | none => none

/-- The set in brackets whose opening bracket stands before the text. -/
def next? (flags : Flags) (text : List Char) : Option (NestedSet × List Char) :=
  let (bracket, rest) := start flags text
  read? flags (rest.length + 1) bracket [] rest

end Bracket

end Highlighting.Pattern
