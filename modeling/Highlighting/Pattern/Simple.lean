import Highlighting.Pattern.Basic

/-! # Simple forms

Patterns are put together in a simple form. Sequences and choices are flat, a choice between sets of
characters is one set, and choices that all start alike start with their common part. The last rule
decides what is preferred when the common part can match in several ways: each of its ways is tried
with every choice before the next way is. -/
set_option autoImplicit false
namespace Highlighting.Pattern

/-- The members of a sequence. -/
def members : Pattern → List Pattern
  | empty => []
  | seq first second => first.members ++ second.members
  | p => [p]

/-- The members of a choice. -/
def choices : Pattern → List Pattern
  | alt first second => first.choices ++ second.choices
  | p => [p]

/-- Patterns one after the other. -/
def inOrder (ps : List Pattern) : Pattern :=
  seqs (ps.flatMap members)

def isSingle : Pattern → Bool
  | char set => set.single?.isSome
  | _ => false

/-- Cuts a sequence into pieces: characters that follow each other are one piece, and every other
member is a piece of its own. -/
def pieces : List Pattern → List (List Pattern)
  | [] => []
  | p :: rest =>
      match pieces rest with
      | (q :: piece) :: others =>
          if p.isSingle && q.isSingle then (p :: q :: piece) :: others
          else [p] :: (q :: piece) :: others
      | others => [p] :: others

/-- The longest start that two lists share. -/
def sharedStart : List (List Pattern) → List (List Pattern) → List (List Pattern)
  | left :: lefts, right :: rights => if left = right then left :: sharedStart lefts rights else []
  | _, _ => []

/-- One set for choices that are all single characters, or all other sets. -/
def merged? (ps : List Pattern) : Option Pattern :=
  let sets := ps.filterMap fun
    | char set => some set
    | _ => none
  let singles := (ps.filter isSingle).length
  if sets.length = ps.length && (singles = 0 || singles = ps.length) then
    some (char (sets.foldr .union .none))
  else none

/-- A choice without a common start. -/
def select (ps : List Pattern) : Pattern :=
  let flat := ps.flatMap choices
  match flat with
  | [p] => p
  | flat => (merged? flat).getD (alts flat)

/-- Takes a common start of several pieces out of a choice; every choice has to be of more than one
piece. -/
def factored? (ps : List Pattern) : Option Pattern :=
  match ps.map fun p => pieces p.members with
  | first :: others =>
      let start := others.foldl sharedStart first
      if others.isEmpty || start.isEmpty || (first :: others).any (·.length < 2) then none
      else
        let ends := (first :: others).map fun pieces => inOrder (pieces.drop start.length).flatten
        some (inOrder (start.flatten ++ [select ends]))
  | [] => none

/-- A choice between patterns, the first of which is the most preferred one. -/
def oneOf (ps : List Pattern) : Pattern :=
  let flat := ps.flatMap choices
  match merged? flat with
  | some set => set
  | none => (factored? flat).getD (alts flat)

/-- Whether the pattern can only match the empty text. -/
def takesNothing : Pattern → Bool
  | empty | check _ => true
  | char _ => false
  | seq first second | alt first second => first.takesNothing && second.takesNothing
  | rounds _ most _ body => most.isSome && body.takesNothing
  | capture _ _ body => body.takesNothing

/-- Rounds of a pattern. More than one round of nothing is one round, and no round at all is nothing,
whatever groups there are in it. -/
def repeated (least : Nat) (most : Option Nat) (greedy : Bool) (body : Pattern) : Pattern :=
  let (least, most) :=
    if body.takesNothing then (min least 1, some (min (most.getD 1) 1)) else (least, most)
  if most = some 0 then empty
  else if least = 1 ∧ most = some 1 then body
  else rounds least most greedy body

end Highlighting.Pattern
