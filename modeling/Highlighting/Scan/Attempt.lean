import Highlighting.Highlighter
import Highlighting.Pattern.Match
import Highlighting.Text.Source

/-! # Trying rules

A rule is tried at one place. It counts only if it takes at least one character, and the first rule of
a list that does is taken. -/
set_option autoImplicit false
namespace Highlighting

namespace Fence

/-- The end of the first closer at or after `place`: the closing character, then the marks, and no
further mark behind them. There are `room` places left behind `place`. -/
def stop? (fence : Fence) (source : Source) (marks : List Char) : Nat → Nat → Option Nat
  | room, place =>
      let stop := place + 1 + marks.length
      if source.holdsAt (fence.close :: marks) place && source.chars[stop]? != some fence.mark then
        some stop
      else match room with
        | 0 => none
        | room + 1 => stop? fence source marks room (place + 1)

/-- What the fence's group took; nothing if it did not take part. -/
def marks (fence : Fence) (source : Source) (m : Match) : List Char :=
  match m.group? fence.group with
  | some group => source.part group.start group.stop
  | none => []

/-- Matches an opener and its closer. -/
def match? (fence : Fence) (opener : Program) (source : Source) (pos : Nat) : Option Nat :=
  match opener.match? source.chars pos source.size with
  | some m => fence.stop? source (fence.marks source m) (source.size - m.stop) m.stop
  | none => none

end Fence

namespace SingleRule

/-- Where the text of the rule ends, by its opener or by its fence. -/
def textStop? (rule : SingleRule) (source : Source) (pos : Nat) : Option Nat :=
  match rule.fence with
  | some fence => fence.match? rule.opener source pos
  | none => rule.opener.stop? source.chars pos source.size

def accepts (rule : SingleRule) (source : Source) (pos stop : Nat) : Bool :=
  pos < stop && !rule.excluded.contains (source.slice pos stop)
    && rule.followedBy.all fun lookahead =>
      (lookahead.stop? source.chars stop source.size).isSome

def stop? (rule : SingleRule) (source : Source) (pos : Nat) : Option Nat :=
  (rule.textStop? source pos).filter (rule.accepts source pos)

end SingleRule

/-- A part of a match: its range and its scope. -/
structure Part where
  start : Nat
  stop : Nat
  scope : Option Scope
deriving DecidableEq, Repr

namespace PartsRule

/-- The range of the group of each part. A group that did not take part has an empty range. -/
def locate (rule : PartsRule) (m : Match) : List Part :=
  rule.parts.map fun (number, scope) =>
    match m.group? number with
    | some group => ⟨group.start, group.stop, scope⟩
    | none => ⟨0, 0, scope⟩

end PartsRule

/-- A rule that has matched, with its number and the end of its match. -/
inductive Found where
  | single (index : Nat) (rule : SingleRule) (stop : Nat)
  | parts (index : Nat) (rule : PartsRule) (stop : Nat) (parts : List Part)
  | container (index : Nat) (rule : ContainerRule) (stop : Nat)
deriving DecidableEq, Repr

namespace Found

def index : Found → Nat
  | single index _ _ | parts index _ _ _ | container index _ _ => index

def stop : Found → Nat
  | single _ _ stop | parts _ _ stop _ | container _ _ stop => stop

def relevance : Found → Nat
  | single _ rule _ => rule.relevance
  | parts _ rule _ _ => rule.relevance
  | container _ rule _ => rule.relevance

end Found

namespace Rule

def match? (source : Source) (pos index : Nat) : Rule → Option Found
  | single rule => (rule.stop? source pos).map (.single index rule)
  | parts rule =>
      match rule.pattern.match? source.chars pos source.size with
      | some m => if pos < m.stop then some (.parts index rule m.stop (rule.locate m)) else none
      | none => none
  | container rule =>
      ((rule.opener.stop? source.chars pos source.size).filter (pos < ·)).map (.container index rule)

end Rule

namespace Highlighter

/-- The first rule of a list that matches. -/
def firstMatch? (highlighter : Highlighter) (source : Source) (pos : Nat) : List Nat → Option Found
  | [] => none
  | index :: rest =>
      match highlighter.rules[index]?.bind (·.match? source pos index) with
      | some found => some found
      | none => highlighter.firstMatch? source pos rest

end Highlighter

end Highlighting
