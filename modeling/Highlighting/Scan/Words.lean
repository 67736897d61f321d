import Highlighting.Grammar.Words
import Highlighting.Pattern.Match
import Highlighting.Text.Source
import Highlighting.Tree

/-! # Sorting text into words

A stretch of text is sorted by a word table: words that the table knows and operators get their scope,
and the rest stays plain. No word starts inside a longer identifier, wherever the stretch begins. -/
set_option autoImplicit false
namespace Highlighting

/-- Words that are common to so many languages that they do not count for one. -/
def commonWords : List String :=
  ["of", "and", "for", "in", "not", "or", "if", "then", "parent", "list", "value"]

/-- What has been sorted so far. -/
structure Sorting where
  /-- The nodes up to `last`, the latest first. -/
  nodes : List Node := []
  last : Nat
  hits : Nat := 0
  relevance : Nat := 0

namespace Sorting

/-- Marks a range, with the text before it left plain. -/
def mark (sorting : Sorting) (scope : Scope) (start stop relevance : Nat) : Sorting where
  nodes := Node.push (Node.push sorting.nodes (.text sorting.last start)) (.leaf scope start stop)
  last := stop
  hits := sorting.hits + 1
  relevance := sorting.relevance + relevance

/-- Leaves the rest of the stretch plain. -/
def finish (sorting : Sorting) (stop : Nat) : Sorting :=
  { sorting with nodes := Node.push sorting.nodes (.text sorting.last stop), last := stop }

end Sorting

namespace WordTable

/-- Whether a place is inside a run of identifier characters. -/
def insideIdentifier (source : Source) (place : Nat) : Bool :=
  0 < place && source.chars[place - 1]?.any Unicode.isIdentifier
    && source.chars[place]?.any Unicode.isIdentifier

/-- Looks up a candidate. An exclamation mark at the end of an unknown one is left to what follows, so
the place where the word ends is given too. -/
def lookUp (table : WordTable) (source : Source) (start stop : Nat) : Option Scope × Nat :=
  match table.scope? (source.slice start stop) with
  | some scope => (some scope, stop)
  | none =>
      if 1 < stop - start && source.chars[stop - 1]? == some '!' then
        (table.scope? (source.slice start (stop - 1)), stop - 1)
      else (none, stop)

/-- What a known word counts. -/
def worth (source : Source) (scope : Scope) (start stop : Nat) : Nat :=
  if scope = .operator ∨ source.slice start stop ∈ commonWords then 0 else 1

/-- Sorts from `place` to `stop`. Every turn passes a character. -/
def sortFrom (table : WordTable) (source : Source) (stop : Nat) : Nat → Nat → Sorting → Sorting
  | 0, _, sorting => sorting
  | room + 1, place, sorting =>
      if stop ≤ place then sorting
      else if insideIdentifier source place then
        sortFrom table source stop room
          (source.skip Unicode.isIdentifier stop (stop - place) place) sorting
      else
        match (table.pattern.stop? source.chars place stop).filter (place < ·) with
        | some candidate =>
            let (scope, wordStop) := table.lookUp source place candidate
            match scope with
            | some scope =>
                sortFrom table source stop room wordStop
                  (sorting.mark scope place wordStop (worth source scope place wordStop))
            | none => sortFrom table source stop room wordStop sorting
        | none =>
            match (table.operators.bind (·.stop? source.chars place stop)).filter (place < ·) with
            | some operatorStop =>
                sortFrom table source stop room operatorStop
                  (sorting.mark .operator place operatorStop 0)
            | none => sortFrom table source stop room (place + 1) sorting

def sort (table : WordTable) (source : Source) (start stop : Nat) : Sorting :=
  (table.sortFrom source stop (stop - start) start { last := start }).finish stop

end WordTable

end Highlighting
