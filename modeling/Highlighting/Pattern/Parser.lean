import Highlighting.Pattern.Simple
import Highlighting.Pattern.Token

/-! # Reading patterns

`Pattern.parse?` reads the text of a pattern, token by token, with the groups that are still open on
a stack. It fails when a parenthesis has no partner, when a number of rounds has nothing to repeat,
when two groups have one name, when the text has no tokens, and when the text nests too deep. It knows no
classes by Unicode property, such as `\p{Greek}`, and it does not limit how large a program becomes; what
compiles a language takes another reader where that matters. -/
set_option autoImplicit false
namespace Highlighting.Pattern

/-- A member of a sequence or of a choice, as it is read. -/
structure Item where
  pattern : Pattern
  /-- How deep the text of the item nests. -/
  depth : Nat := 0
  /-- Whether a number of rounds may follow. -/
  repeatable : Bool := true

namespace Item

/-- Items one after the other. -/
def sequence (items : List Item) : Item where
  pattern := inOrder (items.map (·.pattern))
  depth := depthOf (items.map (·.depth))

/-- A choice between items. A lone one is no choice. -/
def choice : List Item → Item
  | [item] => item
  | items => { pattern := oneOf (items.map (·.pattern)), depth := depthOf (items.map (·.depth)) }

/-- Rounds of an item. -/
def rounds (item : Item) (least : Nat) (most : Option Nat) (greedy : Bool) : Item where
  pattern := repeated least most greedy item.pattern
  depth := item.depth + 1

end Item

/-- The choices read so far at one level of grouping: the finished ones and the items of the one that
is being read, the latest first. -/
structure Choices where
  finished : List Item := []
  items : List Item := []

namespace Choices

def push (choices : Choices) (item : Item) : Choices :=
  { choices with items := item :: choices.items }

def current (choices : Choices) : Item :=
  .sequence choices.items.reverse

def bar (choices : Choices) : Choices where
  finished := choices.current :: choices.finished

def item (choices : Choices) : Item :=
  .choice (choices.current :: choices.finished).reverse

/-- Repeats the last item. -/
def repeatLast? (choices : Choices) (least : Nat) (most : Option Nat) (greedy : Bool) :
    Option Choices :=
  match choices.items with
  | item :: items =>
      if item.repeatable then
        some { choices with items := item.rounds least most greedy :: items }
      else none
  | [] => none

end Choices

/-- A group that is still open, with what surrounds it. -/
structure OpenGroup where
  /-- Makes the group of its content. -/
  wrap : Pattern → Pattern
  flags : Flags
  choices : Choices

structure Reading where
  flags : Flags := {}
  choices : Choices := {}
  outer : List OpenGroup := []
  /-- How many capturing groups have been opened. -/
  groups : Nat := 0
  /-- The names of the groups that have been opened. -/
  names : List String := []

namespace Reading

def push (reading : Reading) (pattern : Pattern) : Reading :=
  { reading with choices := reading.choices.push { pattern } }

/-- Opens a group. Flags set inside it end with it. -/
def enter (reading : Reading) (wrap : Pattern → Pattern) (flags : Flags) : Reading :=
  { reading with
    flags := flags
    choices := {}
    outer := ⟨wrap, reading.flags, reading.choices⟩ :: reading.outer }

/-- Opens a capturing group. A name can be given once. -/
def enterCapture? (reading : Reading) (name : Option String) : Option Reading :=
  if name.any reading.names.contains then none
  else
    let number := reading.groups + 1
    some { reading.enter (.capture number name) reading.flags with
           groups := number, names := name.toList ++ reading.names }

/-- Closes the innermost group. -/
def leave? (reading : Reading) : Option Reading :=
  match reading.outer with
  | [] => none
  | group :: outer =>
      let content := reading.choices.item
      let item := { pattern := group.wrap content.pattern, depth := content.depth + 1 }
      some { reading with flags := group.flags, choices := group.choices.push item, outer }

def step? (reading : Reading) : Token → Option Reading
  | .literal c => some (reading.push (.char (reading.flags.caseSet (.single c))))
  | .set ⟨set, depth⟩ =>
      some { reading with choices := reading.choices.push { pattern := .char set, depth } }
  | .check assertion => some (reading.push (.check assertion))
  | .dot => reading.flags.dot?.map fun set => reading.push (.char set)
  | .caret => some (reading.push (.check reading.flags.lineStart))
  | .dollar => some (reading.push (.check reading.flags.lineEnd))
  | .bar => some { reading with choices := reading.choices.bar }
  | .openCapture name => reading.enterCapture? name
  | .openPlain changes => some (reading.enter id (reading.flags.change changes))
  | .change changes =>
      let item := { pattern := .empty, repeatable := false }
      some { reading with flags := reading.flags.change changes, choices := reading.choices.push item }
  | .close => reading.leave?
  | .rounds least most greedy =>
      (reading.choices.repeatLast? least most (greedy != reading.flags.swapGreed)).map
        fun choices => { reading with choices }

/-- What has been read, when no group is open any more. -/
def item? (reading : Reading) : Option Item :=
  if reading.outer.isEmpty then some reading.choices.item else none

/-- Reads a text to its end. Every token takes at least one character. -/
def read? (fuel : Nat) (reading : Reading) (text : List Char) : Option Item :=
  match fuel, reading.flags.skip text with
  | _, [] => reading.item?
  | 0, _ => none
  | fuel + 1, text => do
      let (token, rest) ← Token.next? reading.flags text
      let next ← reading.step? token
      read? fuel next rest

end Reading

/-- How deep the text of a pattern may nest: groups, repetitions, sets in brackets and their operators,
and sequences and choices of several items each add a level. -/
def nestingLimit : Nat := 250

def parse? (text : String) : Option Pattern := do
  let item ← Reading.read? text.toList.length {} text.toList
  if item.depth ≤ nestingLimit then some item.pattern else none

end Highlighting.Pattern
