import Highlighting.Pattern.Basic

/-! # Flags

Flags say how the text of a pattern is read. They can be changed inside a pattern, for the rest of a
group or for a group of its own. In verbose text blanks do not count, nor do comments, which run from a
number sign to the end of the line. -/
set_option autoImplicit false
namespace Highlighting.Pattern

/-- A setting that holds from where it is made to the end of the group. -/
inductive Flag where
  | ignoreCase
  | multiLine
  | dotAll
  | swapGreed
  | returnEnds
  | verbose
  | unicode
deriving DecidableEq, Repr

namespace Flag

def ofChar? : Char → Option Flag
  | 'i' => some ignoreCase
  | 'm' => some multiLine
  | 's' => some dotAll
  | 'U' => some swapGreed
  | 'R' => some returnEnds
  | 'x' => some verbose
  | 'u' => some unicode
  | _ => none

end Flag

structure Flags where
  ignoreCase : Bool := false
  multiLine : Bool := false
  dotAll : Bool := false
  swapGreed : Bool := false
  /-- Whether a carriage return ends a line as well. -/
  returnEnds : Bool := false
  verbose : Bool := false
  /-- Whether classes and case hold for all characters and not for ASCII alone. -/
  unicode : Bool := true
deriving DecidableEq, Repr

namespace Flags

def set (flags : Flags) (flag : Flag) (on : Bool) : Flags :=
  match flag with
  | .ignoreCase => { flags with ignoreCase := on }
  | .multiLine => { flags with multiLine := on }
  | .dotAll => { flags with dotAll := on }
  | .swapGreed => { flags with swapGreed := on }
  | .returnEnds => { flags with returnEnds := on }
  | .verbose => { flags with verbose := on }
  | .unicode => { flags with unicode := on }

def change (flags : Flags) (changes : List (Flag × Bool)) : Flags :=
  changes.foldl (fun flags (flag, on) => flags.set flag on) flags

/-- Adds the case variants of the members where case is ignored. -/
def caseSet (flags : Flags) (set : CharSet) : CharSet :=
  if flags.ignoreCase then
    if flags.unicode then set.closeCase else set.closeAsciiCase
  else set

/-- The complement of a set. Without Unicode there is none, since it would hold bytes that are no
characters. -/
def complement? (flags : Flags) (set : CharSet) : Option CharSet :=
  if flags.unicode then some set.complement else none

/-- What a dot stands for, which is nothing without Unicode. -/
def dot? (flags : Flags) : Option CharSet :=
  if !flags.unicode then none
  else if flags.dotAll then some .all
  else if flags.returnEnds then some (CharSet.ofList ['\n', '\r']).complement
  else some .notNewline

def lineStart (flags : Flags) : Assertion :=
  if flags.multiLine then .lineStart flags.returnEnds else .textStart

def lineEnd (flags : Flags) : Assertion :=
  if flags.multiLine then .lineEnd flags.returnEnds else .textEnd

/-- Drops blanks and comments. -/
def dropSpace (inComment : Bool) : List Char → List Char
  | [] => []
  | c :: rest =>
      if inComment then dropSpace (c != '\n') rest
      else if c == '#' then dropSpace true rest
      else if Unicode.isBlank c then dropSpace false rest
      else c :: rest

/-- The text behind blanks and comments that do not count. -/
def skip (flags : Flags) (text : List Char) : List Char :=
  if flags.verbose then dropSpace false text else text

/-- Takes characters that pass a test, up to a number of them, with what does not count around them. -/
def collect (flags : Flags) (test : Char → Bool) : Nat → List Char → List Char × List Char
  | 0, text => ([], flags.skip text)
  | count + 1, text =>
      match flags.skip text with
      | [] => ([], [])
      | c :: rest =>
          if test c then
            let (more, rest) := collect flags test count rest
            (c :: more, rest)
          else ([], c :: rest)

/-- Takes all characters that pass a test. -/
def collectAll (flags : Flags) (test : Char → Bool) (text : List Char) : List Char × List Char :=
  flags.collect test text.length text

end Flags

end Highlighting.Pattern
