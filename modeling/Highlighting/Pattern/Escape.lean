import Highlighting.Pattern.Flags

/-! # Escapes

What may follow a backslash in a pattern: punctuation that stands for itself, control characters,
code points in hexadecimal, classes, and conditions on a place. Text becomes part of a pattern without
any meaning of its own when a backslash stands before each character that has one. -/
set_option autoImplicit false
namespace Highlighting.Pattern

/-- A class of characters that an escape names. -/
inductive NamedClass where
  | decimal
  | blank
  | word
deriving DecidableEq, Repr

namespace NamedClass

def set (unicode : Bool) : NamedClass → CharSet
  | decimal => if unicode then .decimal else .range '0' '9'
  | blank => if unicode then .blank else .ofList ['\t', '\n', '\x0B', '\x0C', '\r', ' ']
  | word =>
      if unicode then .word
      else (CharSet.range '0' '9').union
        ((CharSet.range 'A' 'Z').union ((CharSet.single '_').union (.range 'a' 'z')))

end NamedClass

inductive Escape where
  | literal (c : Char)
  /-- A character given by two hexadecimal digits. -/
  | byte (c : Char)
  | named (kind : NamedClass) (negated : Bool)
  | edge (edge : WordEdge)
  | check (assertion : Assertion)
deriving DecidableEq, Repr

namespace Escape

/-- The character that an escape stands for. Without Unicode two digits stand for a byte, which is a
character only in ASCII. -/
def char? (flags : Flags) : Escape → Option Char
  | literal c => some c
  | byte c => if flags.unicode || c.toNat < 0x80 then some c else none
  | _ => none

/-- The class that an escape stands for. -/
def class? (flags : Flags) : Escape → Option CharSet
  | named kind negated =>
      let set := kind.set flags.unicode
      if negated then flags.complement? set else some set
  | _ => none

def hexDigit? (c : Char) : Option Nat :=
  if '0' ≤ c ∧ c ≤ '9' then some (c.toNat - 48)
  else if 'a' ≤ c ∧ c ≤ 'f' then some (c.toNat - 87)
  else if 'A' ≤ c ∧ c ≤ 'F' then some (c.toNat - 55)
  else none

def hexNumber? (digits : List Char) : Option Nat :=
  digits.foldlM (fun value c => (hexDigit? c).map (value * 16 + ·)) 0

/-- The character with this hexadecimal number; surrogates are no characters. -/
def ofHex? (digits : List Char) : Option Char := do
  if digits.isEmpty then none
  let code ← hexNumber? digits
  if code.isValidChar then some (Char.ofNat code) else none

/-- A code point of a fixed number of digits, or of any number of them in braces. -/
def hex? (flags : Flags) (count : Nat) (text : List Char) : Option (Escape × List Char) :=
  match flags.skip text with
  | '\x7b' :: rest =>
      match flags.collectAll (· != '\x7d') rest with
      | (digits, _ :: rest) => (ofHex? digits).map fun c => (literal c, rest)
      | (_, []) => none
  | rest =>
      let (digits, rest) := flags.collect (fun c => (hexDigit? c).isSome) count rest
      if digits.length < count then none
      else (ofHex? digits).map fun c => (if count = 2 then byte c else literal c, rest)

/-- A word boundary, or one of the special ones that are named in braces. Braces that hold neither
letters nor a dash are left for a repetition. -/
def boundary? (flags : Flags) : List Char → Option (Escape × List Char)
  | '\x7b' :: rest =>
      let isName c := c.isAlpha || c == '-'
      match flags.skip rest with
      | [] => none
      | c :: _ =>
          if isName c then
            match flags.collectAll isName rest with
            | (name, '\x7d' :: rest) =>
                match String.ofList name with
                | "start" => some (edge .start, rest)
                | "end" => some (edge .stop, rest)
                | "start-half" => some (edge .noWordBefore, rest)
                | "end-half" => some (edge .noWordAfter, rest)
                | _ => none
            | _ => none
          else some (edge .boundary, '\x7b' :: rest)
  | rest => some (edge .boundary, rest)

/-- ASCII punctuation and controls stand for themselves, the angle brackets apart. -/
def standsForItself (c : Char) : Bool :=
  c.toNat < 0x80 && !c.isAlphanum && c != '<' && c != '>'

def next? (flags : Flags) : List Char → Option (Escape × List Char)
  | [] => none
  | 'x' :: rest => hex? flags 2 rest
  | 'u' :: rest => hex? flags 4 rest
  | 'U' :: rest => hex? flags 8 rest
  | 'b' :: rest => boundary? flags rest
  | c :: rest =>
      let plain (escape : Escape) := some (escape, rest)
      match c with
      | 'd' => plain (named .decimal false)
      | 'D' => plain (named .decimal true)
      | 's' => plain (named .blank false)
      | 'S' => plain (named .blank true)
      | 'w' => plain (named .word false)
      | 'W' => plain (named .word true)
      | 'a' => plain (literal '\x07')
      | 'f' => plain (literal '\x0C')
      | 't' => plain (literal '\t')
      | 'n' => plain (literal '\n')
      | 'r' => plain (literal '\r')
      | 'v' => plain (literal '\x0B')
      | 'A' => plain (check .textStart)
      | 'z' => plain (check .textEnd)
      | 'B' => plain (edge .noBoundary)
      | '<' => plain (edge .start)
      | '>' => plain (edge .stop)
      | c => if standsForItself c then plain (literal c) else none

end Escape

/-! ## Escaped text -/

/-- The characters that mean something in a pattern. -/
def metaCharacters : List Char :=
  ['\\', '.', '+', '*', '?', '(', ')', '|', '[', ']', '\x7b', '\x7d', '^', '$', '#', '&', '-', '~']

def escapedChar (c : Char) : List Char :=
  if c ∈ metaCharacters then ['\\', c] else [c]

def escaped (text : List Char) : List Char :=
  text.flatMap escapedChar

/-- The pattern text of a choice between literal texts. -/
def escapedChoice : List (List Char) → List Char
  | [] => []
  | [text] => escaped text
  | text :: rest => escaped text ++ '|' :: escapedChoice rest

end Highlighting.Pattern
