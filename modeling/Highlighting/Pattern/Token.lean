import Highlighting.Pattern.Bracket
import Highlighting.Unicode.Alphanumeric

/-! # Tokens of pattern text

The text of a pattern is a sequence of tokens. Where one token ends does not depend on the tokens
around it, only on the text that follows and on the flags that hold there. -/
set_option autoImplicit false
namespace Highlighting.Pattern

inductive Token where
  | literal (c : Char)
  | set (set : NestedSet)
  | check (assertion : Assertion)
  | dot
  | caret
  | dollar
  | bar
  | openCapture (name : Option String)
  | openPlain (change : List (Flag × Bool))
  | change (change : List (Flag × Bool))
  | close
  | rounds (least : Nat) (most : Option Nat) (greedy : Bool)
deriving DecidableEq, Repr

namespace Token

/-- The token of an escape. -/
def ofEscape? (flags : Flags) (escape : Escape) : Option Token :=
  match escape with
  | .edge edge => some (check (.word flags.unicode edge))
  | .check assertion => some (check assertion)
  | escape => (escape.char? flags).map literal <|> (escape.class? flags).map fun s => set { set := s }

/-- A question mark after a number of rounds asks for few rounds rather than many. -/
def lazily (least : Nat) (most : Option Nat) : List Char → Token × List Char
  | '?' :: rest => (rounds least most false, rest)
  | rest => (rounds least most true, rest)

/-- A decimal number of at most 32 bits with blanks around it. -/
def decimal? (flags : Flags) (text : List Char) : Option (Nat × List Char) :=
  match flags.collectAll Char.isDigit (text.dropWhile Unicode.isBlank) with
  | ([], _) => none
  | (digits, rest) =>
      let value := digits.foldl (fun n c => n * 10 + (c.toNat - 48)) 0
      if value < Nat.pow 2 32 then some (value, rest.dropWhile Unicode.isBlank) else none

/-- The bounds of a number of rounds, after its opening brace. -/
def braces? (flags : Flags) (text : List Char) : Option (Token × List Char) := do
  let bounded (least : Nat) (most : Option Nat) (rest : List Char) :=
    some (lazily least most (flags.skip rest))
  let (least, rest) ← decimal? flags (flags.skip text)
  match rest with
  | '\x7d' :: rest => bounded least (some least) rest
  | ',' :: rest =>
      match flags.skip rest with
      | '\x7d' :: rest => bounded least none rest
      | rest =>
          let (most, rest) ← decimal? flags rest
          match rest with
          | '\x7d' :: rest => if least ≤ most then bounded least (some most) rest else none
          | _ => none
  | _ => none

def startsName (c : Char) : Bool :=
  c == '_' || Unicode.isAlphabetic c

def continuesName (c : Char) : Bool :=
  ['_', '.', '[', ']'].contains c || Unicode.isAlphanumeric c

/-- The name of a group up to its closing angle bracket. -/
def name? (text : List Char) : Option (Token × List Char) :=
  match text.span (· != '>') with
  | (first :: others, _ :: rest) =>
      if startsName first && others.all continuesName then
        some (openCapture (some (String.ofList (first :: others))), rest)
      else none
  | _ => none

/-- Flags that are set and, after a dash, cleared. No flag comes twice, and a dash has a flag after it.
With no flag at all only a group can follow. -/
def flags? (changed : List (Flag × Bool)) (on afterDash : Bool) : List Char → Option (Token × List Char)
  | [] => none
  | c :: rest =>
      if c == ':' then
        if afterDash then none else some (openPlain changed, rest)
      else if c == ')' then
        if afterDash || changed.isEmpty then none else some (change changed, rest)
      else if c == '-' then
        if on then flags? changed false true rest else none
      else
        match Flag.ofChar? c with
        | none => none
        | some flag =>
            if (changed.lookup flag).isSome then none
            else flags? (changed ++ [(flag, on)]) on false rest

/-- What an opening parenthesis opens. Looking around without taking part in the match is refused. -/
def open? (text : List Char) : Option (Token × List Char) :=
  match text with
  | '?' :: 'P' :: '<' :: rest => name? rest
  | '?' :: '<' :: rest =>
      match rest with
      | '=' :: _ => none
      | '!' :: _ => none
      | rest => name? rest
  | '?' :: rest => flags? [] true false rest
  | rest => some (openCapture none, rest)

def next? (flags : Flags) : List Char → Option (Token × List Char)
  | [] => none
  | c :: rest =>
      match c with
      | '\\' => do
          let (escape, rest) ← Escape.next? flags rest
          let token ← ofEscape? flags escape
          return (token, rest)
      | '[' => (Bracket.next? flags rest).map fun (s, rest) => (set s, rest)
      | '(' => open? (flags.skip rest)
      | ')' => some (close, rest)
      | '|' => some (bar, rest)
      | '.' => some (dot, rest)
      | '^' => some (caret, rest)
      | '$' => some (dollar, rest)
      | '*' => some (lazily 0 none rest)
      | '+' => some (lazily 1 none rest)
      | '?' => some (lazily 0 (some 1) rest)
      | '\x7b' => braces? flags rest
      | c => some (literal c, rest)

end Token

end Highlighting.Pattern
