import Highlighting.Unicode.Blank
import Highlighting.Unicode.Digit
import Highlighting.Unicode.Folding
import Highlighting.Unicode.Word

/-! # Sets of characters

A set is a list of ranges of code points, both ends included. The ranges rise and never touch, so that
equal sets have equal lists. Code points for surrogates are no characters; the last character before
them and the first one behind them touch. -/
set_option autoImplicit false
namespace Highlighting

structure CharSet where
  ranges : List (Nat × Nat)
deriving DecidableEq, Repr

namespace CharSet

/-- The code point behind a character. -/
def following (code : Nat) : Nat :=
  if code = 0xD7FF then 0xE000 else code + 1

/-- The code point before a character. -/
def preceding (code : Nat) : Nat :=
  if code = 0xE000 then 0xD7FF else code - 1

/-- Adds a range to rising ranges and joins the ones that it touches. -/
def addRange (first last : Nat) : List (Nat × Nat) → List (Nat × Nat)
  | [] => [(first, last)]
  | (low, high) :: rest =>
      if following last < low then (first, last) :: (low, high) :: rest
      else if following high < first then (low, high) :: addRange first last rest
      else addRange (min low first) (max high last) rest

/-- What rising ranges leave out from `next` on. -/
def gaps (next : Nat) : List (Nat × Nat) → List (Nat × Nat)
  | [] => if next ≤ 0x10FFFF then [(next, 0x10FFFF)] else []
  | (low, high) :: rest =>
      if next < low then (next, preceding low) :: gaps (following high) rest
      else gaps (following high) rest

def none : CharSet := ⟨[]⟩

def all : CharSet := ⟨[(0, 0x10FFFF)]⟩

def single (c : Char) : CharSet := ⟨[(c.toNat, c.toNat)]⟩

def range (first last : Char) : CharSet := ⟨[(first.toNat, last.toNat)]⟩

/-- Word characters of every script. -/
def word : CharSet :=
  ⟨[(0x30, 0x39), (0x41, 0x5A), (0x5F, 0x5F), (0x61, 0x7A)] ++ Unicode.wordRanges⟩

def decimal : CharSet := ⟨(0x30, 0x39) :: Unicode.digitRanges⟩

def blank : CharSet := ⟨Unicode.blankRanges⟩

def contains (set : CharSet) (c : Char) : Bool :=
  Unicode.covers set.ranges c.toNat

def union (left right : CharSet) : CharSet :=
  ⟨left.ranges.foldr (fun range ranges => addRange range.1 range.2 ranges) right.ranges⟩

def complement (set : CharSet) : CharSet :=
  ⟨gaps 0 set.ranges⟩

def inter (left right : CharSet) : CharSet :=
  (left.complement.union right.complement).complement

def diff (left right : CharSet) : CharSet :=
  left.inter right.complement

def symmDiff (left right : CharSet) : CharSet :=
  (left.diff right).union (right.diff left)

def ofList (chars : List Char) : CharSet :=
  chars.foldr (fun c set => (single c).union set) none

/-- Every character but the line feed, which is what a dot stands for. -/
def notNewline : CharSet := (single '\n').complement

/-- The only character of the set, if there is just one. -/
def single? (set : CharSet) : Option Char :=
  match set.ranges with
  | [(first, last)] => if first = last then some (Char.ofNat first) else Option.none
  | _ => Option.none

/-- Adds the case variants of all members: characters are variants of each other when they fold to the
same character. -/
def closeCase (set : CharSet) : CharSet :=
  let folded := ofList ((Unicode.foldings.filter fun (c, target) =>
    set.contains c || set.contains target).map (·.2))
  let variants := (Unicode.foldings.filter fun (_, target) => folded.contains target).map (·.1)
  (ofList variants).union (folded.union set)

/-- Adds the case variants of all ASCII letters of the set. -/
def closeAsciiCase (set : CharSet) : CharSet :=
  let letters := (List.range 26).map fun i => (Char.ofNat (0x41 + i), Char.ofNat (0x61 + i))
  let added := (letters.filter fun (upper, lower) => set.contains upper || set.contains lower).flatMap
    fun (upper, lower) => [upper, lower]
  (ofList added).union set

/-- The classes of ASCII characters that are named in brackets, as in `[[:alpha:]]`. -/
def named? (name : String) : Option CharSet :=
  let upper := range 'A' 'Z'
  let lower := range 'a' 'z'
  let digit := range '0' '9'
  let alpha := upper.union lower
  let alnum := alpha.union digit
  match name with
  | "alnum" => some alnum
  | "alpha" => some alpha
  | "ascii" => some (range '\x00' '\x7F')
  | "blank" => some (ofList ['\t', ' '])
  | "cntrl" => some ((range '\x00' '\x1F').union (single '\x7F'))
  | "digit" => some digit
  | "graph" => some (range '!' '~')
  | "lower" => some lower
  | "print" => some (range ' ' '~')
  | "punct" => some ((range '!' '~').diff alnum)
  | "space" => some (ofList ['\t', '\n', '\x0B', '\x0C', '\r', ' '])
  | "upper" => some upper
  | "word" => some (alnum.union (single '_'))
  | "xdigit" => some (digit.union ((range 'A' 'F').union (range 'a' 'f')))
  | _ => Option.none

end CharSet

end Highlighting
