/-! # Lines and columns

Positions count from zero. Only a line feed starts a line, and columns count characters. -/
set_option autoImplicit false
namespace Highlighting

structure Position where
  line : Nat := 0
  column : Nat := 0
deriving DecidableEq, Ord, Repr

namespace Position

/-- The position behind a character. -/
def advance (p : Position) (c : Char) : Position :=
  if c = '\n' then ⟨p.line + 1, 0⟩ else ⟨p.line, p.column + 1⟩

/-- The position behind a text that starts at `p`. -/
def behind (p : Position) (chars : List Char) : Position :=
  chars.foldl advance p

theorem behind_append (p : Position) (left right : List Char) :
    p.behind (left ++ right) = (p.behind left).behind right := by
  simp [behind]

def toString (p : Position) : String :=
  s!"{p.line}:{p.column}"

end Position

/-- The positions of the two ends of a range. -/
structure Span where
  start : Position
  stop : Position
deriving DecidableEq, Ord, Repr

namespace Span

def toString (span : Span) : String :=
  span.start.toString ++ "-" ++ span.stop.toString

end Span

end Highlighting
