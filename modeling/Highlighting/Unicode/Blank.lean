import Highlighting.Unicode.Ranges

/-! # White space

The vertical tab and the form feed are white space, as are the next-line character, the no-break
spaces and the two separators of lines and paragraphs. -/
set_option autoImplicit false
namespace Highlighting.Unicode

/-- The white space characters. -/
def blankRanges : List (Nat × Nat) :=
  [(0x09, 0x0D), (0x20, 0x20), (0x85, 0x85), (0xA0, 0xA0), (0x1680, 0x1680), (0x2000, 0x200A),
  (0x2028, 0x2029), (0x202F, 0x202F), (0x205F, 0x205F), (0x3000, 0x3000)]

def isBlank (c : Char) : Bool :=
  covers blankRanges c.toNat

end Highlighting.Unicode
