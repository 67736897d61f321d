/-! # Sets of characters given by ranges of code points -/
set_option autoImplicit false
namespace Highlighting.Unicode

/-- Whether one of the ranges, both ends included, holds the code point. -/
def covers : List (Nat × Nat) → Nat → Bool
  | [], _ => false
  | (first, last) :: rest, code => (first ≤ code && code ≤ last) || covers rest code

end Highlighting.Unicode
