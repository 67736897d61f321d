/-! # Maps on characters given by runs

A run moves every `step`-th character from `first` to `last` by one distance. Alternating capital
and small letters make runs of step two. -/
set_option autoImplicit false
namespace Highlighting.Unicode

structure Run where
  first : Nat
  last : Nat
  step : Nat
  distance : Int

namespace Run

def holds (run : Run) (code : Nat) : Bool :=
  run.first ≤ code && code ≤ run.last && (code - run.first) % run.step == 0

def image (run : Run) (code : Nat) : Nat :=
  (code + run.distance).toNat

/-- The characters that the run moves, each with the one that it is moved to. -/
def moves (run : Run) : List (Char × Char) :=
  (List.range ((run.last - run.first) / run.step + 1)).map fun i =>
    let code := run.first + i * run.step
    (Char.ofNat code, Char.ofNat (run.image code))

end Run

/-- The image of a character under the first run that holds it, or else the character itself. -/
def shiftIn (runs : List Run) (c : Char) : Char :=
  match runs.find? (fun run => run.holds c.toNat) with
  | some run => Char.ofNat (run.image c.toNat)
  | none => c

end Highlighting.Unicode
