import Highlighting.Pattern.Basic

/-! # Programs

A pattern becomes a program of numbered instructions, each of which names the ones that may come next.
A block is a program with one way in and one way out: given the number of its first instruction and
the number of the instruction that comes after it, it gives its instructions. -/
set_option autoImplicit false
namespace Highlighting

inductive Instruction where
  /-- Takes a character of the set. -/
  | take (set : CharSet) (next : Nat)
  /-- Goes on where the condition holds. -/
  | check (assertion : Assertion) (next : Nat)
  /-- Goes on at the first number, and at the second one if that does not lead to a match. -/
  | fork (first second : Nat)
  /-- Notes the place as an end of the group. -/
  | mark (number : Nat) (opens : Bool) (next : Nat)
  | jump (next : Nat)
  | accept
deriving DecidableEq, Repr

structure Block where
  size : Nat
  /-- The instructions of the block, the first of which is number `here`, before the instruction
  `next`. -/
  code : (here next : Nat) → List Instruction
  length_code : ∀ here next, (code here next).length = size

namespace Block

/-- A block of one instruction, given what comes after it. -/
def one (instruction : Nat → Instruction) : Block where
  size := 1
  code _ next := [instruction next]
  length_code _ _ := rfl

def seq (first second : Block) : Block where
  size := first.size + second.size
  code here next :=
    first.code here (here + first.size) ++ second.code (here + first.size) next
  length_code := by simp [length_code]

def alt (first second : Block) : Block where
  size := first.size + second.size + 1
  code here next :=
    .fork (here + 1) (here + 1 + first.size) ::
      (first.code (here + 1) next ++ second.code (here + 1 + first.size) next)
  length_code := by simp [length_code]

/-- Chooses between one more round and going on. -/
def roundOr (greedy : Bool) (round next : Nat) : Instruction :=
  if greedy then .fork round next else .fork next round

/-- One round or none. -/
def optional (greedy : Bool) (body : Block) : Block where
  size := body.size + 1
  code here next := roundOr greedy (here + 1) next :: body.code (here + 1) next
  length_code := by simp [length_code]

/-- One round or more. -/
def again (greedy : Bool) (body : Block) : Block where
  size := body.size + 1
  code here next := body.code here (here + body.size) ++ [roundOr greedy here next]
  length_code := by simp [length_code]

/-- Any number of rounds of a body that always takes a character. One fork stands for the start of the
loop and for the end of a round. -/
def loop (greedy : Bool) (body : Block) : Block where
  size := body.size + 1
  code here next := roundOr greedy (here + 1) next :: body.code (here + 1) here
  length_code := by simp [length_code]

/-- Exactly so many rounds. -/
def times (body : Block) : Nat → Block
  | 0 => one .jump
  | 1 => body
  | count + 1 => body.seq (body.times count)

/-- So many rounds or fewer. -/
def upTo (greedy : Bool) (body : Block) : Nat → Block
  | 0 => one .jump
  | 1 => optional greedy body
  | count + 1 => optional greedy (body.seq (upTo greedy body count))

/-- A number of rounds. Without bounds the rounds are a plain loop only if the body moves on in every
round; otherwise a first round of nothing has a way out of its own. -/
def rounds (movesOn : Bool) (least : Nat) (most : Option Nat) (greedy : Bool) (body : Block) : Block :=
  match least, most with
  | 0, none => if movesOn then loop greedy body else optional greedy (again greedy body)
  | 1, none => again greedy body
  | least + 1, none => (body.times least).seq (again greedy body)
  | 0, some most => upTo greedy body most
  | least, some most =>
      if most ≤ least then body.times least else (body.times least).seq (upTo greedy body (most - least))

def group (number : Nat) (body : Block) : Block :=
  (one (.mark number true)).seq (body.seq (one (.mark number false)))

end Block

namespace Pattern

/-- The fewest characters that the pattern takes; nothing is said of a pattern with an empty set. -/
def fewest? : Pattern → Option Nat
  | empty | check _ => some 0
  | char set => if set = .none then none else some 1
  | seq first second => first.fewest?.bind fun m => second.fewest?.map (m + ·)
  | alt first second => first.fewest?.bind fun m => second.fewest?.map (min m)
  | rounds least _ _ body => body.fewest?.map (least * ·)
  | capture _ _ body => body.fewest?

/-- Whether every match takes a character. -/
def movesOn (p : Pattern) : Bool :=
  p.fewest?.any (0 < ·)

def block : Pattern → Block
  | empty => .one .jump
  | char set => .one (.take set)
  | check assertion => .one (.check assertion)
  | seq first second => first.block.seq second.block
  | alt first second => first.block.alt second.block
  | rounds least most greedy body => .rounds body.movesOn least most greedy body.block
  | capture number _ body => .group number body.block

end Pattern

structure Program where
  code : Array Instruction
deriving DecidableEq, Repr

namespace Program

/-- The program of a pattern, which notes the whole match as group zero. -/
def ofPattern (p : Pattern) : Program where
  code :=
    let whole := Block.group 0 p.block
    (whole.code 0 whole.size ++ [Instruction.accept]).toArray

end Program

end Highlighting
