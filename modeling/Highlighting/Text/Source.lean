import Highlighting.Text.Position

/-! # Source texts

A place in a source is a number of characters before it. Every place has a byte offset, the length of
the text before it in UTF-8, and a position. Offsets grow with places, so that a byte offset inside a
character belongs to the place before the character. -/
set_option autoImplicit false
namespace Highlighting

/-- How many bytes the characters take. -/
def byteLength : List Char → Nat
  | [] => 0
  | c :: rest => c.utf8Size + byteLength rest

/-- The byte offsets of all places of a text that starts at byte `first`. -/
def byteOffsets (first : Nat) : List Char → List Nat
  | [] => [first]
  | c :: rest => first :: byteOffsets (first + c.utf8Size) rest

structure Source where
  chars : Array Char
  offsets : Array Nat := (byteOffsets 0 chars.toList).toArray
  offsets_eq : offsets = (byteOffsets 0 chars.toList).toArray := by rfl

namespace Source

def ofString (text : String) : Source where
  chars := text.toList.toArray

def size (source : Source) : Nat :=
  source.chars.size

def toString (source : Source) : String :=
  String.ofList source.chars.toList

/-- The byte offset of a place. Beyond the text it is the length of the text. -/
def offset (source : Source) (place : Nat) : Nat :=
  source.offsets.getD (min place source.size) 0

/-- The characters from one place up to another. -/
def part (source : Source) (start stop : Nat) : List Char :=
  (source.chars.extract start stop).toList

def slice (source : Source) (start stop : Nat) : String :=
  String.ofList (source.part start stop)

def position (source : Source) (place : Nat) : Position :=
  Position.behind {} (source.part 0 place)

def span (source : Source) (start stop : Nat) : Span :=
  ⟨source.position start, source.position stop⟩

/-- The last place whose byte offset is not beyond `byte`. -/
def placeAt (source : Source) (byte : Nat) : Nat :=
  source.offsets.toList.countP (fun offset => 0 < offset && offset ≤ byte)

/-- Whether the characters stand at the place. -/
def holdsAt (source : Source) : List Char → Nat → Bool
  | [], _ => true
  | c :: rest, place => source.chars[place]? == some c && source.holdsAt rest (place + 1)

/-- The first place from `place` on whose character fails the test, or `stop` if there is none
before it. -/
def skip (source : Source) (test : Char → Bool) (stop : Nat) : Nat → Nat → Nat
  | 0, place => place
  | room + 1, place =>
      if place < stop && source.chars[place]?.any test then source.skip test stop room (place + 1)
      else place

end Source

theorem byteLength_append (left right : List Char) :
    byteLength (left ++ right) = byteLength left + byteLength right := by
  induction left with
  | nil => simp [byteLength]
  | cons c rest ih => simp [byteLength, ih, Nat.add_assoc]

theorem byteOffsets_length (first : Nat) (chars : List Char) :
    (byteOffsets first chars).length = chars.length + 1 := by
  induction chars generalizing first with
  | nil => rfl
  | cons c rest ih => simp [byteOffsets, ih]

theorem byteOffsets_getElem? (first : Nat) (chars : List Char) (place : Nat)
    (within : place ≤ chars.length) :
    (byteOffsets first chars)[place]? = some (first + byteLength (chars.take place)) := by
  induction chars generalizing first place with
  | nil =>
      have : place = 0 := by simpa using within
      simp [this, byteOffsets, byteLength]
  | cons c rest ih =>
      cases place with
      | zero => simp [byteOffsets, byteLength]
      | succ place =>
          simp only [byteOffsets, List.getElem?_cons_succ, List.take_succ_cons, byteLength]
          rw [ih (first + c.utf8Size) place (by simpa using within), Nat.add_assoc]

namespace Source

/-- The offset of a place is the length of the text before it. -/
theorem offset_eq (source : Source) (place : Nat) :
    source.offset place = byteLength (source.chars.toList.take place) := by
  have within : min place source.size ≤ source.chars.toList.length := by
    simp only [size, Array.length_toList]; omega
  have found := byteOffsets_getElem? 0 source.chars.toList (min place source.size) within
  have cut : source.chars.toList.take (min place source.size) = source.chars.toList.take place := by
    rw [size, ← Array.length_toList, ← List.take_eq_take_min]
  simp only [offset, source.offsets_eq, Array.getD_eq_getD_getElem?, List.getElem?_toArray, found, cut,
    Option.getD_some, Nat.zero_add]

end Source

end Highlighting
