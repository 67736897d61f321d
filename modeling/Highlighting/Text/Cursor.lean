import Highlighting.Text.Source

/-! # Cursors

A cursor stands at a place of a source and knows its position. It walks forward from there, and starts
over when it is asked for an earlier place. The position it knows is the position of its place, however
it got there. -/
set_option autoImplicit false
namespace Highlighting

structure Cursor (source : Source) where
  place : Nat
  position : Position
  position_eq : position = source.position place

namespace Cursor

variable {source : Source}

def start (source : Source) : Cursor source where
  place := 0
  position := {}
  position_eq := by simp [Source.position, Source.part, Position.behind]

/-- Walking on from a place passes the characters between it and the later one. -/
theorem position_walk (source : Source) {place later : Nat} (ordered : place ≤ later) :
    (source.position place).behind (source.part place later) = source.position later := by
  simp only [Source.position, Source.part, ← Position.behind_append, ← Array.toList_append,
    Array.extract_append_extract]
  simp [Nat.max_eq_right ordered]

def moveTo (cursor : Cursor source) (place : Nat) : Cursor source :=
  if ordered : cursor.place ≤ place then
    { place
      position := cursor.position.behind (source.part cursor.place place)
      position_eq := by rw [cursor.position_eq, position_walk source ordered] }
  else
    { place, position := source.position place, position_eq := rfl }

/-- Moves to the character that holds a byte, or to the end of the source for bytes beyond it. -/
def moveToByte (cursor : Cursor source) (byte : Nat) : Cursor source :=
  cursor.moveTo (source.placeAt byte)

/-- Moves over a range of places and gives the positions of its ends. -/
def span (cursor : Cursor source) (first last : Nat) : Span × Cursor source :=
  let atFirst := cursor.moveTo first
  let atLast := atFirst.moveTo last
  (⟨atFirst.position, atLast.position⟩, atLast)

def byteSpan (cursor : Cursor source) (first last : Nat) : Span × Cursor source :=
  cursor.span (source.placeAt first) (source.placeAt last)

/-- The spans of several ranges, one after the other. -/
def spans (cursor : Cursor source) : List (Nat × Nat) → List Span
  | [] => []
  | (first, last) :: rest =>
      let (span, moved) := cursor.span first last
      span :: spans moved rest

theorem moveTo_place (cursor : Cursor source) (place : Nat) :
    (cursor.moveTo place).place = place := by
  unfold moveTo
  split <;> rfl

theorem moveTo_position (cursor : Cursor source) (place : Nat) :
    (cursor.moveTo place).position = source.position place := by
  rw [(cursor.moveTo place).position_eq, moveTo_place]

theorem span_fst (cursor : Cursor source) (first last : Nat) :
    (cursor.span first last).1 = source.span first last := by
  simp [span, Source.span, moveTo_position]

theorem spans_eq (cursor : Cursor source) (ranges : List (Nat × Nat)) :
    cursor.spans ranges = ranges.map fun range => source.span range.1 range.2 := by
  induction ranges generalizing cursor with
  | nil => rfl
  | cons range rest ih => simp only [spans, List.map_cons, span_fst, ih]

end Cursor

end Highlighting
