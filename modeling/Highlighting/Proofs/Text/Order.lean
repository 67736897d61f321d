import Highlighting.Proofs.Text.Rounding

/-! # The order of positions

A position comes before another one when it is on an earlier line, or in an earlier column of the same
line. Every character moves on in this order: a line feed by a line, and any other by a column. So positions
are in the order of places, and places in the order of the byte offsets at which the text can be cut in
two. Offsets that are rounded down may come to the same place, but they keep their order. -/
set_option autoImplicit false
namespace Highlighting

/-- Values that grow from each place to all later ones are compared like the places. -/
theorem compare_of_grows {α : Type} [Ord α] [Std.OrientedOrd α] {value : Nat → α} {limit : Nat}
    (grows : ∀ {first last : Nat}, first < last → last ≤ limit →
      compare (value first) (value last) = .lt)
    {left right : Nat} (leftInside : left ≤ limit) (rightInside : right ≤ limit) :
    compare (value left) (value right) = compare left right := by
  rcases Nat.lt_trichotomy left right with before | rfl | behind
  · rw [grows before rightInside, Nat.compare_eq_lt.mpr before]
  · rw [Std.ReflOrd.compare_self, Std.ReflOrd.compare_self]
  · rw [Std.OrientedCmp.gt_of_lt (grows behind leftInside), Nat.compare_eq_gt.mpr behind]

namespace Position

theorem compare_eq (left right : Position) :
    compare left right = compareLex (compareOn line) (compareOn column) left right := by
  cases left
  cases right
  exact congrArg (Ordering.then _) Ordering.then_eq

theorem compare_eq_lt_iff {left right : Position} :
    compare left right = .lt ↔
      left.line < right.line ∨ left.line = right.line ∧ left.column < right.column := by
  rw [compare_eq, compareLex, Ordering.then_eq_lt, compareOn, compareOn, Nat.compare_eq_lt,
    Nat.compare_eq_eq, Nat.compare_eq_lt]

instance : Std.TransOrd Position := by
  have lexicographic : (compare : Position → Position → Ordering) =
      compareLex (compareOn line) (compareOn column) := funext₂ compare_eq
  rw [Std.TransOrd, lexicographic]
  infer_instance

theorem compare_advance (position : Position) (c : Char) :
    compare position (position.advance c) = .lt := by
  rw [compare_eq_lt_iff, advance]
  split
  · exact .inl (Nat.lt_succ_self position.line)
  · exact .inr ⟨rfl, Nat.lt_succ_self position.column⟩

theorem compare_behind {chars : List Char} (some : chars ≠ []) :
    ∀ position : Position, compare position (position.behind chars) = .lt := by
  induction chars with
  | nil => exact absurd rfl some
  | cons c rest ih =>
      intro position
      have next := compare_advance position c
      by_cases last : rest = []
      · rw [last]
        exact next
      · exact Std.TransCmp.lt_trans next (ih last (position.advance c))

end Position

theorem Span.compare_eq (left right : Span) :
    compare left right = compareLex (compareOn start) (compareOn stop) left right := by
  cases left
  cases right
  exact congrArg (Ordering.then _) Ordering.then_eq

namespace Source
variable (source : Source)

theorem compare_position {left right : Nat} (leftInside : left ≤ source.size)
    (rightInside : right ≤ source.size) :
    compare (source.position left) (source.position right) = compare left right := by
  refine compare_of_grows ?_ leftInside rightInside
  intro first last before inside
  rw [← Cursor.position_walk source (Nat.le_of_lt before)]
  exact Position.compare_behind (source.part_ne_nil before inside) (source.position first)

theorem compare_offset {left right : Nat} (leftInside : left ≤ source.size)
    (rightInside : right ≤ source.size) :
    compare (source.offset left) (source.offset right) = compare left right :=
  compare_of_grows (fun before inside => Nat.compare_eq_lt.mpr (source.offset_lt before inside))
    leftInside rightInside

theorem placeAt_mono {first last : Nat} (ordered : first ≤ last) :
    source.placeAt first ≤ source.placeAt last := by
  have early := (source.placeAt_last first).1
  exact (source.placeAt_last last).2 _ (source.placeAt_le first) (Nat.le_trans early ordered)

theorem offset_placeAt {text : String} {byte : Nat} (cut : IsCut text byte) :
    (ofString text).offset ((ofString text).placeAt byte) = byte := by
  obtain ⟨place, inside, rfl⟩ := (isCut_iff text byte).mp cut
  rw [(ofString text).placeAt_offset inside]

theorem compare_placeAt {text : String} {left right : Nat} (leftCut : IsCut text left)
    (rightCut : IsCut text right) :
    compare ((ofString text).placeAt left) ((ofString text).placeAt right) = compare left right := by
  rw [← compare_offset _ (placeAt_le _ left) (placeAt_le _ right), offset_placeAt leftCut,
    offset_placeAt rightCut]

end Source

namespace Cursor

theorem compare_moveToByte {source : Source} (left right : Cursor source) (first second : Nat) :
    compare (left.moveToByte first).position (right.moveToByte second).position =
      compare (source.placeAt first) (source.placeAt second) := by
  rw [moveToByte, moveToByte, moveTo_position, moveTo_position,
    source.compare_position (source.placeAt_le first) (source.placeAt_le second)]

theorem byteSpan_eq {source : Source} (cursor : Cursor source) (first last : Nat) :
    (cursor.byteSpan first last).1 =
      ⟨(cursor.moveToByte first).position, (cursor.moveToByte last).position⟩ := by
  rw [byteSpan, span_fst, moveToByte, moveToByte, moveTo_position, moveTo_position]
  rfl

/-- Positions are in the order of the byte offsets that they are the positions of, whatever the cursors
have been asked before: offsets between characters have distinct positions, which are compared like the
offsets. The spans of ranges between such offsets are compared by the starts of the ranges first and then
by their ends. No offset at all has a position before that of a smaller one. -/
theorem positions_follow_offsets (text : String) (left right : Cursor (.ofString text)) :
    (∀ first second, IsCut text first → IsCut text second →
      compare (left.moveToByte first).position (right.moveToByte second).position =
          compare first second ∧
        ((left.moveToByte first).position = (right.moveToByte second).position ↔ first = second)) ∧
    (∀ first second : Nat × Nat, IsCut text first.1 → IsCut text first.2 → IsCut text second.1 →
      IsCut text second.2 →
        compare (left.byteSpan first.1 first.2).1 (right.byteSpan second.1 second.2).1 =
          compareLex (compareOn Prod.fst) (compareOn Prod.snd) first second) ∧
    ∀ first second, first ≤ second →
      (compare (left.moveToByte first).position (right.moveToByte second).position).isLE := by
  have cuts {first second : Nat} (firstCut : IsCut text first) (secondCut : IsCut text second) :
      compare (left.moveToByte first).position (right.moveToByte second).position =
        compare first second := by
    rw [compare_moveToByte, Source.compare_placeAt firstCut secondCut]
  refine ⟨?_, ?_, ?_⟩
  · intro first second firstCut secondCut
    have ordered := cuts firstCut secondCut
    refine ⟨ordered, ?_, ?_⟩
    · intro same
      rw [same, Std.ReflOrd.compare_self] at ordered
      exact Nat.compare_eq_eq.mp ordered.symm
    · rintro rfl
      rw [moveToByte, moveToByte, moveTo_position, moveTo_position]
  · intro first second firstStart firstStop secondStart secondStop
    rw [byteSpan_eq, byteSpan_eq, Span.compare_eq]
    exact congrArg₂ Ordering.then (cuts firstStart secondStart) (cuts firstStop secondStop)
  · intro first second ordered
    rw [compare_moveToByte, Nat.isLE_compare]
    exact (Source.ofString text).placeAt_mono ordered

/-- The cuts around a line feed, ranges that start alike, and an offset inside a character. -/
theorem accented_line_in_order :
    (IsCut "é\nx" 0 ∧ IsCut "é\nx" 2 ∧ IsCut "é\nx" 3) ∧
      compare ((start (.ofString "é\nx")).moveToByte 2).position
        ((start (.ofString "é\nx")).moveToByte 3).position = .lt ∧
      compare ((start (.ofString "é\nx")).byteSpan 0 2).1
        ((start (.ofString "é\nx")).byteSpan 0 3).1 = .lt ∧
      (compare ((start (.ofString "é\nx")).moveToByte 1).position
        ((start (.ofString "é\nx")).moveToByte 9).position).isLE := by
  have none : IsCut "é\nx" 0 := ⟨"", "é\nx", by decide, by decide⟩
  have accent : IsCut "é\nx" 2 := ⟨"é", "\nx", by decide, by decide⟩
  have feed : IsCut "é\nx" 3 := ⟨"é\n", "x", by decide, by decide⟩
  obtain ⟨positions, spans, rounded⟩ :=
    positions_follow_offsets "é\nx" (start (.ofString "é\nx")) (start (.ofString "é\nx"))
  refine ⟨⟨none, accent, feed⟩, (positions 2 3 accent feed).1, ?_, rounded 1 9 (by decide)⟩
  exact spans (0, 2) (0, 3) none accent none feed

end Cursor

end Highlighting
