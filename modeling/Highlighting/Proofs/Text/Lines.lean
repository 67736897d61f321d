import Mathlib.Data.List.Induction
import Highlighting.Proofs.Text.Offsets

/-! # Lines and columns of a piece of text

The position behind a text is told by its line feeds and by the characters behind the last of them. A
piece of a source has the positions behind the text before it and behind its own end. -/
set_option autoImplicit false
namespace Highlighting

/-- The line feeds in the text, and the characters behind the last of them. -/
def Position.behindText (text : String) : Position where
  line := text.toList.count '\n'
  column := (text.toList.reverse.takeWhile (· ≠ '\n')).length

theorem Position.behind_eq (chars : List Char) :
    Position.behind {} chars = .behindText (String.ofList chars) := by
  rw [behindText, String.toList_ofList]
  induction chars using List.reverseRecOn with
  | nil => rfl
  | append_singleton before c ih =>
      rw [behind_append, ih, List.reverse_append, List.count_append]
      by_cases feed : c = '\n'
      · subst feed
        rfl
      · simp [behind, advance, feed]

namespace Source

/-- The text stands in the source between two byte offsets, and the span tells the positions of its
two ends. -/
def HasPiece (source : Source) (text : String) (range : Nat × Nat) (span : Span) : Prop :=
  ∃ before after, source.toString = before ++ text ++ after ∧
    range = (before.utf8ByteSize, (before ++ text).utf8ByteSize) ∧
    span = ⟨.behindText before, .behindText (before ++ text)⟩

theorem hasPiece_slice (source : Source) {start stop : Nat} (ordered : start ≤ stop)
    (inside : stop ≤ source.size) :
    source.HasPiece (source.slice start stop) (source.offset start, source.offset stop)
      (source.span start stop) := by
  refine ⟨source.slice 0 start, source.slice stop source.size,
    (source.slice_between ordered inside).symm, ?_, ?_⟩
  · rw [String.utf8ByteSize_append, utf8ByteSize_slice, source.offset_add_slice ordered]
  · rw [source.span_eq ordered, Position.behind_eq, Position.behind_eq, String.ofList_toList,
      String.ofList_toList]

end Source

end Highlighting
