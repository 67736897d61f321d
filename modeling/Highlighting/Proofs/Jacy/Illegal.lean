import Highlighting.Proofs.Jacy
import Highlighting.Proofs.Scan.Exposure

/-! # Illegal text in Jacy

The marker of illegal text may stand in comments, strings and attributes. Everywhere else it is illegal,
and the first one is reported. -/
set_option autoImplicit false
namespace Highlighting.Jacy

/-- A language whose illegal text is the marker, which only comments, strings and attributes keep from
being seen. -/
structure Forbids (highlighter : Highlighter) : Prop where
  guards : highlighter.Guards [.comment, .string, .metadata] '<'
  marker : highlighter.illegal = some (.ofPattern (.literal ['<', '/']))
  strict : highlighter.ignoreIllegal = false

theorem guards : Forbids highlighter := by
  rw [highlighter_eq]
  constructor <;> decide +kernel

/-- Highlighting fails exactly when the marker is exposed in the result that ignores illegal text, and
the error is about the first one. -/
theorem illegal_iff_exposed (text : String) :
    ∃ result, (highlighter.ignoring true).highlight text = .ok result ∧
      ((∃ illegal, highlight text = .error illegal) ↔
        ∃ offset, result.Exposes text [.comment, .string, .metadata] "</" offset) ∧
      ∀ illegal, highlight text = .error illegal →
        illegal.lexeme = "</" ∧
        result.Exposes text [.comment, .string, .metadata] "</" illegal.offset ∧
        ∀ offset, result.Exposes text [.comment, .string, .metadata] "</" offset →
          illegal.offset ≤ offset := by
  obtain ⟨guards, marks, strict⟩ := guards
  have chars : "</".toList = ['<', '/'] := rfl
  have itself : highlighter.ignoring false = highlighter :=
    (congrArg highlighter.ignoring strict.symm).trans (Highlighter.ignoring_self highlighter)
  have same : highlight text = (highlighter.ignoring false).highlight text := by
    rw [itself, highlight]
  obtain ⟨result, highlighted, outcome⟩ :=
    Highlighter.highlight_exposed guards chars marks (takesInOrder true (.ofString text))
  refine ⟨result, highlighted, ?_⟩
  rw [same]
  rcases outcome with ⟨⟨legal, strictly⟩, nothing⟩ | ⟨illegal, strictly, lexeme, exposed, least⟩
  · rw [strictly]
    refine ⟨⟨?_, ?_⟩, ?_⟩
    · rintro ⟨illegal, absurdity⟩
      exact nomatch absurdity
    · rintro ⟨offset, exposed⟩
      exact absurd exposed (nothing offset)
    · intro illegal absurdity
      exact nomatch absurdity
  · rw [strictly]
    refine ⟨⟨fun _ => ⟨illegal.offset, exposed⟩, fun _ => ⟨illegal, rfl⟩⟩, ?_⟩
    intro other failed
    cases failed
    exact ⟨lexeme, exposed, least⟩

end Highlighting.Jacy
