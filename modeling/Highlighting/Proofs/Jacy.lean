import Highlighting.Proofs.Grammar.Listed
import Highlighting.Proofs.Jacy.Patterns
import Highlighting.Proofs.Scan.PartsInLine

/-! # Jacy covers every source

All rules of parts in Jacy have their parts in line, so that no match of them drops text, repeats it or
changes its order, whether illegal text is ignored or not. -/
set_option autoImplicit false
namespace Highlighting

namespace Highlighter

theorem ofLanguage_names {language : Language} {highlighter : Highlighter}
    (ready : ofLanguage language = .ok highlighter) :
    highlighter.name = language.name ∧ highlighter.aliases = language.aliases := by
  unfold ofLanguage at ready
  simp only [bind, Except.bind] at ready
  repeat' split at ready
  all_goals cases ready
  exact ⟨rfl, rfl⟩

theorem ignoring_takesInOrder {highlighter : Highlighter}
    (inLine : ∀ rule ∈ highlighter.rules, rule.InLine) (ignore : Bool) (source : Source) :
    (highlighter.ignoring ignore).TakesInOrder source := by
  have sameRules : ∀ rule ∈ (highlighter.ignoring ignore).rules, rule.InLine := inLine
  exact takesInOrder_of_inLine sameRules source

end Highlighter

namespace Jacy

theorem ofLanguage_eq : Highlighter.ofLanguage language = .ok highlighter :=
  ok_toOption_get compiles

theorem highlighter_name : highlighter.name = "Jacy" :=
  (Highlighter.ofLanguage_names ofLanguage_eq).1

theorem highlighter_aliases : highlighter.aliases = ["jc"] :=
  (Highlighter.ofLanguage_names ofLanguage_eq).2

theorem rules_inLine : ∀ rule ∈ highlighter.rules, rule.InLine := by
  rw [highlighter_eq]
  decide +kernel

theorem takesInOrder (ignore : Bool) (source : Source) :
    (highlighter.ignoring ignore).TakesInOrder source :=
  Highlighter.ignoring_takesInOrder rules_inLine ignore source

theorem plain_eq {ignore : Bool} {text : String} {result : Highlight}
    (highlighted : (highlighter.ignoring ignore).highlight text = .ok result) :
    result.WellFormed ∧ result.plain = text := by
  obtain ⟨source, formed⟩ := Highlighter.highlight_wellFormed (takesInOrder ignore _) highlighted
  refine ⟨formed, ?_⟩
  rw [formed.plain_eq, source, Source.toString_ofString]

end Jacy

end Highlighting
