import Highlighting.Proofs.Jacy.Calls
import Highlighting.Proofs.Pattern.Refusals

/-! # Keywords and calls in Jacy

A keyword is not taken for a call. But the rule of calls compares the keywords with all that it takes, the
exclamation mark included, and no other rule takes a keyword with such a mark behind it. So in front of a
parenthesis this is a call. -/
set_option autoImplicit false
namespace Highlighting.Jacy

/-- The text without an exclamation mark at its end. -/
def withoutMark (text : String) : String :=
  if text.toList.getLast? = some '!' then String.ofList text.toList.dropLast else text

theorem callable_of_keyword {keyword : String} (listed : keyword ∈ keywordWords) :
    Callable (keyword ++ "!") keyword.toList where
  spelled := .inr (String.toList_append ..)
  nonempty := (by decide : ∀ keyword ∈ keywordWords, keyword.toList ≠ []) keyword listed
  letters := (by decide : ∀ keyword ∈ keywordWords, ∀ c ∈ keyword.toList,
    Patterns.letters.contains c = true) keyword listed
  free := (by decide : ∀ keyword ∈ keywordWords, keyword ++ "!" ∉ keywordWords) keyword listed

/-- None of the rules before that of calls goes through a keyword with a mark. -/
theorem earlier_refuses : ∀ index ∈ earlier, ∀ rule ∈ Ready.rules[index]?,
    ∀ keyword ∈ keywordWords, rule.opener.Refuses (keyword.toList ++ ['!']) := by
  decide +kernel

theorem spares_of_keyword {source : Source} {place : Nat} {keyword : String}
    (listed : keyword ∈ keywordWords) (called : Called source (keyword ++ "!") place) :
    Spares source place := by
  intro index member rule isRule
  have refuses := earlier_refuses index member rule isRule keyword listed
  have stands : source.holdsAt (keyword.toList ++ ['!']) place = true := by
    have whole := called.stands
    rwa [String.toList_append] at whole
  exact Rule.match?_eq_none (refuses.match?_eq_none stands source.size)

/-- What the rule of calls takes is no keyword. -/
theorem slice_of_call {source : Source} {start stop : Nat} (ends : Ready.call.stop? source start = some stop) :
    source.slice start stop ∉ keywordWords := by
  obtain ⟨_, accepted⟩ := Option.filter_eq_some_iff.mp ends
  obtain ⟨free, _⟩ := Bool.and_eq_true_iff.mp accepted
  have noKeyword := (Bool.and_eq_true_iff.mp free).2
  rw [Bool.not_eq_true', List.contains_eq_mem, decide_eq_false_iff_not] at noKeyword
  exact noKeyword

/-- No call is a keyword. A keyword with an exclamation mark is one where the scan comes to it outside of
all containers, it stands by itself, and a parenthesis opens behind it and behind blanks, and nowhere
else. -/
theorem marked_keywords_called (ignore : Bool) (text : String) (result : Highlight)
    (highlighted : (highlighter.ignoring ignore).highlight text = .ok result) :
    (∀ region ∈ result.regions, region.scope = .titleFunctionInvoke → region.text ∉ keywordWords) ∧
    ∀ keyword ∈ keywordWords, ∀ before after : String, text = before ++ (keyword ++ "!") ++ after →
      ((∃ region ∈ result.regions, region.scope = .titleFunctionInvoke ∧
          region.start = before.utf8ByteSize ∧ region.text = keyword ++ "!") ↔
        (∃ scan, (highlighter.ignoring ignore).Visits (.ofString text) scan ∧
            scan.pos = before.toList.length ∧ scan.containers = []) ∧
          before.toList.getLast?.any Unicode.isWord = false ∧
            ∃ blanks rest, after = blanks ++ "(" ++ rest ∧
              ∀ c ∈ blanks.toList, CharSet.blank.contains c = true) := by
  constructor
  · intro region known isCall
    rw [highlighter_eq] at highlighted
    obtain ⟨marking, member, scope, slice, _⟩ := Highlight.region_marking known
    obtain ⟨_, _, source, _⟩ := Highlighter.highlight_ok highlighted
    rw [source] at slice
    obtain ⟨_, ends⟩ := origin_of_call (Highlighter.highlight_origins highlighted marking member)
      (scope.symm.trans isCall)
    rw [slice]
    exact slice_of_call ends
  · intro keyword listed before after split
    exact call_region_iff (callable_of_keyword listed) (spares_of_keyword listed) highlighted split

/-- A condition without a blank in front of its negation. -/
def condition : String :=
  "if!(x)"

theorem condition_region :
    ∃ result, (highlighter.ignoring true).highlight condition = .ok result ∧
      ∃ region ∈ result.regions, region.scope = .titleFunctionInvoke ∧
        region.start = "".utf8ByteSize ∧ region.text = "if!" := by
  have listed : "if" ∈ keywordWords := by decide
  have split : condition = "" ++ ("if" ++ "!") ++ ("(" ++ "x)") := by decide
  exact region_at_start (callable_of_keyword listed) (spares_of_keyword listed) split

theorem condition_called :
    ∃ result, (highlighter.ignoring true).highlight condition = .ok result ∧
      (∀ region ∈ result.regions, region.scope = .titleFunctionInvoke → region.text ∉ keywordWords) ∧
      (∃ scan, (highlighter.ignoring true).Visits (.ofString condition) scan ∧
        scan.pos = "".toList.length ∧ scan.containers = []) ∧
      "".toList.getLast?.any Unicode.isWord = false ∧
      ∃ blanks rest, "(x)" = blanks ++ "(" ++ rest ∧
        ∀ c ∈ blanks.toList, CharSet.blank.contains c = true := by
  obtain ⟨result, highlighted, region⟩ := condition_region
  have listed : "if" ∈ keywordWords := by decide
  have split : condition = "" ++ ("if" ++ "!") ++ "(x)" := by decide
  obtain ⟨free, called⟩ := marked_keywords_called true condition result highlighted
  exact ⟨result, highlighted, free, (called "if" listed "" "(x)" split).mp region⟩

/-- Calls are not free of keywords if an exclamation mark does not count. -/
theorem not_all_calls_spare_keywords :
    ¬ ∀ (text : String) (result : Highlight), (highlighter.ignoring true).highlight text = .ok result →
      ∀ region ∈ result.regions, region.scope = .titleFunctionInvoke →
        withoutMark region.text ∉ keywordWords := by
  intro all
  obtain ⟨result, highlighted, region, listed, isCall, _, text⟩ := condition_region
  have name := all condition result highlighted region listed isCall
  rw [text] at name
  exact name (by decide)

end Highlighting.Jacy
