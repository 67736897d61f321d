import Highlighting.Proofs.Jacy.Calls
import Highlighting.Proofs.Pattern.Refusals
import Highlighting.Proofs.Scan.Descents

/-! # What comments and strings open with

Comments and strings are told by the characters that they open with. The rules before theirs in the list
of rules go through none of these, so that outside of all containers theirs is the first to match. -/
set_option autoImplicit false
namespace Highlighting

namespace Highlighter
variable {highlighter : Highlighter} {source : Source} {place : Nat}

/-- In a container without illegal text a rule matches, or the closer does, or nothing stands there. -/
theorem border?_of_lawful {rule : ContainerRule} (lawful : rule.illegal = none) :
    highlighter.border? source (some rule) place =
      match highlighter.firstMatch? source place rule.rules with
      | some found => some (.inner found)
      | none => (rule.closer.stop? source.chars place source.size).map .closer := by
  have nothing : highlighter.illegalIn (some rule) = none := lawful
  have rules : highlighter.rulesIn (some rule) = rule.rules := rfl
  rw [border?, nothing, rules, Option.bind_some]
  cases highlighter.firstMatch? source place rule.rules with
  | some found => rfl
  | none =>
      cases rule.closer.stop? source.chars place source.size with
      | some stop => rfl
      | none => simp

theorem firstMatch?_single {rule : SingleRule} {index : Nat} (rest : List Nat)
    (listed : highlighter.rules[index]? = some (.single rule)) :
    highlighter.firstMatch? source place (index :: rest) =
      match rule.stop? source place with
      | some stop => some (.single index rule stop)
      | none => highlighter.firstMatch? source place rest := by
  rw [firstMatch?, listed, Option.bind_some, Rule.match?]
  cases rule.stop? source place <;> rfl

end Highlighter

namespace Jacy

/-- None of these rules goes through the characters. -/
def Refused (indices : List Nat) (chars : List Char) : Prop :=
  ∀ index ∈ indices, ∀ rule ∈ Ready.rules[index]?, rule.opener.Refuses chars

instance (indices : List Nat) (chars : List Char) : Decidable (Refused indices chars) :=
  inferInstanceAs (Decidable (∀ index ∈ indices, ∀ rule ∈ Ready.rules[index]?, _))

section Rules
variable {source : Source} {place : Nat} (ignore : Bool)

/-- A rule that matches is the first one if those before it match nothing. -/
theorem firstMatch?_of_silent {front back : List Nat} {index : Nat} {rule : Rule} {found : Found}
    (root : Ready.root = front ++ index :: back) (listed : Ready.rules[index]? = some rule)
    (silent : ∀ other ∈ front, ∀ rule ∈ Ready.rules[other]?, rule.match? source place other = none)
    (matched : rule.match? source place index = some found) :
    (Ready.highlighter.ignoring ignore).firstMatch? source place Ready.root = some found := by
  have nothing : ∀ other ∈ front, ∀ rule ∈ (Ready.highlighter.ignoring ignore).rules[other]?,
      rule.match? source place other = none :=
    silent
  have here : (Ready.highlighter.ignoring ignore).rules[index]? = some rule := listed
  rw [root, firstMatch?_append nothing, Highlighter.firstMatch?, here, Option.bind_some, matched]

/-- What refuses a text matches nothing where the text stands. -/
theorem Refused.silent {indices : List Nat} {chars : List Char} (refused : Refused indices chars)
    (stands : source.holdsAt chars place = true) :
    ∀ other ∈ indices, ∀ rule ∈ Ready.rules[other]?, rule.match? source place other = none := by
  intro other member rule isRule
  have refuses := refused other member rule isRule
  exact Rule.match?_eq_none (refuses.match?_eq_none stands source.size)

/-- A rule that matches where a text stands is the first one if those before it refuse the text. -/
theorem firstMatch?_of_refused {front back : List Nat} {index : Nat} {chars : List Char} {rule : Rule}
    {found : Found} (root : Ready.root = front ++ index :: back)
    (listed : Ready.rules[index]? = some rule) (refused : Refused front chars)
    (stands : source.holdsAt chars place = true)
    (matched : rule.match? source place index = some found) :
    (Ready.highlighter.ignoring ignore).firstMatch? source place Ready.root = some found :=
  firstMatch?_of_silent ignore root listed (refused.silent stands) matched

theorem container_match? {rule : ContainerRule} {index stop : Nat}
    (opens : rule.opener.stop? source.chars place source.size = some stop) (proper : place < stop) :
    (Rule.container rule).match? source place index = some (.container index rule stop) := by
  rw [Rule.match?, opens, Option.filter_some, if_pos (decide_eq_true proper)]
  rfl

/-- A rule of a pattern alone matches what the pattern takes. -/
theorem single_match? {scope : Option Scope} {p : Pattern} {relevance index stop : Nat}
    (taken : (Program.ofPattern p).stop? source.chars place source.size = some stop)
    (proper : place < stop) :
    (Rule.single (Ready.single scope p relevance)).match? source place index =
      some (.single index (Ready.single scope p relevance) stop) := by
  have text : (Ready.single scope p relevance).textStop? source place = some stop := taken
  have accepted : (Ready.single scope p relevance).accepts source place stop = true := by
    rw [SingleRule.accepts, decide_eq_true proper]
    rfl
  rw [Rule.match?, SingleRule.stop?, text, Option.filter_some, if_pos accepted]
  rfl

theorem parts_match? {p : Pattern} {scopes : List (Option Scope)} {index : Nat} {m : Match}
    (taken : (Program.ofPattern p).match? source.chars place source.size = some m)
    (proper : place < m.stop) :
    (Rule.parts (Ready.parts p scopes)).match? source place index =
      some (.parts index (Ready.parts p scopes) m.stop ((Ready.parts p scopes).locate m)) := by
  have pattern : (Ready.parts p scopes).pattern = .ofPattern p := rfl
  rw [Rule.match?, pattern, taken]
  exact if_pos proper

/-! ## Comments -/

theorem text_stop? {chars : String} (stands : source.holdsAt chars.toList place = true) :
    (Program.ofPattern (Patterns.text chars)).stop? source.chars place source.size =
      some (place + chars.length) := by
  rw [Patterns.text, Program.stop?_literal, if_pos stands, String.length_toList]

theorem firstMatch?_lineComment (stands : source.holdsAt "//".toList place = true) :
    (Ready.highlighter.ignoring ignore).firstMatch? source place Ready.root =
      some (.container 0 Ready.lineComment (place + 2)) := by
  have opens : Ready.lineComment.opener.stop? source.chars place source.size = some (place + 2) :=
    text_stop? stands
  have root : Ready.root = [] ++ 0 :: Ready.root.drop 1 := rfl
  exact firstMatch?_of_refused ignore root rfl (by decide) stands (container_match? opens (by omega))

theorem firstMatch?_blockComment (stands : source.holdsAt "/*".toList place = true) :
    (Ready.highlighter.ignoring ignore).firstMatch? source place Ready.root =
      some (.container 2 Ready.blockComment (place + 2)) := by
  have opens : Ready.blockComment.opener.stop? source.chars place source.size = some (place + 2) :=
    text_stop? stands
  have root : Ready.root = [0] ++ 2 :: Ready.root.drop 2 := rfl
  exact firstMatch?_of_refused ignore root rfl (by decide +kernel) stands (container_match? opens (by omega))

/-! ## Strings -/

/-- A character is taken where it stands. -/
theorem head?_one {text : Array Char} {limit : Nat} {m : Match} {c : Char} (inside : m.stop < limit)
    (here : text[m.stop]? = some c) :
    ((Patterns.one c).ways text limit m).head? = some { m with stop := m.stop + 1 } := by
  have taken : text[m.stop]?.any (CharSet.single c).contains = true := by
    rw [here, Option.any_some, CharSet.contains_single, beq_self_eq_true]
  rw [Patterns.one, Pattern.ways, if_pos ⟨inside, taken⟩]
  rfl

/-- A character that may stand in front of another one is taken if it stands there. -/
theorem head?_maybe_before (letter : Char) {present : Bool} {c : Char} {m : Match} (other : c ≠ letter)
    (stands : source.holdsAt (if present then [letter, c] else [c]) m.stop = true) :
    ∃ last, ((Patterns.maybe (Patterns.one letter)).ways source.chars source.size m).head? =
        some { m with stop := last } ∧ source.chars[last]? = some c ∧ last < source.size ∧
      last + 1 = m.stop + (if present then [letter, c] else [c]).length := by
  cases present with
  | false =>
      have here : source.chars[m.stop]? = some c := source.char_of_holdsAt stands
      have inside : m.stop < source.size := (Array.getElem?_eq_some_iff.mp here).1
      refine ⟨m.stop, head?_maybe_one (Nat.le_of_lt inside) (.inl ⟨rfl, ?_⟩), here, inside, rfl⟩
      rw [here]
      exact fun same => other (Option.some.inj same)
  | true =>
      have split : source.holdsAt ([letter] ++ [c]) m.stop = true := stands
      rw [source.holdsAt_append] at split
      obtain ⟨first, second⟩ := Bool.and_eq_true_iff.mp split
      have here : source.chars[m.stop + 1]? = some c := source.char_of_holdsAt second
      have inside : m.stop + 1 < source.size := (Array.getElem?_eq_some_iff.mp here).1
      exact ⟨m.stop + 1, head?_maybe_one (Nat.le_of_lt inside)
        (.inr ⟨rfl, source.char_of_holdsAt first⟩), here, inside, rfl⟩

/-- What stands in front of a string, which may be one of bytes. -/
def prefixed (byte : Bool) (c : Char) : List Char :=
  if byte then ['b', c] else [c]

theorem firstMatch?_string {byte : Bool} (stands : source.holdsAt (prefixed byte '"') place = true) :
    (Ready.highlighter.ignoring ignore).firstMatch? source place Ready.root =
      some (.container 4 Ready.string (place + (prefixed byte '"').length)) := by
  let opened : Match := ⟨place, [⟨0, true, place⟩]⟩
  obtain ⟨last, first, quote, inside, stop⟩ := head?_maybe_before 'b' (m := opened) (by decide) stands
  have whole : (Patterns.string.ways source.chars source.size opened).head? =
      some { opened with stop := last + 1 } :=
    Pattern.head?_flatMap_of_head? first (head?_one inside quote)
  have opens : Ready.string.opener.stop? source.chars place source.size =
      some (place + (prefixed byte '"').length) := by
    have found := Program.stop?_ofPattern (p := Patterns.string) (by decide) source.chars place source.size
    rw [whole, Option.map_some, stop] at found
    exact found
  have proper : place < place + (prefixed byte '"').length := by
    cases byte <;> exact Nat.lt_add_of_pos_right (by decide)
  have refused : ∀ byte, Refused [0, 2] (prefixed byte '"') := by
    decide +kernel
  have root : Ready.root = [0, 2] ++ 4 :: Ready.root.drop 3 := rfl
  exact firstMatch?_of_refused ignore root rfl (refused byte) stands (container_match? opens proper)

end Rules

end Jacy

end Highlighting
