import Highlighting.Proofs.Jacy.Strings

/-! # Attributes in Jacy

An attribute goes up to the first closing bracket outside of quotes. In it quotes take turns at opening and
closing a string, and nothing escapes them, so that a bracket between quotes closes nothing, and where a
quote stays open the string and the attribute go to the end of the text. -/
set_option autoImplicit false
namespace Highlighting.Jacy

/-- How far an attribute goes behind its opener: to the first closing bracket outside of quotes, that one
included, or else to the end. -/
def attributeLength (quoted : Bool) : List Char → Nat
  | [] => 0
  | c :: rest =>
      if c = '"' then attributeLength (!quoted) rest + 1
      else if c = ']' ∧ quoted = false then 1
      else attributeLength quoted rest + 1

/-- The ranges between quotes from `place` on, the quotes included, up to where the attribute ends. A quote
that is still open is at `opened`. -/
def quotedRanges (opened : Option Nat) (place : Nat) : List Char → List (Nat × Nat)
  | [] => (opened.map fun start => (start, place)).toList
  | c :: rest =>
      if c = '"' then
        match opened with
        | none => quotedRanges (some place) (place + 1) rest
        | some start => (start, place + 1) :: quotedRanges none (place + 1) rest
      else if c = ']' ∧ opened = none then []
      else quotedRanges opened (place + 1) rest

example : attributeLength false "a\"]\"\"b\"]c]".toList = 8 ∧
    quotedRanges none 2 "a\"]\"\"b\"]c]".toList = [(3, 6), (6, 9)] := by decide

/-- The strings of an attribute. -/
def attributeStrings (ranges : List (Nat × Nat)) : List Node :=
  ranges.map fun range => .leaf .string range.1 range.2

/-- The nodes that are no plain text. -/
def markedNodes (nodes : List Node) : List Node :=
  nodes.filter (!·.isText)

section Inside
variable {source : Source} {place : Nat} {c : Char} (ignore : Bool)

theorem one_stop? (here : source.chars[place]? = some c) (d : Char) :
    (Program.ofPattern (Patterns.one d)).stop? source.chars place source.size =
      if c = d then some (place + 1) else none := by
  have found := Program.stop?_literal [d] source place
  simp only [Source.holdsAt_singleton, here, Option.some.injEq] at found
  exact found

/-- What stands in an attribute outside of its strings. -/
theorem attributes_border? (here : source.chars[place]? = some c) :
    (Ready.highlighter.ignoring ignore).border? source (some Ready.attributes) place =
      if c = '"' then some (.inner (.container 15 Ready.attributeString (place + 1)))
      else if c = ']' then some (.closer (place + 1)) else none := by
  have rules : Ready.attributes.rules = [15] := rfl
  have listed : (Ready.highlighter.ignoring ignore).rules[15]? =
      some (.container Ready.attributeString) := rfl
  have opener : Ready.attributeString.opener.stop? source.chars place source.size =
      if c = '"' then some (place + 1) else none := one_stop? here '"'
  have closer : Ready.attributes.closer.stop? source.chars place source.size =
      if c = ']' then some (place + 1) else none := one_stop? here ']'
  rw [Highlighter.border?_of_lawful rfl, rules, Highlighter.firstMatch?, listed, Option.bind_some,
    Rule.match?, opener, closer]
  by_cases quote : c = '"'
  · rw [if_pos quote, if_pos quote, Option.filter_some, if_pos (decide_eq_true (Nat.lt_succ_self place))]
    rfl
  · rw [if_neg quote, if_neg quote]
    simp only [Option.filter_none, Option.map_none, Highlighter.firstMatch?]
    split <;> rfl

/-- What stands in a string of an attribute. -/
theorem attributeString_border? (here : source.chars[place]? = some c) :
    (Ready.highlighter.ignoring ignore).border? source (some Ready.attributeString) place =
      if c = '"' then some (.closer (place + 1)) else none := by
  have rules : Ready.attributeString.rules = [] := rfl
  have closer : Ready.attributeString.closer.stop? source.chars place source.size =
      if c = '"' then some (place + 1) else none := one_stop? here '"'
  rw [Highlighter.border?_of_lawful rfl, rules, Highlighter.firstMatch?, closer]
  dsimp only
  split <;> rfl

/-- From a place outside of the strings, where the text is left to read, the descent comes to the end of the
attribute and marks the strings on its way. -/
def ReadsOutside (ignore : Bool) (source : Source) (place : Nat) (text : List Char) : Prop :=
  ∀ first, ∃ nodes, (Ready.highlighter.ignoring ignore).Descends source (some Ready.attributes) first place
      (place + attributeLength false text) nodes ∧
    markedNodes nodes = attributeStrings (quotedRanges none place text)

/-- From a place in a string that opened at `start`, the descent comes to the end of the string, and from
there to the end of the attribute. -/
def ReadsString (ignore : Bool) (source : Source) (place : Nat) (text : List Char) : Prop :=
  ∀ start < place, ∃ middle behind,
    (Ready.highlighter.ignoring ignore).Descends source (some Ready.attributeString) start place middle
      [.text start middle] ∧ start < middle ∧
    (Ready.highlighter.ignoring ignore).Descends source (some Ready.attributes) middle middle
      (place + attributeLength true text) behind ∧
    .leaf .string start middle :: markedNodes behind =
      attributeStrings (quotedRanges (some start) place text)

theorem markedNodes_append (left right : List Node) :
    markedNodes (left ++ right) = markedNodes left ++ markedNodes right :=
  List.filter_append ..

theorem readsOutside_nil (inside : place = source.size) : ReadsOutside ignore source place [] := by
  subst inside
  exact fun _ => ⟨_, .ends (Nat.le_refl _), rfl⟩

theorem readsString_nil (inside : place = source.size) : ReadsString ignore source place [] := by
  subst inside
  intro start before
  exact ⟨source.size, _, .ends (Nat.le_refl _), before, .ends (Nat.le_refl _), rfl⟩

section Step
variable {rest : List Char} (inside : place < source.size) (here : source.chars[place]? = some c)
include inside here

theorem readsOutside_cons (outside : ReadsOutside ignore source (place + 1) rest)
    (string : ReadsString ignore source (place + 1) rest) :
    ReadsOutside ignore source place (c :: rest) := by
  intro first
  have stands := attributes_border? ignore here
  by_cases quote : c = '"'
  · -- A string opens here, with what is read in it and behind it.
    obtain ⟨middle, behind, within, proper, onward, marks⟩ := string place (Nat.lt_succ_self place)
    rw [if_pos quote] at stands
    rw [attributeLength, if_pos quote, quotedRanges, if_pos quote, Bool.not_false, ← marks,
      Nat.add_comm _ 1, ← Nat.add_assoc]
    refine ⟨_, .container inside stands within onward, ?_⟩
    have alone := (Node.Pieces.cons (Nat.le_of_lt proper) (.nil middle)).joined proper
    rw [alone, markedNodes_append, markedNodes_append]
    rfl
  · by_cases bracket : c = ']'
    · rw [if_neg quote, if_pos bracket] at stands
      rw [attributeLength, if_neg quote, if_pos ⟨bracket, rfl⟩, quotedRanges, if_neg quote,
        if_pos ⟨bracket, rfl⟩]
      exact ⟨_, .closer inside stands, rfl⟩
    · obtain ⟨nodes, onward, marks⟩ := outside first
      rw [if_neg quote, if_neg bracket] at stands
      rw [attributeLength, if_neg quote, if_neg (bracket ·.1), quotedRanges, if_neg quote,
        if_neg (bracket ·.1), ← marks, Nat.add_comm _ 1, ← Nat.add_assoc]
      exact ⟨nodes, (Highlighter.Descends.iff_of_plain inside stands).mpr onward, rfl⟩

theorem readsString_cons (outside : ReadsOutside ignore source (place + 1) rest)
    (string : ReadsString ignore source (place + 1) rest) :
    ReadsString ignore source place (c :: rest) := by
  intro start before
  have stands := attributeString_border? ignore here
  by_cases quote : c = '"'
  · obtain ⟨behind, onward, marks⟩ := outside (place + 1)
    rw [if_pos quote] at stands
    rw [attributeLength, if_pos quote, quotedRanges, if_pos quote, Bool.not_true,
      Nat.add_comm _ 1, ← Nat.add_assoc]
    refine ⟨place + 1, behind, .closer inside stands, Nat.lt_succ_of_lt before, onward, ?_⟩
    rw [marks]
    rfl
  · obtain ⟨middle, behind, within, proper, onward, marks⟩ := string start (Nat.lt_succ_of_lt before)
    have between : ¬ (c = ']' ∧ true = false) := by simp
    have opened : ¬ (c = ']' ∧ some start = none) := by simp
    rw [if_neg quote] at stands
    rw [attributeLength, if_neg quote, if_neg between, quotedRanges, if_neg quote, if_neg opened,
      Nat.add_comm _ 1, ← Nat.add_assoc]
    exact ⟨middle, behind, (Highlighter.Descends.iff_of_plain inside stands).mpr within, proper,
      onward, marks⟩

end Step

/-- By induction on the text that is left, inside and outside of strings at once. -/
theorem attribute_reads {text : List Char} : ∀ {place : Nat}, place ≤ source.size →
    source.part place source.size = text →
      ReadsOutside ignore source place text ∧ ReadsString ignore source place text := by
  induction text with
  | nil =>
      intro place inside left
      have ended := Source.left_eq_nil inside left
      exact ⟨readsOutside_nil ignore ended, readsString_nil ignore ended⟩
  | cons c rest ih =>
      intro place inside left
      obtain ⟨here, before, left⟩ := Source.left_eq_cons left
      obtain ⟨outside, string⟩ := ih before left
      exact ⟨readsOutside_cons ignore before here outside string,
        readsString_cons ignore before here outside string⟩

end Inside

/-- What an attribute opens with, which may be one of the whole file. -/
def attributeOpening (inner : Bool) : List Char :=
  '#' :: if inner then ['!', '['] else ['[']

theorem firstMatch?_attributes {source : Source} {place : Nat} (ignore : Bool) {inner : Bool}
    (stands : source.holdsAt (attributeOpening inner) place = true) :
    (Ready.highlighter.ignoring ignore).firstMatch? source place Ready.root =
      some (.container 14 Ready.attributes (place + (attributeOpening inner).length)) := by
  let opened : Match := ⟨place, [⟨0, true, place⟩]⟩
  have split : source.holdsAt (['#'] ++ if inner then ['!', '['] else ['[']) place = true := stands
  rw [source.holdsAt_append] at split
  obtain ⟨hash, behind⟩ := Bool.and_eq_true_iff.mp split
  have here : source.chars[place]? = some '#' := source.char_of_holdsAt hash
  have first := head?_one (m := opened) (Array.getElem?_eq_some_iff.mp here).1 here
  obtain ⟨last, mark, bracket, inside, stop⟩ :=
    head?_maybe_before '!' (m := { opened with stop := place + 1 }) (by decide) behind
  have whole : (Patterns.attributes.ways source.chars source.size opened).head? =
      some { opened with stop := last + 1 } :=
    Pattern.head?_flatMap_of_head? first (Pattern.head?_flatMap_of_head? mark (head?_one inside bracket))
  have ends : last + 1 = place + (attributeOpening inner).length := by
    rw [stop, attributeOpening, List.length_cons, Nat.add_assoc, Nat.add_comm 1]
  have opens : Ready.attributes.opener.stop? source.chars place source.size =
      some (place + (attributeOpening inner).length) := by
    have found := Program.stop?_ofPattern (p := Patterns.attributes) (by decide) source.chars place source.size
    rw [whole, Option.map_some, ends] at found
    exact found
  have proper : place < place + (attributeOpening inner).length := by
    rw [attributeOpening, List.length_cons]
    omega
  have refused : ∀ inner, Refused [0, 2, 4, 6, 7, 8, 9, 10, 11, 12, 13] (attributeOpening inner) := by
    decide +kernel
  have root : Ready.root = [0, 2, 4, 6, 7, 8, 9, 10, 11, 12, 13] ++ 14 :: Ready.root.drop 12 := rfl
  exact firstMatch?_of_refused ignore root rfl (refused inner) stands (container_match? opens proper)

/-- Where a scan outside of all containers comes to `#[` or `#![`, there is an attribute up to the first
closing bracket outside of quotes, or else to the end. Its nodes lie side by side, and those of them that
have a scope are a string for each stretch between quotes, the last one to the end if it stays open. -/
theorem attribute_goes_to_bracket (text : String) :
    ∃ result, (highlighter.ignoring true).highlight text = .ok result ∧
      ∀ inner scan, (highlighter.ignoring true).Visits (.ofString text) scan → scan.containers = [] →
        (Source.ofString text).holdsAt (attributeOpening inner) scan.pos = true →
          let opened := scan.pos + (attributeOpening inner).length
          let behind := text.toList.drop opened
          let stop := opened + attributeLength false behind
          ∃ children, .marked .metadata scan.pos stop children ∈ result.nodes ∧
            Node.Tiles scan.pos stop children ∧
            markedNodes children = attributeStrings (quotedRanges none opened behind) := by
  obtain ⟨result, highlighted⟩ := Highlighter.highlight_lenient highlighter text
  refine ⟨result, highlighted, ?_⟩
  obtain ⟨formed, _⟩ := plain_eq highlighted
  rw [highlighter_eq] at highlighted ⊢
  intro inner scan visits bare stands opened behind stop
  let source := Source.ofString text
  have inside : opened ≤ source.size := source.holdsAt_le (Nat.le_of_lt visits.inside) stands
  obtain ⟨reads, _⟩ := attribute_reads true inside (source.left_eq_drop opened)
  obtain ⟨nodes, descends, marks⟩ := reads scan.pos
  have member := Highlighter.highlight_opened highlighted visits bare (firstMatch?_attributes true stands)
    rfl descends
  refine ⟨_, member, ?_, ?_⟩
  · cases formed.sound _ member with
    | marked _ tiled _ _ => exact tiled
  · rw [Node.gather_joined markedNodes_append (fun _ _ => rfl)]
    exact marks

/-- A bracket between quotes, and a quote that stays open. -/
def unclosedAttribute : String := "#[\"]\"\"x"

theorem unclosedAttribute_bracketed :
    ∃ result, (highlighter.ignoring true).highlight unclosedAttribute = .ok result ∧
      ∃ children, .marked .metadata 0 7 children ∈ result.nodes ∧ Node.Tiles 0 7 children ∧
        markedNodes children = [.leaf .string 2 5, .leaf .string 5 7] := by
  obtain ⟨result, highlighted, each⟩ := attribute_goes_to_bracket unclosedAttribute
  have starts : (highlighter.ignoring true).Visits (.ofString unclosedAttribute) {} :=
    ⟨⟨0, rfl⟩, by decide⟩
  have stands : (Source.ofString unclosedAttribute).holdsAt (attributeOpening false) 0 = true := by decide
  obtain ⟨children, member, tiled, marks⟩ := each false {} starts rfl stands
  have length : attributeLength false (unclosedAttribute.toList.drop 2) = 5 := by decide
  have ranges : quotedRanges none 2 (unclosedAttribute.toList.drop 2) = [(2, 5), (5, 7)] := by decide
  simp only [attributeOpening, List.length_cons, List.length_nil, Nat.zero_add, Bool.false_eq_true,
    if_false, length] at member tiled
  exact ⟨result, highlighted, children, member, tiled, marks.trans (congrArg attributeStrings ranges)⟩

end Highlighting.Jacy
