import Highlighting.Proofs.Jacy.Openings

/-! # Strings in Jacy

A string goes up to the first quote that is not escaped. An escape is a backslash with the character behind
it, whatever it is, and a backslash at the end of the text escapes nothing. Escapes are text like all that
is in a string, so that a string has one piece of text in it. -/
set_option autoImplicit false
namespace Highlighting

namespace Node

/-- Pieces of text, one behind the other, from one place up to another. -/
inductive Pieces : Nat → Nat → List Node → Prop where
  | nil (place : Nat) : Pieces place place []
  | cons {first middle last : Nat} {rest : List Node} (ordered : first ≤ middle)
      (pieces : Pieces middle last rest) : Pieces first last (.text first middle :: rest)

namespace Pieces
variable {first last : Nat} {nodes : List Node}

theorem ordered (pieces : Pieces first last nodes) : first ≤ last := by
  induction pieces with
  | nil place => exact Nat.le_refl place
  | cons ordered _ further => exact Nat.le_trans ordered further

/-- Pieces of text are pushed like one text. -/
theorem pushAll (pieces : Pieces first last nodes) :
    ∀ siblings, Node.pushAll siblings nodes = push siblings (.text first last) := by
  induction pieces with
  | nil place => exact fun siblings => (push_empty siblings place).symm
  | @cons first middle last rest ordered pieces ih =>
      intro siblings
      have behind : Node.pushAll siblings (.text first middle :: rest) =
          push (push siblings (.text first middle)) (.text middle last) :=
        ih (push siblings (.text first middle))
      rw [behind]
      rcases Nat.eq_or_lt_of_le ordered with rfl | proper
      · rw [push_empty]
      · exact push_text_text siblings proper pieces.ordered

theorem joined (pieces : Pieces first last nodes) (proper : first < last) :
    Node.joined nodes = [.text first last] := by
  have alone : push [] (.text first last) = [.text first last] := by
    simp only [push, if_neg (Nat.not_le.mpr proper)]
  rw [Node.joined, pieces.pushAll, alone, List.reverse_singleton]

end Pieces

end Node

namespace Jacy

/-- How far a string goes behind its opener: to its closing quote, that one included, or else to the end. -/
def quotedLength : List Char → Nat
  | [] => 0
  | '\\' :: _ :: rest => quotedLength rest + 2
  | '"' :: _ => 1
  | _ :: rest => quotedLength rest + 1

example : quotedLength "a\\\"\\\\\" b".toList = 6 := by decide

section Escapes
variable {source : Source} {place : Nat}

theorem contains_all (c : Char) : CharSet.all.contains c = true := by
  have last : c.toNat ≤ 0x10FFFF := by
    have valid := c.valid
    simp only [UInt32.isValidChar, Nat.isValidChar] at valid
    have same : c.toNat = c.val.toNat := rfl
    omega
  simp [CharSet.contains, CharSet.all, Unicode.covers, last]

theorem escape_stop? (backslash : source.chars[place]? = some '\\') (inside : place + 1 < source.size) :
    Ready.escape.stop? source place = some (place + 2) := by
  let opened : Match := ⟨place, [⟨0, true, place⟩]⟩
  have first := head?_one (m := opened) (Nat.lt_of_succ_lt inside) backslash
  have second : ((Pattern.char .all).ways source.chars source.size { opened with stop := place + 1 }).head? =
      some { opened with stop := place + 2 } := by
    have there : source.chars[place + 1]? = some source.chars[place + 1] := Array.getElem?_eq_getElem inside
    have taken : source.chars[place + 1]?.any CharSet.all.contains = true := by
      rw [there]
      exact contains_all _
    rw [Pattern.ways, if_pos ⟨inside, taken⟩]
    rfl
  have text : Ready.escape.textStop? source place = some (place + 2) := by
    have found := Program.stop?_ofPattern (p := Patterns.escape) (by decide) source.chars place source.size
    have whole : (Patterns.escape.ways source.chars source.size opened).head? =
        some { opened with stop := place + 2 } :=
      Pattern.head?_flatMap_of_head? first second
    rw [whole] at found
    exact found
  have accepted : Ready.escape.accepts source place (place + 2) = true := by
    rw [SingleRule.accepts, decide_eq_true (by omega)]
    rfl
  rw [SingleRule.stop?, text, Option.filter_some, if_pos accepted]

theorem escape_stop?_eq_none
    (missing : source.chars[place]? = some '\\' → source.size ≤ place + 1) :
    Ready.escape.stop? source place = none := by
  cases found : Ready.escape.stop? source place with
  | none => rfl
  | some stop =>
      obtain ⟨text, _⟩ := Option.filter_eq_some_iff.mp found
      have matched : (Program.ofPattern Patterns.escape).stop? source.chars place source.size = some stop :=
        text
      rw [Program.stop?_ofPattern (by decide)] at matched
      obtain ⟨k, first, _⟩ := Option.map_eq_some_iff.mp matched
      obtain ⟨between, letter, behind⟩ := List.mem_flatMap.mp (List.mem_of_mem_head? first)
      obtain ⟨⟨_, backslash⟩, rfl⟩ := Patterns.mem_one_ways.mp letter
      obtain ⟨⟨inside, _⟩, _⟩ := Patterns.mem_char_ways.mp behind
      have ended := missing backslash
      exact absurd inside (Nat.not_lt.mpr ended)

end Escapes

section Inside

/-- What stands at a place in a string. -/
theorem string_border? (ignore : Bool) (source : Source) (place : Nat) :
    (Ready.highlighter.ignoring ignore).border? source (some Ready.string) place =
      match Ready.escape.stop? source place with
      | some stop => some (.inner (.single 5 Ready.escape stop))
      | none => if source.holdsAt ['"'] place then some (.closer (place + 1)) else none := by
  have rules : Ready.string.rules = [5] := rfl
  have listed : (Ready.highlighter.ignoring ignore).rules[5]? = some (.single Ready.escape) := rfl
  have closer : Ready.string.closer.stop? source.chars place source.size =
      if source.holdsAt ['"'] place then some (place + 1) else none :=
    Program.stop?_literal ['"'] source place
  rw [Highlighter.border?_of_lawful rfl, rules, Highlighter.firstMatch?_single _ listed, closer]
  cases Ready.escape.stop? source place with
  | some stop => rfl
  | none =>
      rw [Highlighter.firstMatch?]
      cases source.holdsAt ['"'] place <;> rfl

/-- A string is read to its closing quote, or to the end of the text, as pieces of text. -/
theorem string_descends (ignore : Bool) {source : Source} {text : List Char} : ∀ {first place : Nat}, first ≤ place →
    place ≤ source.size → source.part place source.size = text →
      ∃ nodes, (Ready.highlighter.ignoring ignore).Descends source (some Ready.string) first place
        (place + quotedLength text) nodes ∧ Node.Pieces first (place + quotedLength text) nodes := by
  have nodes : ∀ start stop, (Ready.highlighter.ignoring ignore).textNodes source (some Ready.string) start
      stop = [.text start stop] := fun _ _ => rfl
  induction text using quotedLength.induct with
  | case1 =>
      intro first place ordered inside left
      obtain rfl := Source.left_eq_nil inside left
      exact ⟨_, .ends (Nat.le_refl _), .cons ordered (.nil _)⟩
  | case2 c rest ih =>
      intro first place ordered inside left
      obtain ⟨backslash, before, left⟩ := Source.left_eq_cons left
      obtain ⟨_, within, left⟩ := Source.left_eq_cons left
      have stands := string_border? ignore source place
      rw [escape_stop? backslash within] at stands
      obtain ⟨others, descends, pieces⟩ := ih (Nat.le_refl (place + 2)) within left
      have length : place + quotedLength ('\\' :: c :: rest) = place + 2 + quotedLength rest := by
        rw [quotedLength]
        omega
      rw [length]
      exact ⟨_, .flat before stands rfl descends,
        .cons ordered (.cons (Nat.le_add_right place 2) pieces)⟩
  | case3 rest =>
      intro first place ordered inside left
      obtain ⟨quote, before, _⟩ := Source.left_eq_cons left
      have noEscape : Ready.escape.stop? source place = none :=
        escape_stop?_eq_none fun backslash => by
          rw [quote] at backslash
          exact absurd backslash (by decide)
      have stands := string_border? ignore source place
      rw [noEscape, Source.holdsAt_singleton.mpr quote] at stands
      exact ⟨_, .closer before stands, .cons (Nat.le_succ_of_le ordered) (.nil _)⟩
  | case4 c rest noPair noQuote ih =>
      intro first place ordered inside left
      obtain ⟨here, before, left⟩ := Source.left_eq_cons left
      have noEscape : Ready.escape.stop? source place = none := by
        refine escape_stop?_eq_none fun backslash => ?_
        rw [here] at backslash
        cases rest with
        | nil => exact Nat.le_of_eq (Source.left_eq_nil before left).symm
        | cons d more => exact absurd rfl (noPair d more (Option.some.inj backslash))
      have other : source.holdsAt ['"'] place = false := by
        rw [← Bool.not_eq_true, Source.holdsAt_singleton, here]
        exact fun quote => noQuote (Option.some.inj quote)
      have plain := string_border? ignore source place
      rw [noEscape, other] at plain
      obtain ⟨others, descends, pieces⟩ := ih (Nat.le_succ_of_le ordered) before left
      have length : place + quotedLength (c :: rest) = place + 1 + quotedLength rest := by
        rw [quotedLength]
        · omega
        · exact noPair
        · exact noQuote
      rw [length]
      exact ⟨others, (Highlighter.Descends.iff_of_plain before plain).mpr descends, pieces⟩

end Inside

/-- Where a scan outside of all containers comes to a quote, or to one with the letter of bytes in front
of it, there is a string with one piece of text, up to the first quote that is not escaped. -/
theorem string_goes_to_quote (text : String) :
    ∃ result, (highlighter.ignoring true).highlight text = .ok result ∧
      ∀ byte scan, (highlighter.ignoring true).Visits (.ofString text) scan → scan.containers = [] →
        (Source.ofString text).holdsAt (prefixed byte '"') scan.pos = true →
          let opened := scan.pos + (prefixed byte '"').length
          let stop := opened + quotedLength (text.toList.drop opened)
          .marked .string scan.pos stop [.text scan.pos stop] ∈ result.nodes := by
  rw [highlighter_eq]
  obtain ⟨result, highlighted⟩ := Highlighter.highlight_lenient Ready.highlighter text
  refine ⟨result, highlighted, ?_⟩
  intro byte scan visits bare stands opened stop
  let source := Source.ofString text
  have first := firstMatch?_string true stands
  have inside : opened ≤ source.size := source.holdsAt_le (Nat.le_of_lt visits.inside) stands
  have proper : scan.pos < opened := by
    cases byte <;> exact Nat.lt_add_of_pos_right (by decide)
  obtain ⟨nodes, descends, pieces⟩ := string_descends true (Nat.le_of_lt proper) inside
    (source.left_eq_drop opened)
  have later : scan.pos < stop := Nat.lt_of_lt_of_le proper (Nat.le_add_right _ _)
  have marked := Highlighter.highlight_opened highlighted visits bare first rfl descends
  rwa [pieces.joined later] at marked

/-- Bytes with an escaped quote and an escaped backslash in front of the closing quote. -/
def escapes : String := "b\"\\\"\\\\\"x"

theorem escapes_closed : ∃ result, (highlighter.ignoring true).highlight escapes = .ok result ∧
    .marked .string 0 7 [.text 0 7] ∈ result.nodes := by
  obtain ⟨result, highlighted, each⟩ := string_goes_to_quote escapes
  have starts : (highlighter.ignoring true).Visits (.ofString escapes) {} :=
    ⟨⟨0, rfl⟩, by decide⟩
  have stands : (Source.ofString escapes).holdsAt (prefixed true '"') 0 = true := by decide
  have length : quotedLength (escapes.toList.drop 2) = 5 := by decide
  have marked := each true {} starts rfl stands
  simp only [prefixed, if_true, List.length_cons, List.length_nil, Nat.zero_add, length] at marked
  exact ⟨result, highlighted, marked⟩

end Jacy

end Highlighting
