import Mathlib.Data.List.Basic
import Highlighting.Proofs.Pattern.Escaped
import Highlighting.Proofs.Pattern.Literal

/-! # Choices between literal texts

Read as a pattern, a choice between single characters becomes one set of characters, and every other
choice between literal texts stays what it is. Either way the first of the texts that stands at a place is
matched. -/
set_option autoImplicit false
namespace Highlighting

namespace CharSet

/-- What is between a character and the one that follows it is no character. -/
theorem following_le {code : Nat} {c : Char} (behind : code < c.toNat) : following code ≤ c.toNat := by
  have valid : c.toNat < 0xD800 ∨ 0xDFFF < c.toNat ∧ c.toNat < 0x110000 := c.valid
  unfold following
  split <;> omega

/-- A range that is added to others brings its characters to theirs, whatever ranges it is joined with. -/
theorem covers_addRange (c : Char) (ranges : List (Nat × Nat)) :
    ∀ {first last : Nat}, first ≤ last →
      (Unicode.covers (addRange first last ranges) c.toNat = true ↔
        (first ≤ c.toNat ∧ c.toNat ≤ last) ∨ Unicode.covers ranges c.toNat = true) := by
  induction ranges with
  | nil =>
      intro first last _
      simp [addRange, Unicode.covers]
  | cons range rest ih =>
      intro first last ordered
      obtain ⟨low, high⟩ := range
      rw [addRange]
      by_cases before : following last < low
      · simp [before, Unicode.covers]
      · by_cases behind : following high < first
        · simp [before, behind, Unicode.covers, ih ordered, or_left_comm]
        · -- The ranges touch: whatever lies between them is no character.
          rw [if_neg before, if_neg behind, ih (by omega)]
          have above : last < c.toNat → following last ≤ c.toNat := following_le
          have beyond : high < c.toNat → following high ≤ c.toNat := following_le
          have joined : (min low first ≤ c.toNat ∧ c.toNat ≤ max high last) ↔
              (first ≤ c.toNat ∧ c.toNat ≤ last) ∨ (low ≤ c.toNat ∧ c.toNat ≤ high) := by
            omega
          simp only [joined, Unicode.covers, Bool.or_eq_true, Bool.and_eq_true, decide_eq_true_eq, or_assoc]

theorem contains_single_union (c d : Char) (set : CharSet) :
    ((single c).union set).contains d = true ↔ d = c ∨ set.contains d = true := by
  have alone : (c.toNat ≤ d.toNat ∧ d.toNat ≤ c.toNat) ↔ d = c := by
    rw [← Char.toNat_inj]
    omega
  rw [← alone]
  exact covers_addRange d set.ranges (Nat.le_refl c.toNat)

theorem contains_ofList {chars : List Char} {c : Char} : (ofList chars).contains c = true ↔ c ∈ chars := by
  induction chars with
  | nil => simp [ofList, none, contains, Unicode.covers]
  | cons d rest ih =>
      rw [ofList, List.foldr_cons, contains_single_union, List.mem_cons, ← ih]
      rfl

end CharSet

namespace Pattern

/-! ## Choices between literal texts -/

theorem choices_literal (text : List Char) : (literal text).choices = [literal text] := by
  rcases text with _ | ⟨c, _ | ⟨d, rest⟩⟩ <;> rfl

theorem members_literal (text : List Char) :
    (literal text).members = text.map fun c => char (.single c) := by
  induction text with
  | nil => rfl
  | cons c rest ih =>
      cases rest with
      | nil => rfl
      | cons d others => exact congrArg (char (.single c) :: ·) ih

theorem flatMap_choices (texts : List (List Char)) :
    (texts.map literal).flatMap choices = texts.map literal := by
  induction texts with
  | nil => rfl
  | cons text rest ih => rw [List.map_cons, List.flatMap_cons, choices_literal, ih, List.singleton_append]

/-- Only sets of characters become one set. -/
theorem char_of_merged? {ps : List Pattern} {p : Pattern} (merged : merged? ps = some p) :
    ∀ q ∈ ps, ∃ set, q = char set := by
  unfold merged? at merged
  dsimp only at merged
  split at merged
  · next all =>
      have count := of_decide_eq_true (Bool.and_eq_true_iff.mp all).1
      intro q member
      have isSet := List.filterMap_length_eq_length.mp count q member
      cases q with
      | char set => exact ⟨set, rfl⟩
      | _ => exact nomatch isSet
  · exact nomatch merged

theorem isSingle_single (c : Char) : (char (.single c)).isSingle = true := by
  simp [isSingle, CharSet.single?, CharSet.single]

/-- Single characters become one set. -/
theorem merged?_singles (chars : List Char) :
    merged? (chars.map fun c => char (.single c)) = some (char (.ofList chars)) := by
  have singles : (chars.map fun c => char (.single c)).filter isSingle = chars.map fun c => char (.single c) := by
    rw [List.filter_eq_self]
    intro p member
    obtain ⟨c, _, rfl⟩ := List.mem_map.mp member
    exact isSingle_single c
  simp [merged?, singles, CharSet.ofList, List.foldr_map, List.filterMap_map]

theorem pieces_chars (c : Char) (rest : List Char) :
    pieces ((c :: rest).map fun d => char (.single d)) = [(c :: rest).map fun d => char (.single d)] := by
  induction rest generalizing c with
  | nil => rfl
  | cons d rest ih =>
      rw [List.map_cons, pieces, ih d]
      simp [isSingle_single]

/-- A literal text is one piece at most, so that nothing is taken out of a choice between such texts. -/
theorem factored?_literals (texts : List (List Char)) : factored? (texts.map literal) = none := by
  cases texts with
  | nil => rfl
  | cons text rest =>
      have short : (pieces (literal text).members).length < 2 := by
        cases text with
        | nil => decide
        | cons c others => 
          rw [members_literal, pieces_chars]
          simp
      have few : (((text :: rest).map literal).map fun p => pieces p.members).any (·.length < 2) = true := by
        rw [List.map_cons, List.map_cons, List.any_cons, decide_eq_true short, Bool.true_or]
      rw [List.map_cons, List.map_cons] at few
      simp only [factored?, List.map_cons, few, Bool.or_true, if_true]

/-- A choice between literal texts is a set of characters if all of them are single characters, and
otherwise the texts are its choices. -/
theorem oneOf_literals (texts : List (List Char)) :
    (∃ chars : List Char, texts = chars.map ([·]) ∧ oneOf (texts.map literal) = char (.ofList chars)) ∨
      oneOf (texts.map literal) = alts (texts.map literal) := by
  by_cases singles : ∀ text ∈ texts, ∃ c, text = [c]
  · left
    obtain ⟨chars, rfl⟩ : ∃ chars : List Char, texts = chars.map ([·]) := by
      induction texts with
      | nil => exact ⟨[], rfl⟩
      | cons text rest ih =>
          obtain ⟨⟨c, rfl⟩, others⟩ := List.forall_mem_cons.mp singles
          obtain ⟨chars, rfl⟩ := ih others
          exact ⟨c :: chars, rfl⟩
    have sets : (chars.map ([·])).map literal = chars.map fun c => char (.single c) := List.map_map
    rw [oneOf, flatMap_choices, sets, merged?_singles]
    exact ⟨chars, rfl, rfl⟩
  · right
    have apart : merged? (texts.map literal) = none := by
      rw [Option.eq_none_iff_forall_ne_some]
      intro set merged
      apply singles
      intro text member
      obtain ⟨set, isSet⟩ := char_of_merged? merged (literal text) (List.mem_map_of_mem member)
      rcases text with _ | ⟨c, _ | ⟨d, rest⟩⟩
      · exact nomatch isSet
      · exact ⟨c, rfl⟩
      · exact nomatch isSet
    rw [oneOf, flatMap_choices, apart, factored?_literals]
    rfl

end Pattern

/-- A set of characters is matched where one of them stands. -/
theorem Program.stop?_ofList (chars : List Char) (source : Source) (place limit : Nat) :
    (ofPattern (.char (.ofList chars))).stop? source.chars place limit =
      ((chars.map ([·])).find? fun text => text.isPrefixOf (source.part place limit)).map
        fun text => place + text.length := by
  have steady : (Pattern.char (.ofList chars)).isSteady = true := rfl
  have stands : ∀ c : Char, [c].isPrefixOf (source.part place limit) = true ↔
      place < limit ∧ source.chars[place]? = some c := by
    intro c
    simp [source.cons_prefix_part]
  rw [stop?_ofPattern steady, Pattern.ways]
  cases first : (chars.map ([·])).find? fun text => text.isPrefixOf (source.part place limit) with
  | none =>
      have missing : ¬ (place < limit ∧
          source.chars[place]?.any (CharSet.ofList chars).contains = true) := by
        rintro ⟨before, member⟩
        obtain ⟨c, here, listed⟩ := (Option.any_eq_true _ _).mp member
        have nowhere := List.find?_eq_none.mp first [c] (List.mem_map_of_mem (CharSet.contains_ofList.mp listed))
        exact nowhere ((stands c).mpr ⟨before, here⟩)
      rw [if_neg missing]
      rfl
  | some text =>
      obtain ⟨c, listed, rfl⟩ := List.mem_map.mp (List.mem_of_find?_eq_some first)
      have starts := List.find?_some first
      obtain ⟨before, here⟩ := (stands c).mp starts
      have taken : place < limit ∧ source.chars[place]?.any (CharSet.ofList chars).contains = true := by
        rw [here, Option.any_some, CharSet.contains_ofList]
        exact ⟨before, listed⟩
      rw [if_pos taken]
      rfl

/-- A choice between literal texts takes the first one that stands at a place. -/
theorem Program.stop?_literalChoice (texts : List (List Char)) (source : Source) (place limit : Nat) :
    (ofPattern (Pattern.literalChoice texts)).stop? source.chars place limit =
      (texts.find? fun text => text.isPrefixOf (source.part place limit)).map
        fun text => place + text.length := by
  have choices : (ofPattern (.alts (texts.map .literal))).stop? source.chars place limit =
      (texts.find? fun text => text.isPrefixOf (source.part place limit)).map
        fun text => place + text.length := by
    have spelled : (texts.map String.ofList).map (fun spelling => Pattern.literal spelling.toList) =
        texts.map .literal := by simp
    rw [← spelled, stop?_literals, List.find?_map, Option.map_map]
    simp [Function.comp_def]
  rcases texts with _ | ⟨text, _ | ⟨other, rest⟩⟩
  · exact choices
  · exact choices
  · have several : Pattern.literalChoice (text :: other :: rest) =
        Pattern.oneOf ((text :: other :: rest).map .literal) := rfl
    rw [several]
    rcases Pattern.oneOf_literals (text :: other :: rest) with ⟨chars, singles, isSet⟩ | isChoice
    · rw [isSet, singles, stop?_ofList]
    · rw [isChoice, choices]

end Highlighting
