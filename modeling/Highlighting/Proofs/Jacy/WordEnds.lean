import Highlighting.Proofs.Jacy.Calls
import Highlighting.Proofs.Scan.Labels
import Highlighting.Proofs.Scan.Splitting
import Highlighting.Proofs.Scan.WordStarts

/-! # Where sorted words of Jacy end

The words of Jacy are runs of letters, digits and underscores of ASCII, and an operator that is marked by
its pattern has none of these. So a marked word ends where the run does, which is the end of an identifier
unless it goes on with letters of other scripts. -/
set_option autoImplicit false
namespace Highlighting.Jacy

/-! ## Runs -/

/-- The word characters from a place on end at `last`. -/
structure Run (source : Source) (place last : Nat) : Prop where
  proper : place < last
  each : ∀ passed, place ≤ passed → passed < last → source.chars[passed]?.any (Assertion.isWord false) = true
  ends : source.chars[last]?.any (Assertion.isWord false) = false

section Words
variable {source : Source} {place last : Nat}

theorem Run.unique {other : Nat} (run : Run source place last) (also : Run source place other) :
    last = other := by
  rcases Nat.lt_trichotomy last other with before | same | behind
  · have word := also.each last (Nat.le_of_lt run.proper) before
    rw [run.ends] at word
    exact nomatch word
  · exact same
  · have word := run.each other (Nat.le_of_lt also.proper) behind
    rw [also.ends] at word
    exact nomatch word

/-- A run starts wherever a word character stands. -/
theorem run_of_word (word : source.chars[place]?.any (Assertion.isWord false) = true) :
    ∃ last, last ≤ source.size ∧ Run source place last := by
  obtain ⟨c, here, _⟩ := (Option.any_eq_true _ _).mp word
  obtain ⟨inside, _⟩ := Array.getElem?_eq_some_iff.mp here
  have edge : ¬ InWord source.chars source.size := by
    intro absurdity
    have behind := absurdity.behind
    rw [Array.getElem?_eq_none (Nat.le_refl source.size)] at behind
    exact nomatch behind
  obtain ⟨last, proper, within, _, _, each, ends⟩ :=
    exists_run (Nat.le_refl source.size) edge inside word
  exact ⟨last, within, proper, each, ends⟩

/-! ## The words and the operators of the table -/

theorem highlighter_words : highlighter.words = Ready.words := by
  rw [highlighter_eq]
  rfl

def listedWords : List String :=
  language.keywords.vocabularies.flatMap (·.2)

theorem listed_unmarked : ∀ word ∈ listedWords, word.toList.getLast? ≠ some '!' := by
  decide +kernel

/-- A listed word that may end inside an identifier is a name. -/
theorem listed_name : ∀ word ∈ listedWords, word.toList.getLast?.any Unicode.isIdentifier = true →
    word.toList.head?.any Patterns.letters.contains = true ∧
      ∀ c ∈ word.toList, Assertion.isWord false c = true := by
  decide +kernel

/-- An operator starts with a letter, or it has nothing that can be in an identifier. -/
theorem spellings_symbolic : ∀ spelling ∈ Patterns.spellings,
    spelling.toList.head?.any Patterns.letters.contains = true ∨
      ∀ c ∈ spelling.toList, Unicode.isIdentifier c = false := by
  decide +kernel

theorem words_scope? (word : String) : Ready.words.scope? word = language.keywords.scopeOf? word := by
  simp only [WordTable.scope?, Ready.words, Keywords.vocabularies, WordTable.scope?_cons, List.find?_nil,
    Option.map_none, Keywords.scopeOf?]

theorem mem_listedWords {word : String} {scope : Scope}
    (known : language.keywords.scopeOf? word = some scope) : word ∈ listedWords := by
  rw [← words_scope?] at known
  obtain ⟨vocabulary, listed, _, member⟩ := WordTable.scope?_mem known
  exact List.mem_flatMap.mpr ⟨vocabulary, listed, member⟩

/-- Where no letter stands, the word pattern has no match. -/
theorem pattern_stop?_eq_none (limit : Nat)
    (noLetter : source.chars[place]?.any Patterns.letters.contains = false) :
    Ready.words.pattern.stop? source.chars place limit = none := by
  have steady : Patterns.word.isSteady = true := by decide
  have stays : ¬ (place < limit ∧ source.chars[place]?.any Patterns.letters.contains = true) := by
    simp [noLetter]
  have nothing : Patterns.word.ways source.chars limit ⟨place, [⟨0, true, place⟩]⟩ = [] := by
    rw [Patterns.word, Pattern.ways_seqs, Pattern.ways, if_neg stays, List.flatMap_nil]
  have pattern : Ready.words.pattern = .ofPattern Patterns.word := rfl
  rw [pattern, Program.stop?_ofPattern steady, nothing]
  rfl

/-- Where a letter stands, the table takes the run of word characters, and leaves a mark behind it. -/
theorem lookUp_run (letter : source.chars[place]?.any Patterns.letters.contains = true) :
    ∃ last candidate, Run source place last ∧
      (Ready.words.pattern.stop? source.chars place source.size).filter (place < ·) = some candidate ∧
      Ready.words.lookUp source place candidate =
        (language.keywords.scopeOf? (source.slice place last), last) := by
  obtain ⟨c, here, isLetter⟩ := (Option.any_eq_true _ _).mp letter
  have word : source.chars[place]?.any (Assertion.isWord false) = true := by
    rw [here]
    exact letters_isWord isLetter
  obtain ⟨last, within, run⟩ := run_of_word word
  have steady : Patterns.word.isSteady = true := by decide
  have taken : ∀ stop, stop ≤ source.size →
      (stop = last ∧ source.chars[last]? ≠ some '!' ∨ stop = last + 1 ∧ source.chars[last]? = some '!') →
        (Ready.words.pattern.stop? source.chars place source.size).filter (place < ·) = some stop := by
    intro stop inside mark
    have first : (Patterns.word.ways source.chars source.size ⟨place, [⟨0, true, place⟩]⟩).head? =
        some ⟨stop, [⟨0, true, place⟩]⟩ :=
      head?_word_ways letter run.proper run.each run.ends inside mark
    have stops : Ready.words.pattern.stop? source.chars place source.size = some stop := by
      have pattern : Ready.words.pattern = .ofPattern Patterns.word := rfl
      rw [pattern, Program.stop?_ofPattern steady, first]
      rfl
    have proper : place < stop := by
      have := run.proper
      omega
    rw [stops]
    exact Option.filter_some_pos (decide_eq_true proper)
  by_cases mark : source.chars[last]? = some '!'
  · obtain ⟨inside, _⟩ := Array.getElem?_eq_some_iff.mp mark
    refine ⟨last, last + 1, run, taken (last + 1) inside (.inr ⟨rfl, mark⟩), ?_⟩
    have long : 1 < last + 1 - place := by
      have := run.proper
      omega
    have unlisted : Ready.words.scope? (source.slice place (last + 1)) = none := by
      rw [words_scope?, Option.eq_none_iff_forall_ne_some]
      intro scope known
      apply listed_unmarked _ (mem_listedWords known)
      rw [Source.slice, String.toList_ofList, source.part_getLast? (Nat.lt_succ_of_lt run.proper) inside]
      exact mark
    rw [WordTable.lookUp, unlisted]
    simp [long, mark, words_scope?]
  · refine ⟨last, last, run, taken last within (.inl ⟨rfl, mark⟩), ?_⟩
    have unmarked : source.chars[last - 1]? ≠ some '!' := by
      have proper := run.proper
      have isWord := run.each (last - 1) (by omega) (by omega)
      intro mark
      rw [mark] at isWord
      exact absurd isWord (by decide)
    rw [WordTable.lookUp, words_scope?]
    cases language.keywords.scopeOf? (source.slice place last) with
    | some scope => rfl
    | none => simp [unmarked]

theorem spellings_visible : ∀ spelling ∈ Patterns.spellings,
    spelling.toList.head?.any (!CharSet.blank.contains ·) = true := by
  decide +kernel

/-- Where a blank stands, the table takes nothing. -/
theorem not_takes_blank {limit : Nat} (blank : source.chars[place]?.any CharSet.blank.contains = true) :
    ¬ Ready.words.Takes source limit place last := by
  obtain ⟨c, here, isBlank⟩ := (Option.any_eq_true _ _).mp blank
  have noLetter : source.chars[place]?.any Patterns.letters.contains = false := by
    rw [here, Option.any_some, ← Bool.not_eq_true]
    intro letter
    have isWord := letters_isWord letter
    rw [blank_not_isWord isBlank] at isWord
    exact Bool.false_ne_true isWord
  intro takes
  cases takes with
  | word _ matched =>
      rw [pattern_stop?_eq_none limit noLetter] at matched
      exact nomatch matched
  | operator _ _ matched =>
      have spells : Ready.words.Spells Patterns.spellings := rfl
      obtain ⟨spelling, listed, stands, _⟩ := spells.stands (Option.filter_eq_some_iff.mp matched).1
      obtain ⟨d, first, visible⟩ := (Option.any_eq_true _ _).mp (spellings_visible spelling listed)
      obtain ⟨rest, split⟩ := List.head?_eq_some_iff.mp first
      rw [split] at stands
      obtain rfl := Option.some.inj ((source.char_of_holdsAt stands).symm.trans here)
      rw [isBlank] at visible
      exact Bool.false_ne_true visible

/-- What is taken at once is a run of word characters, or it has nothing that can be in an identifier. -/
theorem takes_cases (takes : Ready.words.Takes source source.size place last) :
    (Run source place last ∧ source.chars[place]?.any Patterns.letters.contains = true) ∨
      ∀ passed, place ≤ passed → passed < last → source.chars[passed]?.any Unicode.isIdentifier = false := by
  cases letter : source.chars[place]?.any Patterns.letters.contains with
  | true =>
      left
      obtain ⟨_, candidate, run, matched, looked⟩ := lookUp_run letter
      cases takes with
      | word _ also =>
          obtain rfl := Option.some.inj (also.symm.trans matched)
          rw [looked]
          exact ⟨run, rfl⟩
      | operator _ noWord _ =>
          rw [matched] at noWord
          exact nomatch noWord
  | false =>
      right
      have noWord := pattern_stop?_eq_none source.size letter
      cases takes with
      | word _ matched =>
          rw [noWord] at matched
          exact nomatch matched
      | operator _ _ matched =>
          have spells : Ready.words.Spells Patterns.spellings := rfl
          obtain ⟨spelling, listed, stands, rfl⟩ := spells.stands (Option.filter_eq_some_iff.mp matched).1
          intro passed after before
          rw [← String.length_toList] at before
          obtain ⟨c, member, here⟩ := source.char_of_stands stands after before
          rw [here, Option.any_some]
          rcases spellings_symbolic spelling listed with starts | symbols
          · obtain ⟨d, head, isLetter⟩ := (Option.any_eq_true _ _).mp starts
            obtain ⟨rest, split⟩ := List.head?_eq_some_iff.mp head
            rw [split] at stands
            rw [source.char_of_holdsAt stands, Option.any_some, isLetter] at letter
            exact nomatch letter
          · exact symbols c member

/-- No match passes over a letter that does not stand inside an identifier. -/
theorem open_of_letter (outside : WordTable.insideIdentifier source place = false)
    (letter : source.chars[place]?.any Patterns.letters.contains = true) :
    Ready.words.Open source 0 source.size place := by
  intro first last _ before takes
  rw [← Nat.not_lt]
  intro beyond
  obtain ⟨c, here, isLetter⟩ := (Option.any_eq_true _ _).mp letter
  have identifier : source.chars[place]?.any Unicode.isIdentifier = true := by
    rw [here]
    exact (isWord_of_ascii (letters_isWord isLetter)).2
  rcases takes_cases takes with ⟨run, _⟩ | symbols
  · -- A run over the letter has the character before it too, so that the letter is inside an identifier.
    have earlier := (any_isWord_of_ascii (run.each (place - 1) (by omega) (by omega))).2
    have proper : 0 < place := by omega
    simp [WordTable.insideIdentifier, proper, earlier, identifier] at outside
  · rw [symbols place (Nat.le_of_lt before) beyond] at identifier
    exact absurd identifier Bool.false_ne_true

/-- What the table finds is a listed run, or it has nothing that can be in an identifier. -/
theorem finds_cases {mark : Marking} (finds : Ready.words.Finds source source.size mark) :
    (Run source mark.start mark.stop ∧ source.chars[mark.start]?.any Patterns.letters.contains = true ∧
        language.keywords.scopeOf? (source.slice mark.start mark.stop) = some mark.scope) ∨
      ∀ passed, mark.start ≤ passed → passed < mark.stop →
        source.chars[passed]?.any Unicode.isIdentifier = false := by
  rcases takes_cases finds.takes with ⟨run, letter⟩ | symbols
  · left
    obtain ⟨last, candidate, also, matched, looked⟩ := lookUp_run letter
    obtain rfl := also.unique run
    refine ⟨run, letter, ?_⟩
    cases finds with
    | word _ found known =>
        obtain rfl := Option.some.inj (found.symm.trans matched)
        exact (Prod.mk.inj (looked.symm.trans known)).1
    | operator _ noWord _ =>
        rw [matched] at noWord
        exact nomatch noWord
  · exact .inr symbols

end Words

/-! ## Words in a text -/

/-- In front of a character of identifiers a place is inside one if the text before it ends with such a
character. -/
theorem insideIdentifier_of_split {source : Source} {front rest : List Char} {c : Char}
    (chars : source.chars.toList = front ++ c :: rest) (identifier : Unicode.isIdentifier c = true) :
    WordTable.insideIdentifier source front.length = front.getLast?.any Unicode.isIdentifier := by
  rcases List.eq_nil_or_concat front with rfl | ⟨init, d, rfl⟩
  · rfl
  · simp only [WordTable.insideIdentifier, ← Array.getElem?_toList, chars]
    simp [identifier]

/-- The letters of a listed word are a run where a character follows that is beyond ASCII. -/
theorem run_of_listed {source : Source} {place : Nat} {word : String}
    (stands : source.holdsAt word.toList place = true) (nonempty : word ≠ "")
    (name : ∀ c ∈ word.toList, Assertion.isWord false c = true) {d : Char}
    (behind : source.chars[place + word.length]? = some d) (beyond : 0x80 ≤ d.toNat) :
    Run source place (place + word.length) := by
  constructor
  case proper =>
    have positive : word.length ≠ 0 := by simpa using nonempty
    omega
  case each =>
    intro passed after before
    rw [← String.length_toList] at before
    obtain ⟨c, member, here⟩ := source.char_of_stands stands after before
    rw [here]
    exact name c member
  case ends =>
    rw [behind, Option.any_some, ← Bool.not_eq_true]
    intro isWord
    have small := code_of_isWord isWord
    omega

/-- A word that ends with a character of identifiers is found as a listed run. -/
theorem run_of_finds {source : Source} {place : Nat} {word : String} {scope : Scope}
    (stands : source.holdsAt word.toList place = true)
    (last : word.toList.getLast?.any Unicode.isIdentifier = true)
    (finds : Ready.words.Finds source source.size ⟨scope, place, place + word.length⟩) :
    Run source place (place + word.length) ∧ source.chars[place]?.any Patterns.letters.contains = true ∧
      language.keywords.scopeOf? word = some scope := by
  have slice := source.slice_word stands
  rcases finds_cases finds with ⟨run, letter, known⟩ | symbols
  · exact ⟨run, letter, slice ▸ known⟩
  · obtain ⟨c, final, identifier⟩ := (Option.any_eq_true _ _).mp last
    obtain ⟨front, split⟩ := List.getLast?_eq_some_iff.mp final
    have behind : source.chars[place + front.length]? = some c := by
      rw [split, source.holdsAt_append] at stands
      exact source.char_of_holdsAt (Bool.and_eq_true_iff.mp stands).2
    have within : place + front.length < place + word.length := by
      rw [← String.length_toList, split, List.length_append, List.length_singleton]
      exact Nat.lt_succ_self _
    have symbol : source.chars[place + front.length]?.any Unicode.isIdentifier = false :=
      symbols _ (Nat.le_add_right _ _) within
    rw [behind, Option.any_some, identifier] at symbol
    exact nomatch symbol

/-- A word is found up to a place inside an identifier exactly when it is listed, does not start inside one,
and the character behind it is beyond ASCII. -/
theorem finds_inside_iff {source : Source} {place : Nat} {word : String} {scope : Scope} {d : Char}
    (stands : source.holdsAt word.toList place = true)
    (last : word.toList.getLast?.any Unicode.isIdentifier = true)
    (behind : source.chars[place + word.length]? = some d) (identifier : Unicode.isIdentifier d = true) :
    Ready.words.Finds source source.size ⟨scope, place, place + word.length⟩ ↔
      language.keywords.scopeOf? word = some scope ∧ WordTable.insideIdentifier source place = false ∧
        0x80 ≤ d.toNat := by
  constructor
  · intro finds
    obtain ⟨run, _, known⟩ := run_of_finds stands last finds
    refine ⟨known, finds.outside, ?_⟩
    rw [← Nat.not_lt]
    intro small
    have ends := run.ends
    rw [behind, Option.any_some, ← isIdentifier_of_ascii small, identifier] at ends
    exact nomatch ends
  · rintro ⟨known, outside, beyond⟩
    obtain ⟨first, name⟩ := listed_name word (mem_listedWords known) last
    obtain ⟨c, head, isLetter⟩ := (Option.any_eq_true _ _).mp first
    obtain ⟨rest, split⟩ := List.head?_eq_some_iff.mp head
    have nonempty : word ≠ "" := by
      rintro rfl
      exact nomatch split
    have run := run_of_listed stands nonempty name behind beyond
    have slice := source.slice_word stands
    have letter : source.chars[place]?.any Patterns.letters.contains = true := by
      rw [split] at stands
      rwa [source.char_of_holdsAt stands]
    obtain ⟨stop, candidate, also, matched, looked⟩ := lookUp_run letter
    obtain rfl := also.unique run
    rw [slice, known] at looked
    exact .word outside matched looked

/-- Sorting marks a word that ends with a character of identifiers wherever it is found. -/
theorem mem_sort_iff_finds {source : Source} {place : Nat} {word : String} {scope : Scope}
    (stands : source.holdsAt word.toList place = true)
    (last : word.toList.getLast?.any Unicode.isIdentifier = true) :
    ⟨scope, place, place + word.length⟩ ∈ Node.marksAll (Ready.words.sort source 0 source.size).nodes ↔
      Ready.words.Finds source source.size ⟨scope, place, place + word.length⟩ := by
  constructor
  · exact WordTable.sort_finds _
  · intro finds
    obtain ⟨_, letter, _⟩ := run_of_finds stands last finds
    obtain ⟨c, here, _⟩ := (Option.any_eq_true _ _).mp letter
    obtain ⟨inside, _⟩ := Array.getElem?_eq_some_iff.mp here
    exact WordTable.sort_reaches finds (Nat.zero_le place) inside (open_of_letter finds.outside letter)

/-- In front of a listed word that ends with a character of identifiers, a place is inside an identifier if
the text before it ends with such a character. -/
theorem insideIdentifier_of_listed {source : Source} {before rest : List Char} {word : String} {scope : Scope}
    (chars : source.chars.toList = before ++ (word.toList ++ rest))
    (known : language.keywords.scopeOf? word = some scope)
    (last : word.toList.getLast?.any Unicode.isIdentifier = true) :
    WordTable.insideIdentifier source before.length = before.getLast?.any Unicode.isIdentifier := by
  obtain ⟨first, _⟩ := listed_name word (mem_listedWords known) last
  obtain ⟨c, head, isLetter⟩ := (Option.any_eq_true _ _).mp first
  obtain ⟨others, split⟩ := List.head?_eq_some_iff.mp head
  rw [split, List.cons_append] at chars
  exact insideIdentifier_of_split chars (isWord_of_ascii (letters_isWord isLetter)).2

/-- A word is marked up to a place inside an identifier exactly when it is listed, does not start inside the
identifier, and the identifier goes on with a character beyond ASCII. -/
theorem words_end_inside_iff (scan : Scan) (before word after : String) (scope : Scope)
    (last : word.toList.getLast?.any Unicode.isIdentifier = true)
    (next : after.toList.head?.any Unicode.isIdentifier = true) :
    let source := Source.ofString (before ++ word ++ after)
    .leaf scope before.length (before.length + word.length) ∈
        (scan.sort source (some highlighter.words) 0 source.size).1 ↔
      language.keywords.scopeOf? word = some scope ∧
        before.toList.getLast?.any Unicode.isIdentifier = false ∧
          after.toList.head?.all (0x80 ≤ ·.toNat) = true := by
  intro source
  obtain ⟨d, head, identifier⟩ := (Option.any_eq_true _ _).mp next
  have stands : source.holdsAt word.toList before.length = true := stands_of_split
  have chars : source.chars.toList = before.toList ++ (word.toList ++ after.toList) := by
    rw [← String.toList_append, ← String.toList_append, ← String.append_assoc]
    rfl
  have behind : source.chars[before.length + word.length]? = some d := by
    have front : before.length + word.length = (before.toList ++ word.toList).length := by
      rw [List.length_append, String.length_toList, String.length_toList]
    rw [← Array.getElem?_toList, chars, ← List.append_assoc, front,
      List.getElem?_append_right (Nat.le_refl _), Nat.sub_self, ← List.head?_eq_getElem?, head]
  rw [highlighter_words, WordTable.leaf_mem_sort_iff, mem_sort_iff_finds stands last,
    finds_inside_iff stands last behind identifier]
  apply and_congr_right
  intro known
  have edge := insideIdentifier_of_listed chars known last
  rw [String.length_toList] at edge
  simp [edge, head]

/-- A keyword with a letter behind it that is not of ASCII. -/
def accented : String :=
  "ifé"

theorem accented_marked : .leaf .keyword 0 2 ∈
    (({} : Scan).sort (.ofString accented) (some highlighter.words) 0 3).1 := by
  rw [highlighter_words, WordTable.leaf_mem_sort_iff]
  decide +kernel

theorem accented_ends : "if".toList.getLast?.any Unicode.isIdentifier = true ∧
    "é".toList.head?.any Unicode.isIdentifier = true ∧ language.keywords.scopeOf? "if" = some .keyword ∧
      "".toList.getLast?.any Unicode.isIdentifier = false ∧
        "é".toList.head?.all (0x80 ≤ ·.toNat) = true := by
  have last : "if".toList.getLast?.any Unicode.isIdentifier = true := by decide
  have next : "é".toList.head?.any Unicode.isIdentifier = true := by decide +kernel
  exact ⟨last, next, (words_end_inside_iff {} "" "if" "é" .keyword last next).mp accented_marked⟩

/-- Words of Jacy do not all end outside of identifiers. -/
theorem not_all_words_end_at_edges :
    ¬ ∀ (text : String) (scope : Scope) (first last : Nat) (children : List Node),
      .marked scope first last children ∈
          (({} : Scan).sort (.ofString text) (some highlighter.words) 0 (Source.ofString text).size).1 →
        ¬ ((Source.ofString text).chars[last - 1]?.any Unicode.isIdentifier = true ∧
          (Source.ofString text).chars[last]?.any Unicode.isIdentifier = true) := by
  intro all
  exact all accented _ _ _ _ accented_marked ⟨by decide, by decide +kernel⟩

end Highlighting.Jacy
