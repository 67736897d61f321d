import Highlighting.Proofs.Jacy
import Highlighting.Proofs.Pattern.Edges
import Highlighting.Proofs.Pattern.Runs

/-! # The rule of calls in Jacy

The rule of calls takes a name, and maybe an exclamation mark, where a parenthesis opens behind it and
behind blanks. Which words it can take is told by their letters, so that it takes such a word wherever
it stands by itself in front of a parenthesis. -/
set_option autoImplicit false
namespace Highlighting.Jacy

/-! ## Word characters -/

theorem wordChars_eq : Patterns.wordChars = .plainWord := by
  decide

theorem wordChars_isWord : Patterns.wordChars.contains = Assertion.isWord false := by
  rw [wordChars_eq, CharSet.contains_plainWord]

theorem letters_isWord {c : Char} (letter : Patterns.letters.contains c = true) :
    Assertion.isWord false c = true := by
  have ranges : Patterns.letters = ⟨[(0x41, 0x5A), (0x61, 0x7A)]⟩ := by decide
  rw [← wordChars_isWord, wordChars_eq]
  rw [ranges] at letter
  simp only [CharSet.plainWord, CharSet.contains, Unicode.covers, Bool.or_eq_true, Bool.and_eq_true,
    decide_eq_true_eq, Bool.or_false] at letter ⊢
  omega

theorem blank_not_isWord {c : Char} (blank : CharSet.blank.contains c = true) :
    Assertion.isWord false c = false := by
  have apart : CharSet.blank.isApart = true := by decide +kernel
  exact CharSet.isApart.not_isWord apart blank

/-! ## Ways of calls -/

section Ways
variable {text : Array Char} {limit : Nat} {m k : Match}

/-- A letter with word characters behind it. -/
theorem name_ways (rest : Pattern) (way : k ∈ (Pattern.seqs [.char Patterns.letters,
      Patterns.many Patterns.wordChars, rest]).ways text limit m) :
    ∃ last, m.stop < last.stop ∧ k ∈ rest.ways text limit last ∧
      ∀ place, m.stop ≤ place → place < last.stop →
        text[place]?.any (Assertion.isWord false) = true := by
  obtain ⟨first, letter, way⟩ := List.mem_flatMap.mp way
  obtain ⟨⟨_, isLetter⟩, rfl⟩ := Patterns.mem_char_ways.mp letter
  obtain ⟨last, others, way⟩ := List.mem_flatMap.mp way
  obtain ⟨_, behind, each⟩ := Patterns.mem_many_ways others
  refine ⟨last, behind, way, fun place after before => ?_⟩
  rcases Nat.eq_or_lt_of_le after with rfl | later
  · obtain ⟨c, here, member⟩ := (Option.any_eq_true _ _).mp isLetter
    rw [here]
    exact letters_isWord member
  · obtain ⟨c, here, member⟩ := (Option.any_eq_true _ _).mp (each place later before)
    rw [here]
    rwa [Option.any_some, ← wordChars_isWord]

/-- A call starts at a word boundary and takes word characters, and maybe an exclamation mark. -/
theorem call_ways (way : k ∈ Patterns.call.ways text limit m) :
    (Assertion.word true .boundary).holds text m.stop = true ∧
      ∃ last, m.stop < last ∧ last ≤ k.stop ∧
        (k.stop = last ∨ k.stop = last + 1 ∧ text[last]? = some '!') ∧
        ∀ place, m.stop ≤ place → place < last →
          text[place]?.any (Assertion.isWord false) = true := by
  obtain ⟨start, checked, name⟩ := List.mem_flatMap.mp way
  obtain ⟨holds, same⟩ := List.mem_ite_nil_right.mp checked
  rw [List.mem_singleton.mp same] at name
  obtain ⟨last, behind, mark, each⟩ := name_ways (Patterns.maybe (Patterns.one '!')) name
  refine ⟨holds, last.stop, behind, ?_⟩
  rcases Patterns.mem_maybe_ways.mp mark with marked | rfl
  · obtain ⟨⟨_, here⟩, rfl⟩ := Patterns.mem_one_ways.mp marked
    exact ⟨Nat.le_succ _, .inr ⟨rfl, here⟩, each⟩
  · exact ⟨Nat.le_refl _, .inl rfl, each⟩

/-- A path takes word characters up to two colons. -/
theorem path_ways (way : k ∈ Patterns.path.ways text limit m) :
    ∃ last, m.stop < last ∧ text[last]? = some ':' ∧
      ∀ place, m.stop ≤ place → place < last → text[place]?.any (Assertion.isWord false) = true := by
  obtain ⟨last, behind, way, each⟩ := name_ways
    (.seq (Patterns.one ':') (Patterns.one ':')) way
  obtain ⟨colon, first, _⟩ := List.mem_flatMap.mp way
  obtain ⟨⟨_, here⟩, _⟩ := Patterns.mem_one_ways.mp first
  exact ⟨last.stop, behind, here, each⟩

/-- A mark is taken where it stands. -/
theorem head?_maybe_one {c : Char} {stop : Nat} (inside : stop ≤ limit)
    (mark : stop = m.stop ∧ text[m.stop]? ≠ some c ∨ stop = m.stop + 1 ∧ text[m.stop]? = some c) :
    ((Patterns.maybe (Patterns.one c)).ways text limit m).head? = some { m with stop } := by
  have once : (Patterns.maybe (Patterns.one c)).ways text limit m =
      Ways.upTo true ((Patterns.one c).ways text limit) 1 m :=
    List.flatMap_singleton _ _
  rw [once, Ways.upTo, Ways.orElse, if_pos rfl, Ways.flatMap_upTo_zero, List.head?_append]
  rcases mark with ⟨rfl, missing⟩ | ⟨rfl, here⟩
  · have nothing : (Patterns.one c).ways text limit m = [] := by
      rw [List.eq_nil_iff_forall_not_mem]
      exact fun k way => missing (Patterns.mem_one_ways.mp way).1.2
    rw [nothing]
    rfl
  · have taken : text[m.stop]?.any (CharSet.single c).contains = true := by
      rw [here, Option.any_some, CharSet.contains_single, beq_self_eq_true]
    rw [Patterns.one, Pattern.ways, if_pos ⟨inside, taken⟩]
    rfl

/-- A word is taken up to the end of its run of word characters, with a mark behind it. -/
theorem head?_word_ways {last stop : Nat}
    (letter : text[m.stop]?.any Patterns.letters.contains = true) (proper : m.stop < last)
    (each : ∀ place, m.stop ≤ place → place < last →
      text[place]?.any (Assertion.isWord false) = true)
    (ends : text[last]?.any (Assertion.isWord false) = false) (inside : stop ≤ limit)
    (mark : stop = last ∧ text[last]? ≠ some '!' ∨ stop = last + 1 ∧ text[last]? = some '!') :
    (Patterns.word.ways text limit m).head? = some { m with stop } := by
  have within : last ≤ limit := by omega
  have first : ((Pattern.char Patterns.letters).ways text limit m).head? =
      some { m with stop := m.stop + 1 } := by
    rw [Pattern.ways, if_pos ⟨by omega, letter⟩]
    rfl
  have others : ((Patterns.many Patterns.wordChars).ways text limit { m with stop := m.stop + 1 }).head? =
      some { m with stop := last } := by
    apply Pattern.head?_ways_many within
    · rwa [wordChars_isWord]
    · exact proper
    · intro place after before
      rw [wordChars_isWord]
      exact each place (Nat.le_of_succ_le after) before
  exact Pattern.head?_flatMap_of_head? first
    (Pattern.head?_flatMap_of_head? others (head?_maybe_one inside mark))

/-- Where a name stands by itself, a call takes exactly the name, and a mark behind it. -/
theorem head?_call_ways {last stop : Nat}
    (holds : (Assertion.word true .boundary).holds text m.stop = true)
    (letter : text[m.stop]?.any Patterns.letters.contains = true) (proper : m.stop < last)
    (each : ∀ place, m.stop ≤ place → place < last →
      text[place]?.any (Assertion.isWord false) = true)
    (ends : text[last]?.any (Assertion.isWord false) = false) (inside : stop ≤ limit)
    (mark : stop = last ∧ text[last]? ≠ some '!' ∨ stop = last + 1 ∧ text[last]? = some '!') :
    (Patterns.call.ways text limit m).head? = some { m with stop } := by
  have start : ((Pattern.check (.word true .boundary)).ways text limit m).head? = some m := by
    rw [Pattern.ways, if_pos holds]
    rfl
  exact Pattern.head?_flatMap_of_head? start (head?_word_ways letter proper each ends inside mark)

end Ways

/-! ## The rule of calls -/

/-- A parenthesis opens at the place or behind blanks. -/
def OpensBehind (source : Source) (place : Nat) : Prop :=
  ∃ opening, place ≤ opening ∧ source.chars[opening]? = some '(' ∧
    ∀ between, place ≤ between → between < opening →
      source.chars[between]?.any CharSet.blank.contains = true

/-- The word stands at the place by itself, and a parenthesis opens behind it. -/
structure Called (source : Source) (word : String) (place : Nat) : Prop where
  alone : (Assertion.word true .boundary).holds source.chars place = true
  stands : source.holdsAt word.toList place = true
  opens : OpensBehind source (place + word.length)

section Rules
variable {source : Source} {place stop : Nat} {word : String}

theorem parenthesis_iff :
    ((Program.ofPattern Patterns.parenthesis).stop? source.chars place source.size).isSome = true ↔
      OpensBehind source place := by
  have steady : Patterns.parenthesis.isSteady = true := by decide
  rw [Program.stop?_ofPattern steady, Option.isSome_map]
  constructor
  · intro found
    obtain ⟨k, first⟩ := Option.isSome_iff_exists.mp found
    obtain ⟨last, blanks, way⟩ := List.mem_flatMap.mp (List.mem_of_mem_head? first)
    obtain ⟨⟨_, here⟩, _⟩ := Patterns.mem_one_ways.mp way
    obtain ⟨_, behind, each⟩ := Patterns.mem_many_ways blanks
    exact ⟨last.stop, behind, here, each⟩
  · rintro ⟨opening, behind, here, each⟩
    obtain ⟨inside, _⟩ := Array.getElem?_eq_some_iff.mp here
    have noBlank : source.chars[opening]?.any CharSet.blank.contains = false := by
      rw [here]
      decide +kernel
    have blanks : ((Patterns.many .blank).ways source.chars source.size
        ⟨place, [⟨0, true, place⟩]⟩).head? = some ⟨opening, [⟨0, true, place⟩]⟩ :=
      Pattern.head?_ways_many (Nat.le_of_lt inside) noBlank behind each
    have taken : ⟨opening + 1, [⟨0, true, place⟩]⟩ ∈ (Patterns.one '(').ways source.chars source.size
        ⟨opening, [⟨0, true, place⟩]⟩ :=
      Patterns.mem_one_ways.mpr ⟨⟨inside, here⟩, rfl⟩
    have way := List.mem_flatMap.mpr ⟨_, List.mem_of_mem_head? blanks, taken⟩
    rw [List.isSome_head?]
    exact List.ne_nil_of_mem way

/-- What a call takes, and what stands around it. -/
theorem call_stops (ends : Ready.call.stop? source place = some stop) :
    (Assertion.word true .boundary).holds source.chars place = true ∧ OpensBehind source stop ∧
      ∃ last, place < last ∧ last ≤ stop ∧
        (stop = last ∨ stop = last + 1 ∧ source.chars[last]? = some '!') ∧
        ∀ passed, place ≤ passed → passed < last →
          source.chars[passed]?.any (Assertion.isWord false) = true := by
  obtain ⟨text, accepted⟩ := Option.filter_eq_some_iff.mp ends
  have opens := (Bool.and_eq_true_iff.mp accepted).2
  have found : (Program.ofPattern Patterns.call).stop? source.chars place source.size = some stop := text
  rw [Program.stop?_ofPattern (by decide)] at found
  obtain ⟨k, first, rfl⟩ := Option.map_eq_some_iff.mp found
  obtain ⟨holds, last⟩ := call_ways (List.mem_of_mem_head? first)
  exact ⟨holds, parenthesis_iff.mp opens, last⟩

/-- A word that the rule of calls can take: a name of letters, and maybe an exclamation mark. -/
structure Callable (word : String) (name : List Char) : Prop where
  spelled : word.toList = name ∨ word.toList = name ++ ['!']
  nonempty : name ≠ []
  letters : ∀ c ∈ name, Patterns.letters.contains c = true
  free : word ∉ keywordWords

namespace Callable
variable {name : List Char} (callable : Callable word name)
include callable

theorem name_le : name.length ≤ word.length := by
  rw [← String.length_toList]
  rcases callable.spelled with same | marked
  · rw [same]
  · rw [marked, List.length_append]
    exact Nat.le_add_right _ _

theorem proper : 0 < name.length :=
  List.length_pos_iff.mpr callable.nonempty

/-- Such a word starts with a word character. -/
theorem first : ∃ c rest, word.toList = c :: rest ∧ Assertion.isWord false c = true := by
  obtain ⟨c, rest, split⟩ := List.exists_cons_of_ne_nil callable.nonempty
  have isWord := letters_isWord (callable.letters c (split ▸ List.mem_cons_self))
  rcases callable.spelled with same | marked
  · exact ⟨c, rest, same.trans split, isWord⟩
  · exact ⟨c, rest ++ ['!'], by rw [marked, split, List.cons_append], isWord⟩

theorem stands (stands : source.holdsAt word.toList place = true) :
    source.holdsAt name place = true := by
  rcases callable.spelled with same | marked
  · rwa [same] at stands
  · rw [marked, source.holdsAt_append] at stands
    exact (Bool.and_eq_true_iff.mp stands).1

end Callable

namespace Called
variable {name : List Char} (called : Called source word place)
include called

/-- Right behind the word there is a parenthesis or a blank. -/
theorem behind : ∃ c, source.chars[place + word.length]? = some c ∧
    (c = '(' ∨ CharSet.blank.contains c = true) := by
  obtain ⟨opening, after, here, each⟩ := called.opens
  rcases Nat.eq_or_lt_of_le after with rfl | later
  · exact ⟨'(', here, .inl rfl⟩
  · obtain ⟨c, first, blank⟩ := (Option.any_eq_true _ _).mp (each _ (Nat.le_refl _) later)
    exact ⟨c, first, .inr blank⟩

theorem not_behind {c : Char} (isOther : c ≠ '(') (notBlank : CharSet.blank.contains c = false) :
    source.chars[place + word.length]? ≠ some c := by
  obtain ⟨d, here, rfl | blank⟩ := called.behind
  · rw [here]
    exact fun same => isOther (Option.some.inj same).symm
  · rw [here]
    intro same
    rw [Option.some.inj same, notBlank] at blank
    exact nomatch blank

variable (callable : Callable word name)
include callable

theorem letter {passed : Nat} (after : place ≤ passed) (before : passed < place + name.length) :
    source.chars[passed]?.any Patterns.letters.contains = true := by
  obtain ⟨c, member, here⟩ := source.char_of_stands (callable.stands called.stands) after before
  rw [here]
  exact callable.letters c member

theorem isWord {passed : Nat} (after : place ≤ passed) (before : passed < place + name.length) :
    source.chars[passed]?.any (Assertion.isWord false) = true := by
  obtain ⟨c, here, letter⟩ := (Option.any_eq_true _ _).mp (called.letter callable after before)
  rw [here]
  exact letters_isWord letter

/-- Behind the name comes the exclamation mark of the word, or else none. -/
theorem mark :
    place + word.length = place + name.length ∧ source.chars[place + name.length]? ≠ some '!' ∨
      place + word.length = place + name.length + 1 ∧
        source.chars[place + name.length]? = some '!' := by
  rcases callable.spelled with same | marked
  · have length : word.length = name.length := by
      rw [← String.length_toList, same]
    rw [← length]
    exact .inl ⟨rfl, called.not_behind (by decide) (by decide +kernel)⟩
  · have length : word.length = name.length + 1 := by
      rw [← String.length_toList, marked, List.length_append, List.length_singleton]
    have stands := called.stands
    rw [marked, source.holdsAt_append] at stands
    exact .inr ⟨by rw [length, Nat.add_assoc],
      source.char_of_holdsAt (Bool.and_eq_true_iff.mp stands).2⟩

/-- No word character and no colon is right behind the name. -/
theorem ends : source.chars[place + name.length]?.any (Assertion.isWord false) = false ∧
    source.chars[place + name.length]? ≠ some ':' := by
  rcases called.mark callable with ⟨whole, _⟩ | ⟨_, marked⟩
  · rw [← whole]
    refine ⟨?_, called.not_behind (by decide) (by decide +kernel)⟩
    obtain ⟨c, here, rfl | blank⟩ := called.behind
    · rw [here]
      decide
    · rw [here]
      exact blank_not_isWord blank
  · rw [marked]
    exact ⟨by decide, by decide⟩

/-- The rule of calls takes a word that stands before a parenthesis. -/
theorem call_stop? : Ready.call.stop? source place = some (place + word.length) := by
  have proper : place < place + name.length := Nat.lt_add_of_pos_right callable.proper
  obtain ⟨c, here, _⟩ := called.behind
  obtain ⟨inside, _⟩ := Array.getElem?_eq_some_iff.mp here
  have text : Ready.call.textStop? source place = some (place + word.length) := by
    have first : (Patterns.call.ways source.chars source.size ⟨place, [⟨0, true, place⟩]⟩).head? =
        some ⟨place + word.length, [⟨0, true, place⟩]⟩ :=
      head?_call_ways called.alone (called.letter callable (Nat.le_refl _) proper) proper
        (fun passed after before => called.isWord callable after before) (called.ends callable).1
        (Nat.le_of_lt inside) (called.mark callable)
    have stops : (Program.ofPattern Patterns.call).stop? source.chars place source.size =
        some (place + word.length) := by
      rw [Program.stop?_ofPattern (by decide), first]
      rfl
    exact stops
  have slice := source.slice_word called.stands
  have noKeyword : keywordWords.contains word = false := by
    rw [List.contains_eq_mem, decide_eq_false callable.free]
  have taken : place < place + word.length := Nat.lt_of_lt_of_le proper
    (Nat.add_le_add_left callable.name_le place)
  rw [SingleRule.stop?, text, Option.filter_eq_some_iff]
  refine ⟨rfl, ?_⟩
  have excluded : Ready.call.excluded = keywordWords := rfl
  have lookahead : Ready.call.followedBy = some (.ofPattern Patterns.parenthesis) := rfl
  rw [SingleRule.accepts, excluded, lookahead, slice, noKeyword, Option.all_some,
    parenthesis_iff.mpr called.opens, decide_eq_true taken]
  rfl

theorem path_stop? : Ready.path.stop? source place = none := by
  have nowhere : Ready.path.textStop? source place = none := by
    cases found : Ready.path.textStop? source place with
    | none => rfl
    | some stop =>
        have stops : (Program.ofPattern Patterns.path).stop? source.chars place source.size =
            some stop := found
        rw [Program.stop?_ofPattern (by decide)] at stops
        obtain ⟨k, first, _⟩ := Option.map_eq_some_iff.mp stops
        obtain ⟨last, after, colon, each⟩ := path_ways (List.mem_of_mem_head? first)
        rcases Nat.lt_trichotomy last (place + name.length) with before | rfl | beyond
        · have word := called.isWord callable (Nat.le_of_lt after) before
          rw [colon] at word
          exact absurd word (by decide)
        · exact absurd colon (called.ends callable).2
        · have word := each _ (Nat.le_add_right place name.length) beyond
          rw [(called.ends callable).1] at word
          exact nomatch word
  rw [SingleRule.stop?, nowhere]
  rfl

end Called

end Rules

end Highlighting.Jacy
