import Highlighting.Proofs.Jacy.Openings
import Highlighting.Proofs.Jacy.WordEnds
import Highlighting.Proofs.Scan.PartsRegions

/-! # Loops over a name in Jacy

A loop over a name and an implementation for one start alike. What stands behind the name decides: where
`in` follows, it is a loop, and else a declaration, whatever the name is, also a keyword. -/
set_option autoImplicit false
namespace Highlighting

namespace Jacy

/-- A letter or an underscore, and then letters, digits and underscores. -/
inductive IsName : List Char → Prop where
  | intro {first : Char} {rest : List Char} (starts : (first.isAlpha || first == '_') = true)
      (each : ∀ c ∈ rest, Assertion.isWord false c = true) : IsName (first :: rest)

/-- One blank or more. -/
def IsGap (blanks : List Char) : Prop :=
  blanks ≠ [] ∧ ∀ c ∈ blanks, CharSet.blank.contains c = true

/-- Blanks and the word `in` behind them, which does not go on. -/
def InFollows (rest : List Char) : Prop :=
  ∃ gap behind, rest = gap ++ ("in".toList ++ behind) ∧ IsGap gap ∧
    behind.head?.any (Assertion.isWord true) = false

section Patterns
open Pattern (Prefers Declines Leaves)
variable {blanks name gap rest behind : List Char}

/-! ## What the parts take -/

theorem nameStarts_of_start {c : Char} (starts : (c.isAlpha || c == '_') = true) :
    Patterns.nameStarts.contains c = true ∧ Assertion.isWord false c = true := by
  have word : Assertion.isWord false c = true := by
    rcases Bool.or_eq_true_iff.mp starts with letter | underscore
    · exact Bool.or_eq_true_iff.mpr (.inl (Bool.or_eq_true_iff.mpr (.inl letter)))
    · exact Bool.or_eq_true_iff.mpr (.inr underscore)
  have all : ∀ c ∈ asciiWord, (c.isAlpha || c == '_') = true → Patterns.nameStarts.contains c = true := by
    decide +kernel
  exact ⟨all c (mem_asciiWord word) starts, word⟩

theorem nameStarts_isWord {c : Char} (starts : Patterns.nameStarts.contains c = true) :
    Assertion.isWord false c = true := by
  have ranges : Patterns.nameStarts = ⟨[(0x41, 0x5A), (0x5F, 0x5F), (0x61, 0x7A)]⟩ := by decide
  rw [← wordChars_isWord, wordChars_eq]
  rw [ranges] at starts
  simp only [CharSet.plainWord, CharSet.contains, Unicode.covers, Bool.or_eq_true, Bool.and_eq_true,
    decide_eq_true_eq, Bool.or_false] at starts ⊢
  omega

theorem name_prefers (isName : IsName name) (ends : rest.head?.any (Assertion.isWord false) = false) :
    Patterns.name.Prefers name rest fun _ => [] := by
  cases isName with
  | intro starts each =>
      rw [← wordChars_isWord] at ends each
      exact (Prefers.char (nameStarts_of_start starts).1).seq (.many each ends)

/-- A name starts with no blank. -/
theorem name_not_blank (isName : IsName name) (rest : List Char) :
    (name ++ rest).head?.any CharSet.blank.contains = false := by
  cases isName with
  | intro starts _ =>
      rw [List.cons_append, List.head?_cons, Option.any_some, ← Bool.not_eq_true]
      intro blank
      have word := (nameStarts_of_start starts).2
      rw [blank_not_isWord blank] at word
      exact Bool.false_ne_true word

/-- Behind a word character there is a boundary where the word goes on no further. -/
theorem boundary_behind {source : Source} {place : Nat} {c : Char} (word : Assertion.isWord true c = true)
    (left : source.part place source.size = c :: rest) :
    (Assertion.word true .boundary).holds source.chars (place + 1) =
      !rest.head?.any (Assertion.isWord true) := by
  obtain ⟨here, before, behind⟩ := Source.left_eq_cons left
  have after : source.chars[place + 1]? = rest.head? := by
    rw [← source.part_head?_size before, behind]
  simp only [Assertion.holds, WordEdge.holds, Nat.add_one_ne_zero, if_false, Nat.add_sub_cancel, here,
    after, Option.any_some, word, Bool.true_bne]

theorem gap_not_word (isGap : IsGap gap) (rest : List Char) :
    (gap ++ rest).head?.any (Assertion.isWord false) = false := by
  obtain ⟨first, more, rfl⟩ := List.exists_cons_of_ne_nil isGap.1
  exact blank_not_isWord (isGap.2 first List.mem_cons_self)

/-- The word `in` is taken where no word goes on behind it. -/
theorem in_prefers (ends : behind.head?.any (Assertion.isWord true) = false) :
    (Pattern.seqs ("in".toList.map Patterns.one ++ [Patterns.boundary])).Prefers "in".toList behind
      fun _ => [] := by
  have last : ((Patterns.one 'n').seq Patterns.boundary).Prefers ['n'] behind fun _ => [] := by
    intro source m inside left
    have taken := Prefers.single 'n' source m inside left
    have holds : (Assertion.word true .boundary).holds source.chars (m.stop + 1) = true :=
      (boundary_behind (by decide) left).trans (congrArg (!·) ends)
    refine Pattern.head?_flatMap_of_head? taken ?_
    exact congrArg List.head? (if_pos holds)
  exact (Prefers.single 'i').seq last

/-- Without the word, or where a word goes on behind it, nothing is taken. -/
theorem in_declines {text : List Char}
    (missing : ∀ behind, text = "in".toList ++ behind → behind.head?.any (Assertion.isWord true) = true) :
    (Pattern.seqs ("in".toList.map Patterns.one ++ [Patterns.boundary])).Declines text := by
  have other {c : Char} {q : Pattern} {text : List Char} (isOther : text.head? ≠ some c) :
      ((Patterns.one c).seq q).Declines text := by
    refine .seq (.char ?_)
    cases text with
    | nil => rfl
    | cons d rest => simpa [CharSet.contains_single] using isOther
  have last {rest : List Char} (missing : ∀ behind, rest = 'n' :: behind →
      behind.head?.any (Assertion.isWord true) = true) :
      ((Patterns.one 'n').seq Patterns.boundary).Declines rest := by
    by_cases first : rest.head? = some 'n'
    · obtain ⟨behind, rfl⟩ := List.head?_eq_some_iff.mp first
      intro source m inside left
      have holds : (Assertion.word true .boundary).holds source.chars (m.stop + 1) = false :=
        (boundary_behind (by decide) left).trans (congrArg (!·) (missing behind rfl))
      rw [Pattern.ways, List.flatMap_eq_nil_iff]
      intro k way
      obtain ⟨_, rfl⟩ := Patterns.mem_one_ways.mp way
      rw [Patterns.boundary, Pattern.ways, if_neg (Bool.not_eq_true _ ▸ holds)]
    · exact other first
  by_cases first : text.head? = some 'i'
  · obtain ⟨rest, rfl⟩ := List.head?_eq_some_iff.mp first
    refine .seqBehind Leaves.char ?_
    rintro _ rfl
    exact last fun behind same => missing behind (congrArg ('i' :: ·) same)
  · exact other first

/-! ## What the rules take behind `for` -/

/-- What a loop has behind its first word. -/
def loopTail : Pattern :=
  .seqs [Patterns.part 2 (Patterns.several .blank), Patterns.part 3 Patterns.name,
    Patterns.part 4 (Patterns.several .blank),
    Patterns.part 5 (.seqs ("in".toList.map Patterns.one ++ [Patterns.boundary]))]

/-- What a declaration has behind its first word. -/
def declarationTail : Pattern :=
  .seqs [Patterns.part 2 (Patterns.several .blank), Patterns.part 3 Patterns.name]

theorem declarationTail_prefers (isGap : IsGap blanks) (isName : IsName name)
    (ends : rest.head?.any (Assertion.isWord false) = false) :
    declarationTail.Prefers (blanks ++ name) rest fun place =>
      [⟨3, false, place + blanks.length + name.length⟩, ⟨3, true, place + blanks.length⟩,
        ⟨2, false, place + blanks.length⟩, ⟨2, true, place⟩] := by
  have spaced := Prefers.several isGap.2 (name_not_blank isName rest) isGap.1
  exact spaced.capture.seq (name_prefers isName ends).capture

/-- Behind a name, a loop needs a gap and the word `in`. -/
theorem gapTail_declines (ends : rest.head?.any (Assertion.isWord false) = false)
    (noIn : ¬ InFollows rest) :
    (Pattern.seqs [Patterns.part 4 (Patterns.several .blank),
      Patterns.part 5 (.seqs ("in".toList.map Patterns.one ++ [Patterns.boundary]))]).Declines rest := by
  let gap := rest.takeWhile CharSet.blank.contains
  let text := rest.dropWhile CharSet.blank.contains
  have split : gap ++ text = rest := List.takeWhile_append_dropWhile
  have blank : ∀ c ∈ gap, CharSet.blank.contains c = true := fun c member =>
    List.mem_takeWhile_imp member
  have visible : text.head?.any CharSet.blank.contains = false := by
    have first := List.head?_dropWhile_not CharSet.blank.contains rest
    cases here : text.head? with
    | none => rfl
    | some c =>
        rw [here] at first
        exact first
  have hidden : CharSet.blank.contains 'i' = false := by decide +kernel
  rw [← split]
  refine .seqBehind (Leaves.run visible).capture ?_
  rintro _ ⟨more, suffix, rfl⟩
  refine .capture (in_declines fun behind same => ?_)
  cases more with
  | nil =>
      -- The whole gap is passed, so that the word stands behind it and has to go on.
      rw [← Bool.not_eq_false]
      intro ended
      refine noIn ⟨gap, behind, split.symm.trans (congrArg (gap ++ ·) same), ⟨?_, blank⟩, ended⟩
      intro nothing
      have whole : rest = "in".toList ++ behind := by
        rw [← split, nothing]
        exact same
      rw [whole] at ends
      exact Bool.false_ne_true ends.symm
  | cons c others =>
      have isBlank := blank c (suffix.subset List.mem_cons_self)
      have letter : c = 'i' := (List.cons.inj same).1
      rw [letter, hidden] at isBlank
      exact absurd isBlank Bool.false_ne_true

/-- A name is taken as a whole, for no gap starts with one of its characters. -/
theorem nameTail_declines (isName : IsName name) (ends : rest.head?.any (Assertion.isWord false) = false)
    (noIn : ¬ InFollows rest) :
    (Pattern.seqs [Patterns.part 3 Patterns.name, Patterns.part 4 (Patterns.several .blank),
      Patterns.part 5 (.seqs ("in".toList.map Patterns.one ++ [Patterns.boundary]))]).Declines
        (name ++ rest) := by
  cases isName with
  | @intro first others starts each =>
      have leaves : (Patterns.part 3 Patterns.name).Leaves (first :: others ++ rest) fun text =>
          ∃ more, more <:+ others ∧ text = more ++ rest := by
        refine Leaves.capture (Leaves.seq Leaves.char ?_)
        rintro _ rfl
        exact Leaves.run (by rwa [wordChars_isWord])
      refine .seqBehind leaves ?_
      rintro _ ⟨more, suffix, rfl⟩
      cases more with
      | nil => exact gapTail_declines ends noIn
      | cons c more =>
          refine .seq (.capture (.several ?_))
          rw [List.cons_append, List.head?_cons, Option.any_some, ← Bool.not_eq_true]
          intro blank
          have word := each c (suffix.subset List.mem_cons_self)
          rw [blank_not_isWord blank] at word
          exact Bool.false_ne_true word

theorem loop_declines (isGap : IsGap blanks) (isName : IsName name)
    (ends : rest.head?.any (Assertion.isWord false) = false) (noIn : ¬ InFollows rest) :
    Patterns.loop.Declines ("for".toList ++ (blanks ++ (name ++ rest))) := by
  have keyword : (Patterns.part 1 (Patterns.keyword "for")).Leaves
      ("for".toList ++ (blanks ++ (name ++ rest))) (· = blanks ++ (name ++ rest)) := by
    refine Leaves.capture (Leaves.seq (Leaves.check _) ?_)
    rintro _ rfl
    exact Leaves.literal "for".toList
  refine .seqBehind keyword ?_
  rintro _ rfl
  refine .seqBehind (Leaves.run (name_not_blank isName rest)).capture ?_
  rintro _ ⟨more, suffix, rfl⟩
  cases more with
  | nil =>
      rw [List.nil_append]
      exact nameTail_declines isName ends noIn
  | cons c more =>
      -- The gap was left early, and no name starts with a blank.
      refine .seq (.capture (.seq (.char ?_)))
      rw [List.cons_append, List.head?_cons, Option.any_some, ← Bool.not_eq_true]
      intro starts
      have word := nameStarts_isWord starts
      rw [blank_not_isWord (isGap.2 c (suffix.subset List.mem_cons_self))] at word
      exact Bool.false_ne_true word

theorem loopTail_prefers (isGap : IsGap blanks) (isName : IsName name) (also : IsGap gap)
    (ends : behind.head?.any (Assertion.isWord true) = false) :
    loopTail.Prefers (blanks ++ (name ++ (gap ++ "in".toList))) behind fun place =>
      [⟨5, false, place + blanks.length + name.length + gap.length + 2⟩,
        ⟨5, true, place + blanks.length + name.length + gap.length⟩,
        ⟨4, false, place + blanks.length + name.length + gap.length⟩,
        ⟨4, true, place + blanks.length + name.length⟩,
        ⟨3, false, place + blanks.length + name.length⟩, ⟨3, true, place + blanks.length⟩,
        ⟨2, false, place + blanks.length⟩, ⟨2, true, place⟩] := by
  have spaced := Prefers.several isGap.2 (name_not_blank isName (gap ++ "in".toList ++ behind)) isGap.1
  have named : Patterns.name.Prefers name (gap ++ "in".toList ++ behind) fun _ => [] := by
    rw [List.append_assoc]
    exact name_prefers isName (gap_not_word also _)
  have visible : CharSet.blank.contains 'i' = false := by decide +kernel
  have apart : (Patterns.several .blank).Prefers gap ("in".toList ++ behind) fun _ => [] :=
    .several also.2 visible also.1
  rw [← List.append_assoc] at spaced
  exact spaced.capture.seq (named.capture.seq (apart.capture.seq (in_prefers ends).capture))

end Patterns

/-! ## The rules behind `for` -/

section Rules
open Pattern (Prefers)
variable {source : Source} {blanks name rest : List Char} (ignore : Bool)

/-- A rule of parts, the first of which is a word at the start of a source. -/
theorem match?_start {q tail : Pattern} {word taken : List Char} {marks : Nat → List Mark}
    (steady : (Pattern.seq (Patterns.part 1 (.seq Patterns.boundary q)) tail).isSteady = true)
    (letter : word.head?.any (Assertion.isWord false) = true)
    (first : q.Prefers word (taken ++ rest) fun _ => []) (prefers : tail.Prefers taken rest marks)
    (whole : source.part 0 source.size = word ++ (taken ++ rest)) :
    (Program.ofPattern (.seq (Patterns.part 1 (.seq Patterns.boundary q)) tail)).match? source.chars 0
        source.size =
      some ⟨word.length + taken.length, ⟨0, false, word.length + taken.length⟩ ::
        (marks word.length ++ [⟨1, false, word.length⟩, ⟨1, true, 0⟩, ⟨0, true, 0⟩])⟩ := by
  obtain ⟨within, _, behind⟩ := source.part_of_append (Nat.zero_le _) (Nat.le_refl _) whole.symm
  have holds : (Assertion.word true .boundary).holds source.chars 0 = true := by
    apply boundary_start
    rw [← source.part_head?_size (Nat.zero_le _), whole]
    cases word with
    | nil => exact nomatch letter
    | cons c more => exact letter
  let opened : Match := ⟨0, [⟨0, true, 0⟩]⟩
  have start : ((Patterns.part 1 (.seq Patterns.boundary q)).ways source.chars source.size opened).head? =
      some ⟨word.length, [⟨1, false, word.length⟩, ⟨1, true, 0⟩, ⟨0, true, 0⟩]⟩ := by
    have way := first source ⟨0, [⟨1, true, 0⟩, ⟨0, true, 0⟩]⟩ (Nat.zero_le _) whole
    rw [Patterns.part, Pattern.ways, List.head?_map, Pattern.ways, Patterns.boundary, Pattern.ways,
      if_pos holds, List.flatMap_singleton, way, Nat.zero_add]
    rfl
  rw [Nat.zero_add] at within behind
  have way := prefers source
    ⟨word.length, [⟨1, false, word.length⟩, ⟨1, true, 0⟩, ⟨0, true, 0⟩]⟩ within behind
  have found := Pattern.head?_flatMap_of_head? start way
  rw [Program.match?_ofPattern steady, Pattern.ways, List.head?_map, Pattern.ways, found]
  rfl

/-- The rules before those of loops match nothing where a text starts with `for`. -/
theorem silent_of_for (stands : source.holdsAt "for".toList 0 = true) :
    ∀ other ∈ [0, 2, 4, 6, 7, 8, 9, 10, 11, 12, 13, 14, 16, 18], ∀ rule ∈ Ready.rules[other]?,
      rule.match? source 0 other = none := by
  have refused : Refused [0, 2, 4, 6, 7, 8, 9, 10, 11, 12, 13, 14, 16, 18] "for".toList := by
    decide +kernel
  exact refused.silent stands

/-- The parts of a loop, by the lengths of its blanks, its name and the gap behind that. -/
def loopParts (blanks name gap : Nat) : List Part :=
  [⟨0, 3, some .keyword⟩, ⟨3, 3 + blanks, none⟩, ⟨3 + blanks, 3 + blanks + name, some .variableName⟩,
    ⟨3 + blanks + name, 3 + blanks + name + gap, none⟩,
    ⟨3 + blanks + name + gap, 3 + blanks + name + gap + 2, some .keyword⟩]

/-- The parts of a declaration, by the lengths of its blanks and its name. -/
def declarationParts (blanks name : Nat) : List Part :=
  [⟨0, 3, some .keyword⟩, ⟨3, 3 + blanks, none⟩, ⟨3 + blanks, 3 + blanks + name, some .titleClass⟩]

theorem firstMatch?_loop {gap behind : List Char} (isGap : IsGap blanks) (isName : IsName name)
    (also : IsGap gap) (ends : behind.head?.any (Assertion.isWord true) = false)
    (whole : source.part 0 source.size =
      "for".toList ++ (blanks ++ (name ++ (gap ++ "in".toList)) ++ behind)) :
    ∃ stop, (Ready.highlighter.ignoring ignore).firstMatch? source 0 Ready.root =
      some (.parts 17 Ready.loop stop (loopParts blanks.length name.length gap.length)) := by
  have stands : source.holdsAt "for".toList 0 = true := by
    rw [source.holdsAt_iff_part, whole]
    exact List.prefix_append _ _
  have found : (Program.ofPattern Patterns.loop).match? source.chars 0 source.size = some _ :=
    match?_start (by decide) (by decide) (Prefers.literal "for".toList)
      (loopTail_prefers isGap isName also ends) whole
  have matched : (Rule.parts Ready.loop).match? source 0 17 =
      some (.parts 17 Ready.loop _ (loopParts blanks.length name.length gap.length)) :=
    parts_match? found (Nat.add_pos_left (by decide) _)
  have root : Ready.root = [0, 2, 4, 6, 7, 8, 9, 10, 11, 12, 13, 14, 16] ++ 17 :: Ready.root.drop 14 := rfl
  refine ⟨_, firstMatch?_of_silent ignore root rfl (fun other member => ?_) matched⟩
  refine silent_of_for stands other ?_
  simp only [List.mem_cons, List.not_mem_nil, or_false] at member ⊢
  omega

theorem firstMatch?_declaration (isGap : IsGap blanks) (isName : IsName name)
    (ends : rest.head?.any (Assertion.isWord false) = false) (noIn : ¬ InFollows rest)
    (whole : source.part 0 source.size = "for".toList ++ (blanks ++ name ++ rest)) :
    ∃ stop, (Ready.highlighter.ignoring ignore).firstMatch? source 0 Ready.root =
      some (.parts 19 Ready.declaration stop (declarationParts blanks.length name.length)) := by
  have stands : source.holdsAt "for".toList 0 = true := by
    rw [source.holdsAt_iff_part, whole]
    exact List.prefix_append _ _
  have keyword : (Pattern.alts (["trait", "enum", "struct", "union", "impl", "for", "mod"].map
      Patterns.text)).Prefers "for".toList (blanks ++ name ++ rest) fun _ => [] :=
    .literals rfl rfl
  have found : (Program.ofPattern Patterns.declaration).match? source.chars 0 source.size = some _ :=
    match?_start (by decide) (by decide) keyword (declarationTail_prefers isGap isName ends) whole
  have matched : (Rule.parts Ready.declaration).match? source 0 19 =
      some (.parts 19 Ready.declaration _ (declarationParts blanks.length name.length)) :=
    parts_match? found (Nat.add_pos_left (by decide) _)
  have noLoop : (Rule.parts Ready.loop).match? source 0 17 = none := by
    have declined := loop_declines isGap isName ends noIn source ⟨0, [⟨0, true, 0⟩]⟩ (Nat.zero_le _)
      (by rw [whole, List.append_assoc])
    have pattern : (Rule.parts Ready.loop).opener = .ofPattern Patterns.loop := rfl
    refine Rule.match?_eq_none ?_
    rw [pattern, Program.match?_ofPattern (by decide), Pattern.ways, declined]
    rfl
  have root : Ready.root =
      [0, 2, 4, 6, 7, 8, 9, 10, 11, 12, 13, 14, 16, 17, 18] ++ 19 :: Ready.root.drop 16 := rfl
  refine ⟨_, firstMatch?_of_silent ignore root rfl (fun other member => ?_) matched⟩
  by_cases isLoop : other = 17
  · rw [isLoop]
    rintro rule ⟨⟩
    exact noLoop
  · refine silent_of_for stands other ?_
    simp only [List.mem_cons, List.not_mem_nil, or_false] at member ⊢
    omega

end Rules

/-! ## Regions -/

section Regions
variable {source : Source} {start stop : Nat}

theorem scopedTexts_loop (source : Source) (blanks name gap : Nat) :
    Part.scopedTexts source (loopParts blanks name gap) =
      [(.keyword, source.slice 0 3), (.variableName, source.slice (3 + blanks) (3 + blanks + name)),
        (.keyword, source.slice (3 + blanks + name + gap) (3 + blanks + name + gap + 2))] := rfl

theorem scopedTexts_declaration (source : Source) (blanks name : Nat) :
    Part.scopedTexts source (declarationParts blanks name) =
      [(.keyword, source.slice 0 3), (.titleClass, source.slice (3 + blanks) (3 + blanks + name))] := rfl

theorem gap_silent {gap : List Char} (isGap : IsGap gap) (inside : stop ≤ source.size)
    (part : source.part start stop = gap) :
    ∀ first last, start ≤ first → first < stop → ¬ Ready.words.Takes source stop first last := by
  intro first last after before
  obtain ⟨index, rfl⟩ := Nat.exists_eq_add_of_le after
  have within : start + index < source.chars.size := Nat.lt_of_lt_of_le before inside
  have here := Array.getElem?_eq_getElem within
  have member : source.chars[start + index] ∈ gap := by
    rw [← part]
    exact List.mem_of_getElem? ((source.part_getElem? before).trans here)
  apply not_takes_blank
  rw [here]
  exact isGap.2 _ member

theorem IsName.nonempty {name : List Char} (isName : IsName name) : 0 < name.length := by
  cases isName
  exact Nat.succ_pos _

theorem IsGap.nonempty {gap : List Char} (isGap : IsGap gap) : 0 < gap.length :=
  List.length_pos_iff.mpr isGap.1

/-- What stands where, behind `for` at the start of a source. -/
theorem for_slices {blanks name rest : List Char} (isGap : IsGap blanks)
    (whole : source.part 0 source.size = "for".toList ++ (blanks ++ (name ++ rest))) :
    let first := 3 + blanks.length
    let last := first + name.length
    source.slice 0 3 = "for" ∧ source.slice first last = String.ofList name ∧
      (∀ place next, 3 ≤ place → place < first → ¬ Ready.words.Takes source first place next) ∧
      last ≤ source.size ∧ source.part last source.size = rest := by
  obtain ⟨three, word, left⟩ := source.part_of_append (Nat.zero_le _) (Nat.le_refl _) whole.symm
  have length : 0 + "for".toList.length = 3 := rfl
  rw [length] at three word left
  obtain ⟨within, gap, left⟩ := source.part_of_append three (Nat.le_refl _) left.symm
  obtain ⟨beyond, named, left⟩ := source.part_of_append within (Nat.le_refl _) left.symm
  exact ⟨congrArg String.ofList word, congrArg String.ofList named, gap_silent isGap within gap, beyond, left⟩

end Regions

section Results
variable {text : String} {result : Highlight} {blanks name rest : List Char}
  (highlighted : (Ready.highlighter.ignoring true).highlight text = .ok result) (isGap : IsGap blanks)
  (isName : IsName name)
  (whole : (Source.ofString text).part 0 (Source.ofString text).size =
    "for".toList ++ (blanks ++ (name ++ rest)))
include highlighted isGap isName whole

theorem loop_regions (follows : InFollows rest) :
    [(.keyword, "for"), (.variableName, String.ofList name), (.keyword, "in")] <+:
      result.regions.map fun region => (region.scope, region.text) := by
  obtain ⟨gap, behind, rfl, also, ends⟩ := follows
  obtain ⟨word, named, silent, within, left⟩ := for_slices isGap whole
  obtain ⟨further, space, left⟩ := Source.part_of_append _ within (Nat.le_refl _) left.symm
  obtain ⟨_, last, _⟩ := Source.part_of_append _ further (Nat.le_refl _) left.symm
  obtain ⟨stop, first⟩ := firstMatch?_loop true isGap isName also ends
    (whole.trans (by simp only [List.append_assoc]))
  have someBlanks := isGap.nonempty
  have someName := isName.nonempty
  have someGap := also.nonempty
  have proper : ∀ part ∈ loopParts blanks.length name.length gap.length, part.start < part.stop := by
    simp only [loopParts, List.forall_mem_cons, List.not_mem_nil, false_imp_iff, implies_true, and_true]
    omega
  have quiet : ∀ part ∈ loopParts blanks.length name.length gap.length, part.scope = none →
      ∀ place next, part.start ≤ place → place < part.stop →
        ¬ Ready.words.Takes (.ofString text) part.stop place next := by
    simp only [loopParts, List.forall_mem_cons, List.not_mem_nil, reduceCtorEq, false_imp_iff, true_imp_iff,
      implies_true, and_true, true_and]
    exact ⟨silent, gap_silent also further space⟩
  have known : Part.scopedTexts (.ofString text) (loopParts blanks.length name.length gap.length) =
      [(.keyword, "for"), (.variableName, String.ofList name), (.keyword, "in")] := by
    have lastWord : (Source.ofString text).slice (3 + blanks.length + name.length + gap.length)
        (3 + blanks.length + name.length + gap.length + 2) = "in" :=
      congrArg String.ofList last
    rw [scopedTexts_loop, word, named, lastWord]
  have regions := Highlighter.regions_of_parts highlighted (by omega) first proper quiet
  exact known ▸ regions

theorem declaration_regions (ends : rest.head?.any (Assertion.isWord false) = false)
    (noIn : ¬ InFollows rest) :
    [(.keyword, "for"), (.titleClass, String.ofList name)] <+:
      result.regions.map fun region => (region.scope, region.text) := by
  obtain ⟨word, named, silent, within, _⟩ := for_slices isGap whole
  obtain ⟨stop, first⟩ := firstMatch?_declaration true isGap isName ends noIn
    (whole.trans (by simp only [List.append_assoc]))
  have someBlanks := isGap.nonempty
  have someName := isName.nonempty
  have proper : ∀ part ∈ declarationParts blanks.length name.length, part.start < part.stop := by
    simp only [declarationParts, List.forall_mem_cons, List.not_mem_nil, false_imp_iff, implies_true,
      and_true]
    omega
  have quiet : ∀ part ∈ declarationParts blanks.length name.length, part.scope = none →
      ∀ place next, part.start ≤ place → place < part.stop →
        ¬ Ready.words.Takes (.ofString text) part.stop place next := by
    simp only [declarationParts, List.forall_mem_cons, List.not_mem_nil, reduceCtorEq, false_imp_iff,
      true_imp_iff, implies_true, and_true, true_and]
    exact silent
  have known : Part.scopedTexts (.ofString text) (declarationParts blanks.length name.length) =
      [(.keyword, "for"), (.titleClass, String.ofList name)] := by
    rw [scopedTexts_declaration, word, named]
  have regions := Highlighter.regions_of_parts highlighted (by omega) first proper quiet
  exact known ▸ regions

end Results

/-- Behind `for` and blanks a name makes a loop if `in` follows, and else a declaration, whatever name it
is and whatever else follows. -/
theorem for_takes_names (blanks name rest : String) (isGap : IsGap blanks.toList)
    (isName : IsName name.toList) (ends : rest.toList.head?.any (Assertion.isWord false) = false) :
    ∃ result, (highlighter.ignoring true).highlight ("for" ++ blanks ++ name ++ rest) = .ok result ∧
      (InFollows rest.toList →
        [(.keyword, "for"), (.variableName, name), (.keyword, "in")] <+:
          result.regions.map fun region => (region.scope, region.text)) ∧
      (¬ InFollows rest.toList →
        [(.keyword, "for"), (.titleClass, name)] <+:
          result.regions.map fun region => (region.scope, region.text)) := by
  let text := "for" ++ blanks ++ name ++ rest
  obtain ⟨result, highlighted⟩ := Highlighter.highlight_lenient highlighter text
  refine ⟨result, highlighted, ?_⟩
  rw [highlighter_eq] at highlighted
  have whole : (Source.ofString text).part 0 (Source.ofString text).size =
      "for".toList ++ (blanks.toList ++ (name.toList ++ rest.toList)) := by
    rw [Source.part_whole]
    show text.toList = _
    simp only [text, String.toList_append, List.append_assoc]
  have looping := loop_regions highlighted isGap isName whole
  have declaring := declaration_regions highlighted isGap isName whole ends
  rw [String.ofList_toList] at looping declaring
  exact ⟨looping, declaring⟩

/-- The name is a keyword itself, and the blanks are a tab and a line feed. -/
theorem for_takes_keyword :
    IsGap "\t".toList ∧ IsName "in".toList ∧ InFollows "\nin(".toList ∧
      ∃ result, (highlighter.ignoring true).highlight ("for" ++ "\t" ++ "in" ++ "\nin(") = .ok result ∧
        [(.keyword, "for"), (.variableName, "in"), (.keyword, "in")] <+:
          result.regions.map fun region => (region.scope, region.text) := by
  have isGap : IsGap "\t".toList := ⟨by decide, by decide +kernel⟩
  have isName : IsName "in".toList := .intro (by decide) (show ∀ c ∈ ['n'], _ by decide)
  have follows : InFollows "\nin(".toList :=
    ⟨['\n'], ['('], rfl, ⟨by decide, by decide +kernel⟩, by decide +kernel⟩
  obtain ⟨result, highlighted, looping, _⟩ :=
    for_takes_names "\t" "in" "\nin(" isGap isName (by decide)
  exact ⟨isGap, isName, follows, result, highlighted, looping follows⟩

end Jacy

end Highlighting
