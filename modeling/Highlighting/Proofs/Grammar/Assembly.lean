import Highlighting.Grammar.Rule
import Highlighting.Proofs.Pattern.Embedding

/-! # Patterns of several parts

The patterns of the parts of a rule are put together as text, each in a group that is named by the
number of the part, and read as one pattern. Read like this, every part is what it is when it is read
alone, with its own groups renumbered. The name of a part stands for its group, whatever groups the parts
have, since no name can be given twice. -/
set_option autoImplicit false
namespace Highlighting

namespace Parts

theorem groupName_closed (number : Nat) : '>' ∉ (groupName number).toList := by
  intro member
  have spelled : (groupName number).toList = 'p' :: Nat.toDigits 10 number := by
    have first : (toString "p").toList = ['p'] := rfl
    simp [groupName, Nat.toString_eq_repr, first]
  rw [spelled] at member
  rcases List.mem_cons.mp member with absurdity | digit
  · cases absurdity
  · exact absurd (Nat.isDigit_of_mem_toDigits (by decide) (by decide) digit) (by decide)

theorem assemble_cons (number : Nat) (part : String) (rest : List String) :
    (assemble number (part :: rest)).toList =
      '(' :: '?' :: 'P' :: '<' :: ((groupName number).toList ++
        '>' :: (part.toList ++ ')' :: (assemble (number + 1) rest).toList)) := by
  simp [assemble]

/-- A part as it is read: the number of the group around it, and the pattern that its text is read as
alone. -/
structure Piece where
  group : Nat
  own : Pattern

/-- The groups of pieces, which are named by the numbers from `number` on. -/
def wrapped (number : Nat) : List Piece → List Pattern
  | [] => []
  | piece :: rest =>
      .capture piece.group (some (groupName number)) (piece.own.renumber piece.group) ::
        wrapped (number + 1) rest

/-- The pieces of the texts from part `number` on, where so many groups have been opened before and these
names have been given. The groups of a part have numbers behind the one around it, and every later group
has a number behind them. -/
inductive Assembled : Nat → Nat → List String → List String → List Piece → Prop
  | nil {number groups : Nat} {names : List String} : Assembled number groups names [] []
  | cons {number groups count : Nat} {names inner texts : List String} {text : String} {own : Pattern}
      {pieces : List Piece} (parsed : Pattern.parse? text = some own) (fresh : groupName number ∉ names)
      (numbered : own.Every fun n name => 1 ≤ n ∧ n ≤ count ∧ ∀ known ∈ name, known ∈ inner)
      (onward : Assembled (number + 1) (count + (groups + 1)) (inner ++ groupName number :: names) texts
        pieces) :
      Assembled number groups names (text :: texts) (⟨groups + 1, own⟩ :: pieces)

open Pattern

/-- What has been read at the outermost level, if there was no choice. -/
theorem item?_sequence {reading : Reading} {item : Item} (finished : reading.choices.finished = [])
    (ended : reading.item? = some item) :
    item.pattern = inOrder (reading.choices.items.reverse.map (·.pattern)) := by
  unfold Reading.item? at ended
  split at ended
  · cases ended
    rw [Choices.item, finished]
    rfl
  · cases ended

/-- The assembled text is read piece by piece. -/
theorem read?_assemble {texts : List String}
    (proper : ∀ text ∈ texts, (parse? text).isSome = true ∧ isTerse text = true) :
    ∀ {number fuel : Nat} {reading : Reading} {item : Item}, reading.flags = {} →
      reading.choices.finished = [] →
        Reading.read? fuel reading (assemble number texts).toList = some item →
          ∃ pieces, Assembled number reading.groups reading.names texts pieces ∧
            item.pattern = inOrder
              (reading.choices.items.reverse.map (·.pattern) ++ wrapped number pieces) := by
  induction texts with
  | nil =>
      intro number fuel reading item start finished read
      have terse : reading.flags.verbose = false := by rw [start]
      rcases Reading.read?_cases terse read with ⟨_, ended⟩ | ⟨_, _, _, _, _, taken, _, _⟩
      · refine ⟨[], .nil, ?_⟩
        rw [wrapped, List.append_nil]
        exact item?_sequence finished ended
      · cases taken
  | cons text texts ih =>
      intro number fuel reading item start finished read
      obtain ⟨⟨parsed, terse⟩, others⟩ := List.forall_mem_cons.mp proper
      obtain ⟨own, parsed⟩ := Option.isSome_iff_exists.mp parsed
      obtain ⟨last, content, reads, ended, rfl, numbered⟩ := reads_of_parse? terse parsed
      rw [assemble_cons] at read
      obtain ⟨fresh, fewer, depth, onward⟩ :=
        Reading.read?_named start (groupName_closed number) reads ended read
      rw [String.ofList_toList] at fresh onward
      have startToo : (reading.withGroup last (groupName number) content depth).flags = {} := start
      have finishedToo : (reading.withGroup last (groupName number) content depth).choices.finished = [] :=
        finished
      obtain ⟨pieces, assembled, patterns⟩ := ih others startToo finishedToo onward
      refine ⟨_, .cons parsed fresh numbered assembled, ?_⟩
      rw [patterns]
      simp [Reading.withGroup, Choices.push, wrapped]

theorem members_wrapped (number : Nat) (pieces : List Piece) :
    (wrapped number pieces).flatMap members = wrapped number pieces := by
  induction pieces generalizing number with
  | nil => rfl
  | cons piece rest ih =>
      rw [wrapped, List.flatMap_cons, ih]
      rfl

/-- The pattern of several parts is the sequence of their groups. -/
theorem parse?_assemble {texts : List String} {whole : Pattern}
    (proper : ∀ text ∈ texts, (parse? text).isSome = true ∧ isTerse text = true)
    (parsed : parse? (assemble 1 texts) = some whole) :
    ∃ pieces, Assembled 1 0 [] texts pieces ∧ whole = seqs (wrapped 1 pieces) := by
  obtain ⟨item, read, shallow⟩ := Option.bind_eq_some_iff.mp parsed
  split at shallow
  · cases shallow
    obtain ⟨pieces, assembled, patterns⟩ := read?_assemble proper rfl rfl read
    refine ⟨pieces, assembled, ?_⟩
    rw [patterns, inOrder]
    exact congrArg seqs (members_wrapped 1 pieces)
  · cases shallow

/-! ## The groups of the parts -/

theorem namedGroups_seqs (ps : List Pattern) : (seqs ps).namedGroups = ps.flatMap namedGroups := by
  induction ps with
  | nil => rfl
  | cons p rest ih =>
      cases rest with
      | nil => exact (List.flatMap_singleton _ _).symm
      | cons q others =>
          rw [List.flatMap_cons, ← ih]
          rfl

theorem name_of_namedGroups {holds : Nat → Option String → Prop} {p : Pattern} (every : p.Every holds) :
    ∀ named ∈ p.namedGroups, holds named.2 (some named.1) := by
  induction p with
  | empty | char | check => exact List.forall_mem_nil _
  | seq first second ih also =>
      exact List.forall_mem_append.mpr ⟨ih every.1, also every.2⟩
  | alt first second ih also =>
      exact List.forall_mem_append.mpr ⟨ih every.1, also every.2⟩
  | rounds least most greedy body ih => exact ih every
  | capture number name body ih =>
      refine List.forall_mem_append.mpr ⟨?_, ih every.2⟩
      intro named member
      obtain ⟨n, given, rfl⟩ := List.mem_map.mp member
      rw [Option.mem_toList] at given
      obtain rfl := given
      exact every.1

variable {number groups : Nat} {names texts : List String} {pieces : List Piece}

theorem Assembled.length_eq (assembled : Assembled number groups names texts pieces) :
    pieces.length = texts.length := by
  induction assembled with
  | nil => rfl
  | cons parsed fresh numbered onward ih => rw [List.length_cons, List.length_cons, ih]

/-- The pattern of a piece is what the text of its part is read as. -/
theorem Assembled.own (assembled : Assembled number groups names texts pieces) :
    ∀ {i : Nat} {piece : Piece}, pieces[i]? = some piece →
      ∃ text, texts[i]? = some text ∧ parse? text = some piece.own := by
  induction assembled with
  | nil => nofun
  | cons parsed fresh numbered onward ih =>
      intro i piece there
      cases i with
      | zero =>
          cases there
          exact ⟨_, rfl, parsed⟩
      | succ i => exact ih there

/-- All groups of the parts have higher numbers than the groups before. -/
theorem Assembled.every (assembled : Assembled number groups names texts pieces) :
    ∀ p ∈ wrapped number pieces, p.Every fun n _ => groups < n := by
  induction assembled with
  | nil => exact List.forall_mem_nil _
  | @cons number groups count names inner texts text own pieces parsed fresh numbered onward ih =>
      have inside : (own.renumber (groups + 1)).Every fun n _ => groups < n := by
        refine Every.renumber (numbered.imp fun n name known => ?_)
        omega
      refine List.forall_mem_cons.mpr ⟨⟨Nat.lt_succ_self groups, inside⟩, ?_⟩
      intro p member
      exact (ih p member).imp fun n name behind => by omega

theorem Assembled.fresh (assembled : Assembled number groups names texts pieces) :
    ∀ i < pieces.length, groupName (number + i) ∉ names := by
  induction assembled with
  | nil => nofun
  | cons parsed fresh numbered onward ih =>
      rintro (_ | i) inside
      · exact fresh
      · intro member
        have later := ih i (Nat.lt_of_succ_lt_succ inside)
        rw [Nat.add_right_comm] at later
        exact later (List.mem_append_right _ (List.mem_cons_of_mem _ member))

/-- The name of a part is the name of the group around it, and of no group before. -/
theorem Assembled.groupNumber? (assembled : Assembled number groups names texts pieces) :
    ∀ {i : Nat} {piece : Piece}, pieces[i]? = some piece →
      (seqs (wrapped number pieces)).groupNumber? (groupName (number + i)) = some piece.group := by
  simp only [Pattern.groupNumber?, namedGroups_seqs]
  induction assembled with
  | nil => nofun
  | @cons number groups count names inner texts text own pieces parsed fresh numbered onward ih =>
      intro i piece there
      rw [wrapped, List.flatMap_cons, List.lookup_append]
      cases i with
      | zero =>
          cases there
          simp [namedGroups]
      | succ i =>
          rw [List.getElem?_cons_succ] at there
          have inside : i < pieces.length := (List.getElem?_eq_some_iff.mp there).1
          have new := onward.fresh i inside
          have later := ih there
          rw [Nat.add_right_comm] at new later
          let known := inner ++ groupName number :: names
          have named : (capture (groups + 1) (some (groupName number)) (own.renumber (groups + 1))).Every
              fun _ name => ∀ n ∈ name, n ∈ known := by
            refine ⟨?_, Every.renumber (numbered.imp fun _ name has n given => ?_)⟩
            · rintro _ ⟨⟩
              exact List.mem_append_right _ List.mem_cons_self
            · exact List.mem_append_left _ (has.2.2 n given)
          -- The parser would have refused the name of a later part, had this part a group of that name.
          have elsewhere : (capture (groups + 1) (some (groupName number))
              (own.renumber (groups + 1))).namedGroups.lookup (groupName (number + (i + 1))) = none := by
            rw [List.lookup_eq_none_iff]
            intro given member
            rw [bne_iff_ne]
            intro same
            have among := name_of_namedGroups named given member given.1 rfl
            rw [← same] at among
            exact new among
          rw [elsewhere]
          exact later

end Parts

end Highlighting
