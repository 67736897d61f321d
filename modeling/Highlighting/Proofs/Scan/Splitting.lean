import Mathlib.Data.List.TakeWhile
import Highlighting.Proofs.Pattern.Edges
import Highlighting.Proofs.Pattern.Runs
import Highlighting.Proofs.Scan.Halting
import Highlighting.Proofs.Scan.Segments
import Highlighting.Proofs.Scan.Tally

/-! # Sorting splits text into words

With the usual word pattern, and operators without word characters, sorting does to a stretch what
splitting it from left to right does: every round of the sorting comes to the place where a segment ends.
No round starts inside a run of word characters, if the stretch does not. -/
set_option autoImplicit false
namespace Highlighting

/-! ## Runs of word characters -/

/-- The run of word characters at a place ends behind it, at the edge of an identifier. -/
theorem exists_run {source : Source} {place stop : Nat} (inside : stop ≤ source.size)
    (edge : ¬ InWord source.chars stop) (proper : place < stop)
    (word : source.chars[place]?.any (Assertion.isWord false) = true) :
    ∃ last, place < last ∧ last ≤ stop ∧
      source.part place last = (source.part place stop).takeWhile (Assertion.isWord false) ∧
      source.part last stop = (source.part place stop).dropWhile (Assertion.isWord false) ∧
      (∀ passed, place ≤ passed → passed < last →
        source.chars[passed]?.any (Assertion.isWord false) = true) ∧
      source.chars[last]?.any (Assertion.isWord false) = false := by
  let run := (source.part place stop).takeWhile (Assertion.isWord false)
  let rest := (source.part place stop).dropWhile (Assertion.isWord false)
  have whole : run ++ rest = source.part place stop := List.takeWhile_append_dropWhile
  obtain ⟨within, before, behind⟩ := source.part_of_append (Nat.le_of_lt proper) inside whole
  have each : ∀ passed, place ≤ passed → passed < place + run.length →
      source.chars[passed]?.any (Assertion.isWord false) = true := by
    intro passed after early
    obtain ⟨index, rfl⟩ := Nat.exists_eq_add_of_le after
    have here := source.part_getElem? early
    have shorter : index < run.length := Nat.lt_of_add_lt_add_left early
    rw [before, List.getElem?_eq_getElem shorter] at here
    rw [← here, Option.any_some]
    exact List.mem_takeWhile_imp (List.getElem_mem shorter)
  have nonempty : 0 < run.length := by
    obtain ⟨c, here, isWord⟩ := (Option.any_eq_true _ _).mp word
    have starts : run = c :: (source.part (place + 1) stop).takeWhile (Assertion.isWord false) := by
      simp only [run, source.part_cons proper here, List.takeWhile_cons_of_pos isWord]
    rw [starts]
    exact Nat.succ_pos _
  refine ⟨place + run.length, Nat.lt_add_of_pos_right nonempty, within, before, behind, each, ?_⟩
  rcases Nat.eq_or_lt_of_le within with ends | more
  · -- The run goes up to the end of the stretch, which is not inside an identifier.
    rw [ends, ← Bool.not_eq_true]
    intro further
    exact edge ⟨by omega, each (stop - 1) (by omega) (by omega), further⟩
  · rw [← source.part_head? more, behind]
    have first := List.head?_dropWhile_not (Assertion.isWord false) (source.part place stop)
    cases next : ((source.part place stop).dropWhile (Assertion.isWord false)).head? with
    | none => rfl
    | some c =>
        rw [next] at first
        exact first

/-! ## Rounds of the sorting -/

namespace Sorting
variable {sorting : Sorting}

theorem finish_mark (scope : Scope) (start stop relevance : Nat) :
    ((sorting.mark scope start stop relevance).finish stop).nodes =
      Node.push (sorting.finish start).nodes (.leaf scope start stop) := by
  rw [finish, mark, Node.push_empty]
  rfl

/-- What is left plain may be left so in two steps. -/
theorem finish_later {place later : Nat} (behind : sorting.last ≤ place) (forth : place ≤ later) :
    (sorting.finish later).nodes = Node.push (sorting.finish place).nodes (.text place later) := by
  simp only [finish]
  rcases Nat.eq_or_lt_of_le behind with same | before
  · rw [same, Node.push_empty]
  · exact (Node.push_text_text sorting.nodes before forth).symm

end Sorting

/-- From one place and sorting to later ones, the sorting does what the splitting does at this place. -/
structure Splits (keywords : Keywords) (source : Source) (stop place later : Nat)
    (sorting sorted : Sorting) : Prop where
  forth : place < later
  inside : later ≤ stop
  edge : ¬ InWord source.chars later
  last_le : sorted.last ≤ later
  segment : ∃ scope,
    keywords.split (source.part place stop) =
      ⟨scope, source.part place later⟩ :: keywords.split (source.part later stop) ∧
    (sorted.finish later).nodes =
      Node.push (sorting.finish place).nodes (Segment.node place ⟨scope, source.part place later⟩)

namespace Splits
variable {keywords : Keywords} {source : Source} {stop place later : Nat} {sorting : Sorting}
  (inside : stop ≤ source.size) (forth : place < later) (within : later ≤ stop)
  (edge : ¬ InWord source.chars later)
include inside forth within edge

theorem marked {scope : Scope} (relevance : Nat) (splits : keywords.split (source.part place stop) =
      ⟨some scope, source.part place later⟩ :: keywords.split (source.part later stop)) :
    Splits keywords source stop place later sorting (sorting.mark scope place later relevance) := by
  refine ⟨forth, within, edge, Nat.le_refl later, some scope, splits, ?_⟩
  rw [Sorting.finish_mark, Segment.node, source.part_length (Nat.le_trans within inside)]
  dsimp only
  rw [Nat.add_sub_cancel' (Nat.le_of_lt forth)]

theorem plain (behind : sorting.last ≤ place) (splits : keywords.split (source.part place stop) =
      ⟨none, source.part place later⟩ :: keywords.split (source.part later stop)) :
    Splits keywords source stop place later sorting sorting := by
  refine ⟨forth, within, edge, Nat.le_trans behind (Nat.le_of_lt forth), none, splits, ?_⟩
  rw [Sorting.finish_later behind (Nat.le_of_lt forth), Segment.node,
    source.part_length (Nat.le_trans within inside)]
  dsimp only
  rw [Nat.add_sub_cancel' (Nat.le_of_lt forth)]

end Splits

theorem Pattern.parse?_usual :
    Pattern.parse? "[a-zA-Z0-9_]+" = some (.rounds 1 none true (.char .plainWord)) := by
  decide +kernel

namespace WordTable
variable {owner : PatternOwner} {keywords : Keywords} {table : WordTable} {source : Source}
  {stop place : Nat} {sorting : Sorting}

/-- The usual word pattern is read as a run of word characters. -/
theorem eq_of_usual (usual : keywords.pattern = "[a-zA-Z0-9_]+")
    (compiled : ofKeywords owner keywords = .ok table) :
    table.pattern = .ofPattern (.rounds 1 none true (.char .plainWord)) ∧
      table.operators = operatorPattern keywords.operator := by
  obtain ⟨pattern, read, rfl⟩ := eq_of_ofKeywords compiled
  rw [usual, Pattern.parse?_usual] at read
  cases read
  exact ⟨rfl, rfl⟩

/-- A candidate without an exclamation mark at its end is looked up as it is. -/
theorem lookUp_unmarked (compiled : ofKeywords owner keywords = .ok table) {later : Nat}
    (unmarked : source.chars[later - 1]? ≠ some '!') :
    table.lookUp source place later = (keywords.scopeOf? (source.slice place later), later) := by
  rw [lookUp, scope?_eq compiled]
  cases keywords.scopeOf? (source.slice place later) with
  | some scope => rfl
  | none =>
      dsimp only
      rw [beq_eq_false_iff_ne.mpr unmarked, Bool.and_false, if_neg Bool.false_ne_true]

section Rounds
variable (usual : keywords.pattern = "[a-zA-Z0-9_]+") (compiled : ofKeywords owner keywords = .ok table)
  (inside : stop ≤ source.size) (proper : place < stop) (outside : insideIdentifier source place = false)
include usual compiled inside proper outside

theorem round_word (behind : sorting.last ≤ place) (ends : ¬ InWord source.chars stop)
    (word : source.chars[place]?.any (Assertion.isWord false) = true) :
    ∃ later sorted, table.sortRound? source stop (place, sorting) = some (later, sorted) ∧
      Splits keywords source stop place later sorting sorted := by
  obtain ⟨later, forth, within, run, rest, each, last⟩ := exists_run inside ends proper word
  have edge : ¬ InWord source.chars later := fun absurdity => by
    rw [absurdity.behind] at last
    exact nomatch last
  have matched : (table.pattern.stop? source.chars place stop).filter (place < ·) = some later := by
    rw [← CharSet.contains_plainWord] at last each
    rw [(eq_of_usual usual compiled).1, Program.stop?_several (by decide) within last forth each]
    exact Option.filter_some_pos (decide_eq_true forth)
  have unmarked : source.chars[later - 1]? ≠ some '!' := by
    have isWord := each (later - 1) (by omega) (by omega)
    intro mark
    rw [mark] at isWord
    exact absurd isWord (by decide)
  have looked : table.lookUp source place later = (keywords.scopeOf? (source.slice place later), later) :=
    lookUp_unmarked compiled unmarked
  have splits : keywords.split (source.part place stop) =
      ⟨keywords.scopeOf? (source.slice place later), source.part place later⟩ ::
        keywords.split (source.part later stop) := by
    obtain ⟨c, here, isWord⟩ := (Option.any_eq_true _ _).mp word
    have first := keywords.split_word (source.part (place + 1) stop) isWord
    rw [← source.part_cons proper here] at first
    rw [rest, Source.slice, run]
    exact first
  cases known : keywords.scopeOf? (source.slice place later) with
  | some scope =>
      have round : table.sortRound? source stop (place, sorting) =
          some (later, sorting.mark scope place later (worth source scope place later)) := by
        rw [sortRound?, if_neg (Nat.not_le.mpr proper), outside, if_neg Bool.false_ne_true, matched]
        dsimp only
        rw [looked, known]
      rw [known] at splits
      exact ⟨later, _, round, .marked inside forth within edge _ splits⟩
  | none =>
      have round : table.sortRound? source stop (place, sorting) = some (later, sorting) := by
        rw [sortRound?, if_neg (Nat.not_le.mpr proper), outside, if_neg Bool.false_ne_true, matched]
        dsimp only
        rw [looked, known]
      rw [known] at splits
      exact ⟨later, _, round, .plain inside forth within edge behind splits⟩

omit inside proper outside in
theorem no_run (noWord : source.chars[place]?.any (Assertion.isWord false) = false) :
    (table.pattern.stop? source.chars place stop).filter (place < ·) = none := by
  rw [← CharSet.contains_plainWord] at noWord
  rw [(eq_of_usual usual compiled).1, Program.stop?_several_eq_none (by decide) noWord]
  rfl

theorem round_operator {c : Char} (here : source.chars[place]? = some c)
    (noWord : Assertion.isWord false c = false) {spelling : String}
    (found : longestSpelling? keywords.operator (source.part place stop) = some spelling)
    (symbols : ∀ c ∈ spelling.toList, Assertion.isWord false c = false) :
    ∃ later sorted, table.sortRound? source stop (place, sorting) = some (later, sorted) ∧
      Splits keywords source stop place later sorting sorted := by
  obtain ⟨longest, nonempty⟩ := longest_of_longestSpelling? found
  have skipped : (table.pattern.stop? source.chars place stop).filter (place < ·) = none :=
    no_run usual compiled (by rw [here, Option.any_some, noWord])
  have forth : place < place + spelling.length := Nat.lt_add_of_pos_right nonempty
  have matched : (table.operators.bind (·.stop? source.chars place stop)).filter (place < ·) =
      some (place + spelling.length) := by
    rw [(eq_of_usual usual compiled).2, operatorPattern_stop?_iff.mpr ⟨spelling, longest, rfl⟩]
    exact Option.filter_some_pos (decide_eq_true forth)
  obtain ⟨rest, whole⟩ := longest.stands
  obtain ⟨within, text, behind⟩ := source.part_of_append (Nat.le_of_lt proper) inside whole
  rw [String.length_toList] at within text behind
  have edge : ¬ InWord source.chars (place + spelling.length) := by
    intro absurdity
    have before := absurdity.before
    rw [← source.part_getLast? forth (Nat.le_trans within inside), text] at before
    obtain ⟨d, last, isWord⟩ := (Option.any_eq_true _ _).mp before
    rw [symbols d (List.mem_of_getLast? last)] at isWord
    exact nomatch isWord
  have splits : keywords.split (source.part place stop) =
      ⟨some .operator, source.part place (place + spelling.length)⟩ ::
        keywords.split (source.part (place + spelling.length) stop) := by
    have dropped : (source.part place stop).drop spelling.length = rest := by
      rw [← whole, ← String.length_toList, List.drop_left]
    rw [behind, text, ← dropped]
    rw [source.part_cons proper here] at found ⊢
    exact Keywords.split_operator noWord found
  have round : table.sortRound? source stop (place, sorting) =
      some (place + spelling.length, sorting.mark .operator place (place + spelling.length) 0) := by
    rw [sortRound?, if_neg (Nat.not_le.mpr proper), outside, if_neg Bool.false_ne_true, skipped, matched]
  exact ⟨_, _, round, .marked inside forth within edge 0 splits⟩

theorem round_plain (behind : sorting.last ≤ place) {c : Char} (here : source.chars[place]? = some c)
    (noWord : Assertion.isWord false c = false)
    (missing : longestSpelling? keywords.operator (source.part place stop) = none) :
    ∃ later sorted, table.sortRound? source stop (place, sorting) = some (later, sorted) ∧
      Splits keywords source stop place later sorting sorted := by
  have skipped : (table.pattern.stop? source.chars place stop).filter (place < ·) = none :=
    no_run usual compiled (by rw [here, Option.any_some, noWord])
  have unmatched : (table.operators.bind (·.stop? source.chars place stop)).filter (place < ·) = none := by
    rw [(eq_of_usual usual compiled).2, Option.filter_eq_none_iff]
    intro last ends beyond
    obtain ⟨spelling, longest, rfl⟩ := operatorPattern_stop?_iff.mp ends
    rw [eq_empty_of_longestSpelling? missing longest.listed longest.stands] at beyond
    exact absurd (of_decide_eq_true beyond) (Nat.lt_irrefl place)
  have edge : ¬ InWord source.chars (place + 1) := by
    intro absurdity
    have before := absurdity.before
    rw [Nat.add_sub_cancel, here, Option.any_some, noWord] at before
    exact nomatch before
  have one : source.part place (place + 1) = [c] := by
    rw [source.part_cons (Nat.lt_succ_self place) here, Source.part_self]
  have splits : keywords.split (source.part place stop) =
      ⟨none, source.part place (place + 1)⟩ :: keywords.split (source.part (place + 1) stop) := by
    rw [one]
    rw [source.part_cons proper here] at missing ⊢
    exact Keywords.split_plain noWord missing
  have round : table.sortRound? source stop (place, sorting) = some (place + 1, sorting) := by
    rw [sortRound?, if_neg (Nat.not_le.mpr proper), outside, if_neg Bool.false_ne_true, skipped, unmatched]
  exact ⟨_, _, round, .plain inside (Nat.lt_succ_self place) proper edge behind splits⟩

end Rounds

section Runs
variable (usual : keywords.pattern = "[a-zA-Z0-9_]+") (compiled : ofKeywords owner keywords = .ok table)
  (symbols : ∀ spelling ∈ keywords.operator, ∀ c ∈ spelling.toList, Assertion.isWord false c = false)
  (ascii : ∀ c ∈ source.chars, c.toNat < 0x80) (inside : stop ≤ source.size)
  (ends : ¬ InWord source.chars stop)
include usual compiled symbols ascii inside ends

/-- Every round does what the splitting does at its place. -/
theorem sortRound?_splits (proper : place < stop) (edge : ¬ InWord source.chars place)
    (behind : sorting.last ≤ place) :
    ∃ later sorted, table.sortRound? source stop (place, sorting) = some (later, sorted) ∧
      Splits keywords source stop place later sorting sorted := by
  have outside : insideIdentifier source place = false :=
    Bool.eq_false_iff.mpr fun absurdity => edge ((InWord.iff_insideIdentifier ascii).mpr absurdity)
  obtain ⟨c, here⟩ : ∃ c, source.chars[place]? = some c :=
    ⟨_, Array.getElem?_eq_getElem (Nat.lt_of_lt_of_le proper inside)⟩
  cases word : Assertion.isWord false c with
  | true =>
      exact round_word usual compiled inside proper outside behind ends (by rw [here, Option.any_some, word])
  | false =>
      cases found : longestSpelling? keywords.operator (source.part place stop) with
      | some spelling =>
          have listed := (longest_of_longestSpelling? found).1.listed
          exact round_operator usual compiled inside proper outside here word found (symbols spelling listed)
      | none => exact round_plain usual compiled inside proper outside behind here word found

/-- The sorting goes on as the splitting does, from every place that is not inside an identifier. -/
theorem sortFrom_splits (room : Nat) :
    ∀ {place : Nat} {sorting : Sorting}, place ≤ stop → stop - place ≤ room →
      ¬ InWord source.chars place → sorting.last ≤ place →
        ((table.sortFrom source stop room place sorting).finish stop).nodes =
          Node.pushAll (sorting.finish place).nodes
            (Segment.nodes place (keywords.split (source.part place stop))) := by
  induction room with
  | zero =>
      intro place sorting ordered enough _ _
      obtain rfl : place = stop := by omega
      rw [Source.part_self, Keywords.split]
      rfl
  | succ room ih =>
      intro place sorting ordered enough edge behind
      rcases Nat.eq_or_lt_of_le ordered with rfl | proper
      · rw [sortFrom, if_pos (Nat.le_refl place), Source.part_self, Keywords.split]
        rfl
      · obtain ⟨later, sorted, round, step⟩ :=
          sortRound?_splits usual compiled symbols ascii inside ends proper edge behind
        obtain ⟨scope, splits, pushed⟩ := step.segment
        have forth := step.forth
        have further := ih step.inside (by omega) step.edge step.last_le
        have reached : place + (source.part place later).length = later := by
          rw [source.part_length (Nat.le_trans step.inside inside)]
          omega
        rw [sortFrom_succ, round]
        dsimp only
        rw [further, splits, pushed, Segment.nodes, reached]
        rfl

end Runs

/-- With the usual word pattern, and operators without word characters, a text of ASCII is sorted as it is
split, if neither end of the range is inside a run of word characters. Every segment with a scope is a
hit. -/
theorem sort_splits (owner : PatternOwner) {keywords : Keywords}
    (usual : keywords.pattern = "[a-zA-Z0-9_]+")
    (symbols : ∀ spelling ∈ keywords.operator, ∀ c ∈ spelling.toList, Assertion.isWord false c = false) :
    ∃ table, ofKeywords owner keywords = .ok table ∧
      ∀ (scan : Scan) (source : Source) (start stop : Nat), (∀ c ∈ source.chars, c.toNat < 0x80) →
        start ≤ stop → stop ≤ source.size → ¬ InWord source.chars start → ¬ InWord source.chars stop →
          let segments := Segment.joinPlain (keywords.split (source.part start stop))
          let (nodes, sorted) := scan.sort source (some table) start stop
          nodes = Segment.nodes start segments ∧
            sorted.stats.keywordHits = scan.stats.keywordHits + segments.countP (·.scope.isSome) := by
  obtain ⟨table, compiled⟩ : ∃ table, ofKeywords owner keywords = .ok table :=
    exists_ofKeywords owner (usual ▸ Pattern.parse?_usual)
  refine ⟨table, compiled, fun scan source start stop ascii ordered inside begins ends => ?_⟩
  have nodes : (table.sort source start stop).nodes.reverse =
      Segment.nodes start (Segment.joinPlain (keywords.split (source.part start stop))) := by
    have begun : ({ last := start } : Sorting).last ≤ start := Nat.le_refl start
    have sorted := sortFrom_splits usual compiled symbols ascii inside ends (stop - start) ordered
      (Nat.le_refl _) begins begun
    have nothing : (Sorting.finish { last := start } start).nodes = [] := Node.push_empty [] start
    rw [sort, sorted, nothing]
    exact Segment.reverse_pushAll (keywords.split_proper _) start
  refine ⟨nodes, congrArg (scan.stats.keywordHits + ·) ?_⟩
  calc (table.sort source start stop).hits
    _ = (Node.marksAll (table.sort source start stop).nodes).length :=
        (table.sort_tallied source start stop).hits
    _ = (Node.marksAll (table.sort source start stop).nodes.reverse).length :=
        (Node.marksAll_reverse _).length_eq.symm
    _ = (Segment.joinPlain (keywords.split (source.part start stop))).countP (·.scope.isSome) := by
        rw [nodes, Segment.length_marks]

end WordTable

namespace Shifts

/-- One word is in two vocabularies, and each operator is the start of a longer one. -/
def keywords : Keywords where
  types := ["int"]
  keyword := ["if", "int"]
  literal := ["nil"]
  operator := ["", "<", "<<", "<<="]

def source : Source :=
  .ofString "if int <<= if_ <<nil"

/-- Everything behind the first word, which is left out. -/
def segments : List Segment :=
  [⟨none, [' ']⟩, ⟨some .type, "int".toList⟩, ⟨none, [' ']⟩, ⟨some .operator, "<<=".toList⟩,
    ⟨none, " if_ ".toList⟩, ⟨some .operator, "<<".toList⟩, ⟨some .literal, "nil".toList⟩]

theorem shifts_split :
    ∃ table, WordTable.ofKeywords (.language "shifts") keywords = .ok table ∧
      let (nodes, sorted) := ({} : Scan).sort source (some table) 2 20
      nodes = Segment.nodes 2 segments ∧ sorted.stats.keywordHits = 4 := by
  have symbols : ∀ spelling ∈ keywords.operator, ∀ c ∈ spelling.toList,
      Assertion.isWord false c = false := by
    simp [keywords, ← Bool.not_eq_true, isWord_iff]
  have ascii : ∀ c ∈ source.chars, c.toNat < 0x80 := by
    simp [source, Source.ofString]
  obtain ⟨table, compiled, splits⟩ := WordTable.sort_splits (.language "shifts") rfl symbols
  have begins : ¬ InWord source.chars 2 := fun absurdity => absurd absurdity.behind (by decide)
  have ends : ¬ InWord source.chars 20 := fun absurdity => absurd absurdity.behind (by decide)
  have same : Segment.joinPlain (keywords.split (source.part 2 20)) = segments := by
    decide +kernel
  obtain ⟨nodes, hits⟩ := splits {} source 2 20 ascii (by decide) (by decide) begins ends
  rw [same] at nodes hits
  exact ⟨table, compiled, nodes, hits⟩

end Shifts

end Highlighting
