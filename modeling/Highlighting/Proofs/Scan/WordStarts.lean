import Highlighting.Proofs.Scan.Catching

/-! # Where sorted words start

No word and no operator starts inside an identifier, wherever the stretch begins and wherever the last
match ended. The characters that are skipped for this are those of one identifier, and none of them is
the first one. So whatever the table finds is marked, unless an earlier match passes over the place. -/
set_option autoImplicit false
namespace Highlighting

namespace WordTable

/-- A place is inside an identifier when the characters before it and behind it are both of one. -/
theorem insideIdentifier_iff {source : Source} {place : Nat} :
    insideIdentifier source place = true ↔
      ∃ before c d after, source.chars.toList = before ++ c :: d :: after ∧ before.length + 1 = place ∧
        Unicode.isIdentifier c = true ∧ Unicode.isIdentifier d = true := by
  simp only [insideIdentifier, Bool.and_eq_true, decide_eq_true_eq, Option.any_eq_true,
    ← Array.getElem?_toList]
  constructor
  · rintro ⟨⟨proper, c, left, first⟩, d, right, second⟩
    obtain ⟨place, rfl⟩ : ∃ earlier, place = earlier + 1 := Nat.exists_eq_add_one_of_ne_zero (by omega)
    rw [Nat.add_sub_cancel] at left
    obtain ⟨inside, rfl⟩ := List.getElem?_eq_some_iff.mp right
    obtain ⟨_, rfl⟩ := List.getElem?_eq_some_iff.mp left
    refine ⟨source.chars.toList.take place, _, _, source.chars.toList.drop (place + 2), ?_, ?_, first, second⟩
    · rw [← List.drop_eq_getElem_cons inside, ← List.drop_eq_getElem_cons, List.take_append_drop]
    · rw [List.length_take_of_le (by omega)]
  · rintro ⟨before, c, d, after, split, rfl, first, second⟩
    rw [split]
    simp [first, second]

variable {table : WordTable} {source : Source} {stop : Nat} {mark : Marking}

/-- What the table takes at once when sorting comes to a place: a word, known or not, or an operator. -/
inductive Takes (table : WordTable) (source : Source) (limit : Nat) : Nat → Nat → Prop where
  | word {start candidate : Nat} (outside : insideIdentifier source start = false)
      (matched : (table.pattern.stop? source.chars start limit).filter (start < ·) = some candidate) :
      Takes table source limit start (table.lookUp source start candidate).2
  | operator {start stop : Nat} (outside : insideIdentifier source start = false)
      (noWord : (table.pattern.stop? source.chars start limit).filter (start < ·) = none)
      (matched : (table.operators.bind (·.stop? source.chars start limit)).filter (start < ·) = some stop) :
      Takes table source limit start stop

theorem Finds.takes (finds : table.Finds source stop mark) :
    table.Takes source stop mark.start mark.stop := by
  cases finds with
  | word outside matched known =>
      have takes := Takes.word outside matched
      rwa [known] at takes
  | operator outside noWord matched => exact .operator outside noWord matched

/-- Sorting a stretch makes no marks where the table takes nothing in it. -/
theorem sortFrom_nothing {start : Nat}
    (nothing : ∀ first last, start ≤ first → first < stop → ¬ table.Takes source stop first last)
    (room : Nat) : ∀ {place : Nat} {sorting : Sorting}, start ≤ place →
      table.sortFrom source stop room place sorting = sorting := by
  induction room with
  | zero => intro place sorting _; rfl
  | succ room ih =>
      intro place sorting begun
      rw [sortFrom.eq_def]
      dsimp only
      by_cases ended : stop ≤ place
      · rw [if_pos ended]
      · have inside : place < stop := Nat.not_le.mp ended
        rw [if_neg ended]
        by_cases within : insideIdentifier source place = true
        · have forth := (source.skip_bounds Unicode.isIdentifier (stop - place) (Nat.le_of_lt inside)).1
          rw [if_pos within]
          exact ih (Nat.le_trans begun forth)
        · rw [if_neg within]
          have outside := eq_false_of_ne_true within
          cases matched : (table.pattern.stop? source.chars place stop).filter (place < ·) with
          | some candidate => exact absurd (.word outside matched) (nothing _ _ begun inside)
          | none =>
              cases operator : (table.operators.bind (·.stop? source.chars place stop)).filter (place < ·) with
              | some last => exact absurd (.operator outside matched operator) (nothing _ _ begun inside)
              | none => exact ih (Nat.le_succ_of_le begun)

theorem sort_nothing {start : Nat}
    (nothing : ∀ first last, start ≤ first → first < stop → ¬ table.Takes source stop first last) :
    (table.sort source start stop).nodes = Node.push [] (.text start stop) := by
  rw [sort, sortFrom_nothing nothing _ (Nat.le_refl start)]
  rfl

/-- No match that starts earlier in the stretch passes over the place. -/
def Open (table : WordTable) (source : Source) (start limit place : Nat) : Prop :=
  ∀ first last, start ≤ first → first < place → table.Takes source limit first last → last ≤ place

/-- Skipping the rest of an identifier stops before any place that is not inside one. -/
theorem skip_le {place later : Nat} (before : place < later)
    (outside : insideIdentifier source later = false) (room : Nat) :
    source.skip Unicode.isIdentifier stop room place ≤ later := by
  rw [← Nat.not_lt]
  intro beyond
  have reached : later - 1 < source.skip Unicode.isIdentifier stop room place := by omega
  have left := source.skip_passes Unicode.isIdentifier room (by omega) reached
  have right := source.skip_passes Unicode.isIdentifier room (Nat.le_of_lt before) beyond
  have proper : 0 < later := by omega
  simp [insideIdentifier, left, right, proper] at outside

/-- A round makes the mark at its place, and it does not go beyond an open place behind it. -/
theorem sortRound?_reaches {start place : Nat} {sorting : Sorting} (finds : table.Finds source stop mark)
    (inside : mark.start < stop) (openPlace : table.Open source start stop mark.start)
    (begun : start ≤ place) (behind : place ≤ mark.start) :
    ∃ later sorted, table.sortRound? source stop (place, sorting) = some (later, sorted) ∧
      (mark ∈ Node.marksAll sorted.nodes ∨ later ≤ mark.start) := by
  have more : ¬ stop ≤ place := by omega
  rcases Nat.eq_or_lt_of_le behind with rfl | before
  · -- The round is at the mark, and what the table finds there is what the round takes.
    have outside := finds.outside
    cases finds with
    | word _ matched known => simp [sortRound?, more, outside, matched, known]
    | operator _ noWord matched => simp [sortRound?, more, outside, noWord, matched]
  · rw [sortRound?, if_neg more]
    by_cases within : insideIdentifier source place = true
    · rw [if_pos within]
      exact ⟨_, _, rfl, .inr (skip_le before finds.outside _)⟩
    · rw [if_neg within]
      have outside := eq_false_of_ne_true within
      cases matched : (table.pattern.stop? source.chars place stop).filter (place < ·) with
      | some candidate =>
          have passed := openPlace _ _ begun before (.word outside matched)
          dsimp only
          split
          · exact ⟨_, _, rfl, .inr passed⟩
          · exact ⟨_, _, rfl, .inr passed⟩
      | none =>
          cases operator : (table.operators.bind (·.stop? source.chars place stop)).filter (place < ·) with
          | some operatorStop =>
              exact ⟨_, _, rfl, .inr (openPlace _ _ begun before (.operator outside matched operator))⟩
          | none => exact ⟨_, _, rfl, .inr before⟩

/-- Sorting makes every mark that it comes to. -/
theorem sortFrom_reaches {start : Nat} (finds : table.Finds source stop mark) (inside : mark.start < stop)
    (openPlace : table.Open source start stop mark.start) (room : Nat) :
    ∀ {place : Nat} {sorting : Sorting}, start ≤ place → place ≤ mark.start → mark.start < place + room →
      mark ∈ Node.marksAll (table.sortFrom source stop room place sorting).nodes := by
  -- As long as the mark is not made, the place of the round has not passed its start.
  induction room with
  | zero =>
      intro place sorting _ behind enough
      omega
  | succ room ih =>
      intro place sorting begun behind enough
      obtain ⟨later, sorted, goes, done⟩ := sortRound?_reaches finds inside openPlace begun behind
      have forth := (table.sortRound?_advances source stop goes).1
      rw [sortFrom_succ, goes]
      rcases done with made | ahead
      · apply sortFrom_induction (motive := fun sorting => mark ∈ Node.marksAll sorting.nodes) _ _ made
        intro sorting other relevance kept _
        simp [kept]
      · exact ih (by omega) ahead (by omega)

/-- Whatever the table finds in a stretch is marked, where no earlier match passes over its start. -/
theorem sort_reaches {start : Nat} (finds : table.Finds source stop mark) (begun : start ≤ mark.start)
    (inside : mark.start < stop) (openPlace : table.Open source start stop mark.start) :
    mark ∈ Node.marksAll (table.sort source start stop).nodes := by
  rw [sort, Sorting.marksAll_finish]
  exact sortFrom_reaches finds inside openPlace (stop - start) (Nat.le_refl start) begun (by omega)

/-- No mark of a sorted stretch starts inside an identifier of the source, even if that began before the
stretch. And no word or operator is lost for it: whatever the table finds outside of identifiers is marked,
unless an earlier match passes over its start. -/
theorem sort_starts_at_edges (table : WordTable) (scan : Scan) (source : Source) (start stop : Nat) :
    let nodes := (scan.sort source (some table) start stop).1
    (∀ scope first last children, .marked scope first last children ∈ nodes →
      ¬ ∃ before c d after, source.chars.toList = before ++ c :: d :: after ∧ before.length + 1 = first ∧
        Unicode.isIdentifier c = true ∧ Unicode.isIdentifier d = true) ∧
    ∀ mark, table.Finds source stop mark → start ≤ mark.start → mark.start < stop →
      table.Open source start stop mark.start → .leaf mark.scope mark.start mark.stop ∈ nodes := by
  constructor
  · intro scope first last children member inside
    have marked : ⟨scope, first, last⟩ ∈ Node.marksAll (table.sort source start stop).nodes := by
      rw [Node.marksAll_eq]
      exact List.mem_flatMap.mpr ⟨_, List.mem_reverse.mp member, List.mem_cons_self⟩
    have outside := (sort_finds _ marked).outside
    rw [insideIdentifier_iff.mpr inside] at outside
    exact nomatch outside
  · intro mark finds begun inside openPlace
    exact leaf_mem_sort_iff.mpr (sort_reaches finds begun inside openPlace)

end WordTable

namespace Halves

/-- A word is one letter, so that it may end inside an identifier, and an operator has letters. -/
def table : WordTable where
  pattern := .ofPattern (.char (.single 'x'))
  vocabularies := [(.keyword, ["x"])]
  operators := some (.ofPattern (.alts [.literal ['i', 's'], .literal ['!']]))

def source : Source :=
  .ofString "éx xis is!"

/-- The stretch starts inside an identifier, and a word ends in another one. -/
theorem halves_sorted :
    (∀ children, .marked .keyword 1 2 children ∉ (({} : Scan).sort source (some table) 1 10).1) ∧
      (∀ children, .marked .operator 4 6 children ∉ (({} : Scan).sort source (some table) 1 10).1) ∧
      .leaf .keyword 3 4 ∈ (({} : Scan).sort source (some table) 3 10).1 := by
  obtain ⟨edges, _⟩ := WordTable.sort_starts_at_edges table {} source 1 10
  obtain ⟨_, made⟩ := WordTable.sort_starts_at_edges table {} source 3 10
  refine ⟨?_, ?_, ?_⟩
  · intro children member
    exact edges _ _ _ _ member ⟨[], 'é', 'x', " xis is!".toList, by decide⟩
  · intro children member
    exact edges _ _ _ _ member ⟨"éx ".toList, 'x', 'i', "s is!".toList, by decide⟩
  · apply made ⟨.keyword, 3, 4⟩
    · have matched : (table.pattern.stop? source.chars 3 10).filter (3 < ·) = some 4 := by decide +kernel
      exact .word (by decide) matched (by decide +kernel)
    · decide
    · decide
    · intro first last begun before
      exact absurd begun (Nat.not_le.mpr before)

end Halves

end Highlighting
