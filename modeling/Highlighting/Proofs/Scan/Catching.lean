import Highlighting.Proofs.Scan.Lasting
import Highlighting.Proofs.Scan.Origins

/-! # Characters that are caught

A table catches a character that is an operator of its own and never part of a word: sorting then marks
every place where the character stands. If moreover the rules outside of all containers have the
character in what they hide only, then a result hides every place where it stands. -/
set_option autoImplicit false
namespace Highlighting

theorem Source.skip_passes (source : Source) (test : Char → Bool) {stop : Nat} (room : Nat) :
    ∀ {place passed : Nat}, place ≤ passed → passed < source.skip test stop room place →
      source.chars[passed]?.any test = true := by
  induction room with
  | zero =>
      intro place passed behind before
      exact absurd before (Nat.not_lt.mpr behind)
  | succ room ih =>
      intro place passed behind before
      unfold skip at before
      split at before
      · next more =>
          rcases Nat.eq_or_lt_of_le behind with rfl | later
          · exact (Bool.and_eq_true_iff.mp more).2
          · exact ih later before
      · exact absurd before (Nat.not_lt.mpr behind)

namespace WordTable

/-- The operators of the table have these spellings and are tried in this order. -/
def Spells (table : WordTable) (spellings : List String) : Prop :=
  table.operators =
    some (.ofPattern (.alts (spellings.map fun spelling => .literal spelling.toList)))

instance (table : WordTable) (spellings : List String) : Decidable (table.Spells spellings) :=
  inferInstanceAs (Decidable (table.operators = _))

theorem Spells.stop?_eq {table : WordTable} {spellings : List String} (spells : table.Spells spellings)
    (source : Source) (place limit : Nat) :
    table.operators.bind (·.stop? source.chars place limit) =
      (spellings.find? fun spelling => spelling.toList.isPrefixOf (source.part place limit)).map
        fun spelling => place + spelling.length := by
  rw [show table.operators = _ from spells, Option.bind_some, Program.stop?_literals]

/-- What the operators of the table match is one of the spellings, which stands there. -/
theorem Spells.stands {table : WordTable} {spellings : List String} (spells : table.Spells spellings)
    {source : Source} {place limit stop : Nat}
    (matched : table.operators.bind (·.stop? source.chars place limit) = some stop) :
    ∃ spelling ∈ spellings, source.holdsAt spelling.toList place = true ∧
      stop = place + spelling.length := by
  rw [spells.stop?_eq] at matched
  obtain ⟨spelling, first, rfl⟩ := Option.map_eq_some_iff.mp matched
  have found := List.find?_some first
  have stands := source.holdsAt_of_prefix (List.isPrefixOf_iff_prefix.mp found)
  exact ⟨spelling, List.mem_of_find?_eq_some first, stands, rfl⟩

/-- The character is an operator, no word has it, and an identifier does not go on with it. -/
structure Catches (table : WordTable) (spellings : List String) (hidden : List Scope) (c : Char) : Prop where
  operator : Scope.operator ∈ hidden
  apart : Unicode.isIdentifier c = false
  lacks : table.pattern.Lacks c
  spells : table.Spells spellings
  listed : String.singleton c ∈ spellings
  nonempty : "" ∉ spellings

variable {table : WordTable} {spellings : List String} {hidden : List Scope} {c : Char} {source : Source}

theorem catches_iff :
    table.Catches spellings hidden c ↔
      Scope.operator ∈ hidden ∧ Unicode.isIdentifier c = false ∧ table.pattern.Lacks c ∧
        table.Spells spellings ∧ String.singleton c ∈ spellings ∧ "" ∉ spellings :=
  ⟨fun catches => ⟨catches.operator, catches.apart, catches.lacks, catches.spells, catches.listed,
    catches.nonempty⟩, fun all => ⟨all.1, all.2.1, all.2.2.1, all.2.2.2.1, all.2.2.2.2.1, all.2.2.2.2.2⟩⟩

instance : Decidable (table.Catches spellings hidden c) :=
  decidable_of_iff' _ catches_iff

/-- Where the character stands, an operator does. -/
theorem Catches.operator_stands (catches : table.Catches spellings hidden c) {place limit : Nat}
    (here : source.chars[place]? = some c) (before : place < limit) :
    (table.operators.bind (·.stop? source.chars place limit)).filter (place < ·) ≠ none := by
  have alone : (String.singleton c).toList.isPrefixOf (source.part place limit) = true := by
    rw [String.toList_singleton, source.part_cons before here]
    simp
  have some : (spellings.find? fun spelling =>
      spelling.toList.isPrefixOf (source.part place limit)).isSome = true :=
    List.find?_isSome.mpr ⟨String.singleton c, catches.listed, alone⟩
  obtain ⟨spelling, first⟩ := Option.isSome_iff_exists.mp some
  have listed := List.mem_of_find?_eq_some first
  have proper : spelling.length ≠ 0 := by
    intro empty
    rw [String.length_eq_zero_iff] at empty
    exact catches.nonempty (empty ▸ listed)
  rw [catches.spells.stop?_eq, first]
  simp [Option.filter, Nat.pos_of_ne_zero proper]

theorem anyHides_mark {sorting : Sorting} {scope : Scope} {start stop relevance place : Nat} :
    Node.AnyHides hidden place (sorting.mark scope start stop relevance).nodes ↔
      Node.AnyHides hidden place sorting.nodes ∨ scope ∈ hidden ∧ start ≤ place ∧ place < stop := by
  simp only [Sorting.mark, Node.leaf, Node.anyHides_push, Node.hides_marked, Node.not_hides_text,
    Node.anyHides_text, or_false]

theorem Catches.sortFrom (catches : table.Catches spellings hidden c) {first stop : Nat} (room : Nat) :
    ∀ {place : Nat} {sorting : Sorting}, stop - place ≤ room →
      (∀ passed, first ≤ passed → passed < place → source.chars[passed]? = some c →
        Node.AnyHides hidden passed sorting.nodes) →
      ∀ passed, first ≤ passed → passed < stop → source.chars[passed]? = some c →
        Node.AnyHides hidden passed (table.sortFrom source stop room place sorting).nodes := by
  induction room with
  | zero =>
      intro place sorting enough caught passed behind before here
      exact caught passed behind (by omega) here
  | succ room ih =>
      intro place sorting enough caught
      -- A turn that leaves no such character behind it, and keeps what has been marked, is enough.
      have turn : ∀ {next : Nat} {sorted : Sorting}, place < next →
          (∀ passed, place ≤ passed → passed < next → source.chars[passed]? = some c →
            Node.AnyHides hidden passed sorted.nodes) →
          (∀ passed, Node.AnyHides hidden passed sorting.nodes →
            Node.AnyHides hidden passed sorted.nodes) →
          ∀ passed, first ≤ passed → passed < stop → source.chars[passed]? = some c →
            Node.AnyHides hidden passed (table.sortFrom source stop room next sorted).nodes := by
        intro next sorted forth new kept
        apply ih (by omega)
        intro passed behind before here
        by_cases left : passed < place
        · exact kept passed (caught passed behind left here)
        · exact new passed (Nat.not_lt.mp left) before here
      unfold WordTable.sortFrom
      split
      · next ended =>
          intro passed behind before here
          exact caught passed behind (Nat.lt_of_lt_of_le before ended) here
      · next going =>
          have proper : place < stop := Nat.not_le.mp going
          split
          · next inside =>
              have identifier := (Bool.and_eq_true_iff.mp inside).2
              apply turn (source.skip_proper _ proper identifier) _ fun _ hides => hides
              intro passed behind before here
              have passes := source.skip_passes Unicode.isIdentifier _ behind before
              rw [here, Option.any_some, catches.apart] at passes
              exact absurd passes Bool.false_ne_true
          · split
            · next candidate found =>
                have bounds := table.lookUp_bounds source (proper_bounds source proper found).1
                have lacks := catches.lacks.stop? (Option.filter_eq_some_iff.mp found).1
                have none : ∀ passed, place ≤ passed →
                    passed < (table.lookUp source place candidate).2 → source.chars[passed]? ≠ some c :=
                  fun passed behind before => lacks passed behind (Nat.lt_of_lt_of_le before bounds.2)
                dsimp only
                split
                · apply turn bounds.1
                  · exact fun passed behind before here => absurd here (none passed behind before)
                  · exact fun passed hides => anyHides_mark.mpr (.inl hides)
                · apply turn bounds.1
                  · exact fun passed behind before here => absurd here (none passed behind before)
                  · exact fun _ hides => hides
            · split
              · next operatorStop found =>
                  apply turn (table.operator_bounds source proper found).1
                  · exact fun passed behind before _ =>
                      anyHides_mark.mpr (.inr ⟨catches.operator, behind, before⟩)
                  · exact fun passed hides => anyHides_mark.mpr (.inl hides)
              · next noOperator =>
                  apply turn (Nat.lt_succ_self place) _ fun _ hides => hides
                  intro passed behind before here
                  obtain rfl : passed = place := Nat.le_antisymm (Nat.le_of_lt_succ before) behind
                  exact absurd noOperator (catches.operator_stands here proper)

/-- Sorting marks every place of a stretch where the character stands. -/
theorem Catches.ofText (catches : table.Catches spellings hidden c) {start stop place : Nat}
    (within : start ≤ place ∧ place < stop) (here : source.chars[place]? = some c) :
    Node.AnyHides hidden place (Yield.ofText source (some table) start stop).nodes := by
  have nothing : ∀ passed, start ≤ passed → passed < start → source.chars[passed]? = some c →
      Node.AnyHides hidden passed ({ last := start } : Sorting).nodes := by
    intro passed behind before
    omega
  rw [Yield.ofText, sort, Sorting.finish]
  simp only [Node.anyHides_reverse, Node.anyHides_push, Node.not_hides_text, or_false]
  exact catches.sortFrom (stop - start) (Nat.le_refl _) nothing place within.1 within.2 here

end WordTable

namespace Highlighter

/-- The words of the language catch the character, and its rules have it in what they hide only. -/
structure Catches (highlighter : Highlighter) (spellings : List String) (hidden : List Scope) (c : Char) :
    Prop where
  words : highlighter.words.Catches spellings hidden c
  bars : highlighter.Bars hidden c

variable {highlighter : Highlighter} {spellings : List String} {hidden : List Scope} {c : Char}
  {source : Source} {scan next : Scan} {place : Nat}

/-- Where the character stands behind the scan, the place is hidden or in the pending text outside of all
containers. -/
def Caught (source : Source) (hidden : List Scope) (c : Char) (scan : Scan) : Prop :=
  ∀ place < scan.pos, source.chars[place]? = some c →
    scan.Hides hidden place ∨ scan.containers = [] ∧ scan.level.pending ≤ place

theorem pendingYield_catches (catches : highlighter.Catches spellings hidden c)
    (bare : scan.containers = []) (within : scan.level.pending ≤ place ∧ place < scan.pos)
    (here : source.chars[place]? = some c) :
    Node.AnyHides hidden place (highlighter.pendingYield source scan).nodes := by
  rw [pendingYield, wordsAt, bare]
  exact catches.words.ofText within here

/-- Inside a container everything up to any place behind the scan is hidden. -/
theorem Caught.opened (caught : Caught source hidden c scan) (bars : highlighter.Bars hidden c)
    (covered : scan.Covered) (nested : highlighter.Nested scan.containers)
    (opened : scan.containers ≠ []) (here : source.chars[place]? = some c) : scan.Hides hidden place := by
  by_cases before : place < scan.pos
  · exact (caught place before here).resolve_right fun absurdity => opened absurdity.1
  · exact opened_hides bars covered nested opened (Nat.not_lt.mp before)

theorem take_caught {found : Found} (catches : highlighter.Catches spellings hidden c)
    (ready : scan.Ready source) (caught : Caught source hidden c scan) (bare : scan.containers = [])
    (first : highlighter.firstMatch? source scan.pos (highlighter.rulesAt scan) = some found) :
    Caught source hidden c (highlighter.take source scan found) := by
  intro place before here
  rw [take_pos ready] at before
  left
  rw [take_hides ready.pending_le]
  by_cases left : place < scan.pos
  · rcases caught place left here with hides | ⟨_, pending⟩
    · exact .inl hides
    · exact .inr (.inl (pendingYield_catches catches bare ⟨pending, left⟩ here))
  · exact .inr (.inr (match_hides catches.bars bare first ⟨Nat.not_lt.mp left, before⟩ here))

theorem step_caught (catches : highlighter.Catches spellings hidden c)
    (inOrder : highlighter.TakesInOrder source) (visits : highlighter.Visits source scan)
    (caught : Caught source hidden c scan) (turned : highlighter.step source scan = .ok next) :
    Caught source hidden c next := by
  have ready := visits.reached.ready
  by_cases bare : scan.containers = []
  · rcases step_cases turned with ⟨found, first, rfl⟩ | ⟨stop, closes, rfl⟩ | rfl
    · exact take_caught catches ready caught bare first
    · obtain ⟨inner, outer, opened, _⟩ := closerStop?_opened closes
      rw [bare] at opened
      exact nomatch opened
    · intro place before here
      by_cases left : place < scan.pos
      · exact caught place left here
      · exact .inr ⟨bare, Nat.le_trans ready.pending_le (Nat.not_lt.mp left)⟩
  · intro place before here
    have covered := visits.reached.covered inOrder
    have hides := caught.opened catches.bars covered visits.reached.nested bare here
    exact .inl (step_hides ready turned before hides)

theorem Reaches.caught (catches : highlighter.Catches spellings hidden c)
    (inOrder : highlighter.TakesInOrder source) (reached : highlighter.Reaches source scan) :
    Caught source hidden c scan :=
  reached.induction (fun _ absurdity => nomatch absurdity) (step_caught catches inOrder)

/-- A run hides every place where the character stands. -/
theorem run_catches {done : Scan} (catches : highlighter.Catches spellings hidden c)
    (inOrder : highlighter.TakesInOrder source) (ran : highlighter.run source = .ok done)
    (here : source.chars[place]? = some c) : Node.AnyHides hidden place done.ground.nodes := by
  obtain ⟨inside, _⟩ := Array.getElem?_eq_some_iff.mp here
  obtain ⟨last, reached, ended, rfl⟩ := run_ok ran
  have before : place < last.pos := ended ▸ inside
  apply finish_keeps reached.ready before
  rw [flush_eq highlighter source reached.ready.pending_le, Scan.hides_pass]
  rcases reached.caught catches inOrder place before here with hides | ⟨bare, pending⟩
  · exact .inl hides
  · exact .inr (pendingYield_catches catches bare ⟨pending, before⟩ here)

/-- Wherever the character stands in a text, a region with one of the scopes holds it. -/
theorem highlight_catches {text before after : String} {result : Highlight}
    (catches : highlighter.Catches spellings hidden c)
    (inOrder : highlighter.TakesInOrder (.ofString text))
    (highlighted : highlighter.highlight text = .ok result)
    (stands : text = before ++ String.singleton c ++ after) :
    ∃ region ∈ result.regions, region.scope ∈ hidden ∧
      region.start ≤ before.utf8ByteSize ∧ before.utf8ByteSize < region.stop := by
  obtain ⟨place, holds, offset⟩ :=
    (Source.stands_iff text (String.singleton c) before.utf8ByteSize).mp ⟨before, after, stands, rfl⟩
  rw [String.toList_singleton] at holds
  have here := holdsAt_first holds
  obtain ⟨done, ran, source, nodes⟩ := highlight_ok highlighted
  obtain ⟨inside, _⟩ := Array.getElem?_eq_some_iff.mp here
  have hides : Node.AnyHides hidden place result.nodes := by
    rw [nodes, Node.anyHides_reverse]
    exact run_catches catches inOrder ran here
  rw [← offset, ← source]
  rw [← source] at inside
  exact (Highlight.anyHides_iff_regions inside).mp hides

/-! ## The texts of operators -/

end Highlighter

namespace WordTable

/-- The operators of the table, and its words with their scope, are among these. -/
structure OperatorsIn (table : WordTable) (allowed : List String) : Prop where
  spelled : ∃ spellings ⊆ allowed, table.Spells spellings
  words : ∀ vocabulary ∈ table.vocabularies, vocabulary.1 = .operator → vocabulary.2 ⊆ allowed

theorem Finds.operator_text {table : WordTable} {allowed : List String} {source : Source} {limit : Nat}
    {marking : Marking} (finds : table.Finds source limit marking) (among : table.OperatorsIn allowed)
    (isOperator : marking.scope = .operator) :
    source.slice marking.start marking.stop ∈ allowed := by
  cases finds with
  | word _ _ known =>
      obtain ⟨_, vocabulary, listed, same, member⟩ := lookUp_known known
      exact among.words vocabulary listed (same.trans isOperator) member
  | @operator start stop _ _ matched =>
      obtain ⟨spellings, subset, spells⟩ := among.spelled
      obtain ⟨spelling, listed, stands, rfl⟩ := spells.stands (Option.filter_eq_some_iff.mp matched).1
      rw [source.slice_word stands]
      exact subset listed

end WordTable

/-- Where only words are operators, each region of an operator has one of the spellings as its text. -/
theorem Highlighter.highlight_operators {highlighter : Highlighter} {allowed : List String} {text : String}
    {result : Highlight} (tables : ∀ table ∈ highlighter.tables, table.OperatorsIn allowed)
    (rules : ∀ rule ∈ highlighter.rules, Scope.operator ∉ rule.ownScopes)
    (source : result.source = .ofString text) (highlighted : highlighter.highlight text = .ok result) :
    ∀ region ∈ result.regions, region.scope = .operator → region.text ∈ allowed := by
  intro region listed isOperator
  obtain ⟨marking, member, scope, slice, _⟩ := Highlight.region_marking listed
  rw [slice, source]
  rw [scope] at isOperator
  rcases (highlight_origins highlighted marking member).word_or_rule with
    ⟨table, known, limit, finds⟩ | ⟨around, start, found, taken, given⟩
  · exact finds.operator_text (tables table known) isOperator
  · rw [isOperator] at given
    exact absurd given (rules _ (Array.mem_of_getElem? taken.listed.2.1))

end Highlighting
