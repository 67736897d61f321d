import Highlighting.Proofs.Scan.Sorting
import Highlighting.Proofs.Tree.Occurring

/-! # What sorting finds

Every mark of a sorted stretch is a word that was looked up or an operator. It starts at a place that is
not inside an identifier, and an operator is tried only where the word pattern has no match. -/
set_option autoImplicit false
namespace Highlighting.WordTable

/-- A mark that the table can make when it sorts text up to `limit`. -/
inductive Finds (table : WordTable) (source : Source) (limit : Nat) : Marking → Prop where
  | word {scope : Scope} {start stop candidate : Nat}
      (outside : insideIdentifier source start = false)
      (matched : (table.pattern.stop? source.chars start limit).filter (start < ·) = some candidate)
      (known : table.lookUp source start candidate = (some scope, stop)) :
      Finds table source limit ⟨scope, start, stop⟩
  | operator {start stop : Nat} (outside : insideIdentifier source start = false)
      (noWord : (table.pattern.stop? source.chars start limit).filter (start < ·) = none)
      (matched : (table.operators.bind (·.stop? source.chars start limit)).filter (start < ·) = some stop) :
      Finds table source limit ⟨.operator, start, stop⟩

variable {table : WordTable} {source : Source}

theorem Finds.outside {limit : Nat} {marking : Marking} (finds : table.Finds source limit marking) :
    insideIdentifier source marking.start = false := by
  cases finds <;> assumption

/-- What holds of a sorting stays true of it when each mark that is found keeps it. -/
theorem sortFrom_induction {motive : Sorting → Prop} {stop : Nat}
    (kept : ∀ {sorting : Sorting} {marking : Marking} (relevance : Nat), motive sorting →
      table.Finds source stop marking →
        motive (sorting.mark marking.scope marking.start marking.stop relevance)) (room : Nat) :
    ∀ {place : Nat} {sorting : Sorting}, motive sorting →
      motive (table.sortFrom source stop room place sorting) := by
  induction room with
  | zero => exact fun start => start
  | succ room ih =>
      intro place sorting start
      unfold sortFrom
      split
      · exact start
      · split
        · exact ih start
        · next outside =>
            have starts : insideIdentifier source place = false := eq_false_of_ne_true outside
            split
            · next candidate matched =>
                dsimp only
                split
                · next scope known =>
                    exact ih (kept _ start (.word starts matched (Prod.ext known rfl)))
                · exact ih start
            · next noWord =>
                split
                · next operatorStop matched => exact ih (kept _ start (.operator starts noWord matched))
                · exact ih start

/-- Whatever a sorted stretch has marked was found by the table. -/
theorem sort_finds {start stop : Nat} :
    ∀ marking ∈ Node.marksAll (table.sort source start stop).nodes, table.Finds source stop marking := by
  have all : ∀ marking ∈ Node.marksAll
      (table.sortFrom source stop (stop - start) start { last := start }).nodes,
        table.Finds source stop marking := by
    apply sortFrom_induction (motive := fun sorting =>
      ∀ marking ∈ Node.marksAll sorting.nodes, table.Finds source stop marking)
    · intro sorting new relevance found here marking member
      rw [Sorting.marksAll_mark] at member
      rcases List.mem_cons.mp member with rfl | earlier
      · exact here
      · exact found marking earlier
    · exact fun _ absurdity => absurd absurdity List.not_mem_nil
  intro marking member
  rw [sort, Sorting.marksAll_finish] at member
  exact all marking member

/-- What is marked in a sorted stretch is plain text inside. -/
theorem sort_leaves {start stop : Nat} :
    ∀ node ∈ (table.sort source start stop).nodes, node.IsLeaf := by
  have all : ∀ node ∈ (table.sortFrom source stop (stop - start) start { last := start }).nodes,
      node.IsLeaf := by
    apply sortFrom_induction (motive := fun sorting => ∀ node ∈ sorting.nodes, node.IsLeaf)
    · intro sorting marking relevance leaves here
      exact Node.leaves_push (Node.leaves_push leaves (.text _ _)) (.leaf _ _ _)
    · exact fun _ absurdity => absurd absurdity List.not_mem_nil
  exact Node.leaves_push all (.text _ _)

theorem leaf_mem_sort_iff {scan : Scan} {scope : Scope} {start stop first last : Nat} :
    .leaf scope first last ∈ (scan.sort source (some table) start stop).1 ↔
      ⟨scope, first, last⟩ ∈ Node.marksAll (table.sort source start stop).nodes := by
  have leaves : ∀ node ∈ (table.sort source start stop).nodes.reverse, node.IsLeaf :=
    fun node member => sort_leaves node (List.mem_reverse.mp member)
  exact (Node.leaf_mem_iff leaves).trans Node.mem_marksAll_reverse

/-! ## The scopes of a table -/

/-- The scopes that words and operators of the table can get. -/
def scopes (table : WordTable) : List Scope :=
  table.vocabularies.map (·.1) ++ if table.operators.isSome then [.operator] else []

theorem scope?_mem {word : String} {scope : Scope} (known : table.scope? word = some scope) :
    ∃ vocabulary ∈ table.vocabularies, vocabulary.1 = scope ∧ word ∈ vocabulary.2 := by
  obtain ⟨vocabulary, found, rfl⟩ := Option.map_eq_some_iff.mp known
  have contained := List.find?_some found
  exact ⟨vocabulary, List.mem_of_find?_eq_some found, rfl, List.contains_iff_mem.mp contained⟩

/-- A word that is looked up is the candidate, or the candidate without its exclamation mark, and a
vocabulary of its scope has it. -/
theorem lookUp_known {start candidate stop : Nat} {scope : Scope}
    (known : table.lookUp source start candidate = (some scope, stop)) :
    (stop = candidate ∨ stop + 1 = candidate ∧ source.chars[stop]? = some '!') ∧
      ∃ vocabulary ∈ table.vocabularies,
        vocabulary.1 = scope ∧ source.slice start stop ∈ vocabulary.2 := by
  unfold lookUp at known
  split at known
  · next whole =>
      cases known
      exact ⟨.inl rfl, scope?_mem whole⟩
  · split at known
    · next marked =>
        obtain ⟨long, mark⟩ := Bool.and_eq_true_iff.mp marked
        obtain ⟨found, rfl⟩ := Prod.mk.inj known
        have longer := of_decide_eq_true long
        exact ⟨.inr ⟨by omega, eq_of_beq mark⟩, scope?_mem found⟩
    · exact nomatch (Prod.mk.inj known).1

theorem Finds.scope_mem {limit : Nat} {marking : Marking} (finds : table.Finds source limit marking) :
    marking.scope ∈ table.scopes := by
  cases finds with
  | word _ _ known =>
      obtain ⟨_, vocabulary, listed, rfl, _⟩ := lookUp_known known
      exact List.mem_append_left _ (List.mem_map_of_mem listed)
  | operator _ _ matched =>
      obtain ⟨found, _⟩ := Option.filter_eq_some_iff.mp matched
      obtain ⟨program, some, _⟩ := Option.bind_eq_some_iff.mp found
      rw [scopes, some]
      exact List.mem_append_right _ List.mem_cons_self

end Highlighting.WordTable
