import Mathlib.Algebra.GroupWithZero.Nat
import Highlighting.Proofs.Scan.Coverage
import Highlighting.Proofs.Tree.Marks

/-! # What stretches account for

Whatever a stretch of the source yields can be told from the matches that were taken in it, the words
that were found in it and the ranges that were marked besides. A stretch of two parts accounts for what
both account for. -/
set_option autoImplicit false
namespace Highlighting

/-- A word counts unless it is an operator or common to many languages. -/
def Marking.Counts (source : Source) (word : Marking) : Prop :=
  word.scope ≠ .operator ∧ source.slice word.start word.stop ∉ commonWords

instance (source : Source) (word : Marking) : Decidable (word.Counts source) :=
  inferInstanceAs (Decidable (_ ∧ _))

/-! ## Words -/

namespace WordTable
variable (table : WordTable) (source : Source)

theorem worth_eq (scope : Scope) (start stop : Nat) :
    worth source scope start stop = if Marking.Counts source ⟨scope, start, stop⟩ then 1 else 0 := by
  simp only [worth, Marking.Counts, ne_eq, ← not_or, ite_not]

/-- The words that are found in a stretch, in order. -/
def found (start stop : Nat) : List Marking :=
  Node.marksAll (table.sort source start stop).nodes.reverse

end WordTable

/-- The words of a stretch. Without a table there are none. -/
def foundIn (source : Source) (table : Option WordTable) (start stop : Nat) : List Marking :=
  match table with
  | none => []
  | some table => table.found source start stop

/-- Every mark of what has been sorted was counted once. -/
structure Sorting.Tallied (source : Source) (sorting : Sorting) : Prop where
  hits : sorting.hits = (Node.marksAll sorting.nodes).length
  relevance : sorting.relevance = (Node.marksAll sorting.nodes).countP (Marking.Counts source ·)

namespace Sorting
variable {source : Source} {sorting : Sorting}

theorem Tallied.mark (tallied : sorting.Tallied source) {scope : Scope} {start stop relevance : Nat}
    (worth : relevance = if Marking.Counts source ⟨scope, start, stop⟩ then 1 else 0) :
    (sorting.mark scope start stop relevance).Tallied source := by
  constructor
  case hits => rw [marksAll_mark, List.length_cons, ← tallied.hits, Sorting.mark]
  case relevance =>
    rw [marksAll_mark, List.countP_cons, ← tallied.relevance, Sorting.mark, worth]
    simp only [decide_eq_true_eq]

theorem Tallied.finish (tallied : sorting.Tallied source) (stop : Nat) :
    (sorting.finish stop).Tallied source := by
  constructor
  case hits => rw [marksAll_finish, ← tallied.hits, Sorting.finish]
  case relevance => rw [marksAll_finish, ← tallied.relevance, Sorting.finish]

end Sorting

namespace WordTable
variable (table : WordTable) (source : Source)

theorem sortFrom_tallied {stop : Nat} :
    ∀ (room place : Nat) (sorting : Sorting), sorting.Tallied source →
      (table.sortFrom source stop room place sorting).Tallied source := by
  intro room
  induction room with
  | zero => exact fun _ _ tallied => tallied
  | succ room ih =>
      intro place sorting tallied
      unfold sortFrom
      split
      · exact tallied
      · split
        · exact ih _ _ tallied
        · split
          · next candidate found =>
              dsimp only
              split
              · exact ih _ _ (tallied.mark (worth_eq source _ _ _))
              · exact ih _ _ tallied
          · split
            · -- An operator is found by its spelling and counts nothing.
              exact ih _ _ (tallied.mark (if_neg fun counts => counts.1 rfl).symm)
            · exact ih _ _ tallied

theorem sort_tallied (start stop : Nat) : (table.sort source start stop).Tallied source :=
  (table.sortFrom_tallied source (stop - start) start _ ⟨rfl, rfl⟩).finish stop

end WordTable

/-! ## Matches -/

namespace Part

/-- The parts that are marked: they have a scope and are not empty. -/
def marks (parts : List Part) : List Marking :=
  parts.flatMap fun part => if part.Proper then Marking.ofScope part.scope part.start part.stop else []

/-- The words in the parts that have no scope. -/
def words (source : Source) (table : Option WordTable) (parts : List Part) : List Marking :=
  parts.flatMap fun part =>
    if part.Proper ∧ part.scope = none then foundIn source table part.start part.stop else []

theorem length_marks (parts : List Part) :
    (marks parts).length = parts.countP fun part => part.Proper ∧ part.scope.isSome := by
  induction parts with
  | nil => rfl
  | cons part rest ih =>
      rw [marks, List.flatMap_cons, List.length_append, ← marks, ih, List.countP_cons, Nat.add_comm]
      congr 1
      by_cases proper : part.Proper
      · cases part.scope <;> simp [proper, Marking.ofScope]
      · simp [proper]

end Part

namespace Found

/-- Whether the match as a whole has a scope. -/
def isMarked : Found → Bool
  | .single _ rule _ => rule.scope.isSome
  | .parts _ _ _ _ => false
  | .container _ rule _ => rule.scope.isSome

/-- How many parts of the match are marked. -/
def markedParts (found : Found) : Nat :=
  found.pieces.countP fun part => part.Proper ∧ part.scope.isSome

/-- What is marked when the match is taken. A container is marked once it closes. -/
def marks (start : Nat) : Found → List Marking
  | .single _ rule stop => Marking.ofScope rule.scope start stop
  | .parts _ _ _ located => Part.marks located
  | .container _ _ _ => []

/-- The words that are found when the match is taken. Parts are sorted with the words around them. -/
def words (source : Source) (around : Option WordTable) (start : Nat) : Found → List Marking
  | .single _ rule stop => foundIn source rule.words start stop
  | .parts _ _ _ located => Part.words source around located
  | .container _ _ _ => []

end Found

namespace Yield

/-- The matches, the words and the other marks account for everything in the yield. -/
structure Accounts (source : Source) (taken : List Found) (words marks : List Marking) (yield : Yield) :
    Prop where
  matched : yield.stats.ruleMatches = taken.length
  hits : yield.stats.keywordHits = words.length
  relevance : yield.relevance =
    (taken.map (·.relevance)).sum + words.countP (Marking.Counts source ·)
  marked : (Node.marksAll yield.nodes).Perm (words ++ marks)

/-- Yields that differ only in where their marks stand. -/
structure Alike (left right : Yield) : Prop where
  relevance : left.relevance = right.relevance
  stats : left.stats = right.stats
  marked : (Node.marksAll left.nodes).Perm (Node.marksAll right.nodes)

variable {source : Source} {left right yield : Yield} {taken takenRight : List Found}
  {words wordsRight marks marksRight : List Marking}

theorem Accounts.of_alike (accounts : right.Accounts source taken words marks)
    (alike : left.Alike right) : left.Accounts source taken words marks where
  matched := alike.stats ▸ accounts.matched
  hits := alike.stats ▸ accounts.hits
  relevance := alike.relevance ▸ accounts.relevance
  marked := alike.marked.trans accounts.marked

theorem Accounts.of_perm (accounts : yield.Accounts source taken words marks)
    (sameTaken : taken.Perm takenRight) (sameMarks : marks.Perm marksRight) :
    yield.Accounts source takenRight words marksRight where
  matched := sameTaken.length_eq ▸ accounts.matched
  hits := accounts.hits
  relevance := (sameTaken.map (·.relevance)).sum_nat ▸ accounts.relevance
  marked := accounts.marked.trans (sameMarks.append_left words)

theorem Accounts.append (before : left.Accounts source taken words marks)
    (behind : right.Accounts source takenRight wordsRight marksRight) :
    (left ++ right).Accounts source (taken ++ takenRight) (words ++ wordsRight)
      (marks ++ marksRight) where
  matched := by
    rw [append_def, Stats.add_def, List.length_append, ← before.matched, ← behind.matched]
  hits := by
    rw [append_def, Stats.add_def, List.length_append, ← before.hits, ← behind.hits]
  relevance := by
    rw [append_def, List.map_append, List.sum_append, List.countP_append]
    have left := before.relevance
    have right := behind.relevance
    dsimp only
    omega
  marked := by
    have joined := before.marked.append behind.marked
    rw [append_def, Node.marksAll_append]
    refine joined.trans ?_
    rw [List.append_assoc, List.append_assoc]
    exact (List.perm_append_comm_assoc marks wordsRight marksRight).append_left words

/-- Nodes for which nothing was counted account for their own marks. -/
theorem accounts_nodes (source : Source) (nodes : List Node) :
    ({ nodes } : Yield).Accounts source [] [] (Node.marksAll nodes) :=
  ⟨rfl, rfl, rfl, .refl _⟩

theorem accounts_ofMatch (source : Source) (found : Found) : (ofMatch found.relevance).Accounts source [found] [] [] :=
  ⟨rfl, rfl, rfl, .refl _⟩

theorem accounts_ofText (source : Source) (table : Option WordTable) (start stop : Nat) :
    (ofText source table start stop).Accounts source [] (foundIn source table start stop) [] := by
  cases table with
  | none => exact ⟨rfl, rfl, rfl, .refl _⟩
  | some table =>
      have tallied := table.sort_tallied source start stop
      have order := Node.marksAll_reverse (table.sort source start stop).nodes
      constructor
      case matched => rfl
      case hits => exact tallied.hits.trans order.length_eq.symm
      case relevance =>
        rw [List.map_nil, List.sum_nil, Nat.zero_add]
        exact tallied.relevance.trans (order.countP_eq _).symm
      case marked =>
        rw [List.append_nil]
        exact .refl _

theorem marksAll_wrapped (scope : Option Scope) (start stop : Nat) (nodes : List Node) :
    Node.marksAll (wrapped scope start stop nodes) =
      Marking.ofScope scope start stop ++ Node.marksAll nodes := by
  cases scope with
  | none => rfl
  | some scope =>
      rw [wrapped, Node.marksAll, Node.marks, Node.marksAll, List.append_nil]
      rfl

theorem accounts_ofSingle (source : Source) (index : Nat) (rule : SingleRule) (start stop : Nat) :
    (ofSingle source rule start stop).Accounts source [.single index rule stop]
      (foundIn source rule.words start stop) (Marking.ofScope rule.scope start stop) := by
  have text := accounts_ofText source rule.words start stop
  have sorted : ({ ofText source rule.words start stop with
      nodes := wrapped rule.scope start stop (ofText source rule.words start stop).nodes } :
        Yield).Accounts source [] (foundIn source rule.words start stop)
          (Marking.ofScope rule.scope start stop) := by
    constructor
    case matched => exact text.matched
    case hits => exact text.hits
    case relevance => exact text.relevance
    case marked =>
      have inside := text.marked
      rw [List.append_nil] at inside
      rw [marksAll_wrapped]
      exact (inside.append_left _).trans List.perm_append_comm
  exact (accounts_ofMatch source (.single index rule stop)).append sorted

theorem accounts_ofParts (source : Source) (table : Option WordTable) (stop : Nat) {parts : List Part} :
    ∀ {last : Nat}, (ofParts source table stop last parts).Accounts source []
      (Part.words source table parts) (Part.marks parts) := by
  induction parts with
  | nil => exact fun {last} => accounts_nodes source [.text last stop]
  | cons part rest ih =>
      intro last
      rw [ofParts, Part.words, Part.marks, List.flatMap_cons, List.flatMap_cons, ← Part.words,
        ← Part.marks]
      by_cases empty : part.stop ≤ part.start
      · have improper : ¬ part.Proper := Nat.not_lt.mpr empty
        rw [if_pos empty, if_neg improper, if_neg fun both => improper both.1]
        exact ih
      · have proper : part.Proper := Nat.not_le.mp empty
        have gap := accounts_nodes source [.text last part.start]
        rw [if_neg empty, if_pos proper]
        cases part.scope with
        | some scope =>
            rw [if_neg (by simp)]
            exact (gap.append (accounts_nodes source [.leaf scope part.start part.stop])).append ih
        | none =>
            rw [if_pos ⟨proper, rfl⟩]
            exact (gap.append (accounts_ofText source table part.start part.stop)).append ih

end Yield

theorem Highlighter.accounts_matchYield (highlighter : Highlighter) (source : Source) (scan : Scan)
    (found : Found) :
    (highlighter.matchYield source scan found).Accounts source [found]
      (found.words source (highlighter.wordsAt scan) scan.pos) (found.marks scan.pos) := by
  cases found with
  | single index rule stop => exact Yield.accounts_ofSingle source index rule scan.pos stop
  | parts index rule stop located =>
      exact (Yield.accounts_ofMatch source (.parts index rule stop located)).append
        (Yield.accounts_ofParts source (highlighter.wordsAt scan) stop)
  | container index rule stop => exact Yield.accounts_ofMatch source (.container index rule stop)

end Highlighting
