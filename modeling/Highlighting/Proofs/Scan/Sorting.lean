import Highlighting.Pattern.Bounds
import Highlighting.Proofs.Tree.Marks
import Highlighting.Proofs.Tree.Tiling
import Highlighting.Scan.Words

/-! # Sorted text fills its range

Every turn of the sorting moves on and stays inside the range, and what it marks lies between the last
mark and the place where it goes on. So the nodes of a sorted range fill it. -/
set_option autoImplicit false
namespace Highlighting

theorem Source.skip_bounds (source : Source) (test : Char → Bool) {stop : Nat} (room : Nat) :
    ∀ {place : Nat}, place ≤ stop →
      place ≤ source.skip test stop room place ∧ source.skip test stop room place ≤ stop := by
  induction room with
  | zero => intro place inside; exact ⟨Nat.le_refl place, inside⟩
  | succ room ih =>
      intro place inside
      unfold Source.skip
      split
      · next more =>
          have before : place < stop := of_decide_eq_true (Bool.and_eq_true_iff.mp more).1
          obtain ⟨after, within⟩ := ih (Nat.succ_le_of_lt before)
          exact ⟨Nat.le_trans (Nat.le_succ place) after, within⟩
      · exact ⟨Nat.le_refl place, inside⟩

namespace Sorting

@[simp] theorem marksAll_mark (sorting : Sorting) (scope : Scope) (start stop relevance : Nat) :
    Node.marksAll (sorting.mark scope start stop relevance).nodes =
      ⟨scope, start, stop⟩ :: Node.marksAll sorting.nodes := by
  rw [mark, Node.marksAll_push, Node.marksAll_push]
  rfl

@[simp] theorem marksAll_finish (sorting : Sorting) (stop : Nat) :
    Node.marksAll (sorting.finish stop).nodes = Node.marksAll sorting.nodes :=
  Node.marksAll_push sorting.nodes (.text sorting.last stop)

/-- The nodes fill the text from `first` to the last mark, which is not beyond `place`. -/
structure Filled (first place : Nat) (sorting : Sorting) : Prop where
  fills : Node.Fills first sorting.last sorting.nodes.reverse
  last_le : sorting.last ≤ place

variable {first place : Nat} {sorting : Sorting}

theorem Filled.later (filled : sorting.Filled first place) {later : Nat} (ordered : place ≤ later) :
    sorting.Filled first later :=
  ⟨filled.fills, Nat.le_trans filled.last_le ordered⟩

theorem Filled.mark (filled : sorting.Filled first place) {stop : Nat} (proper : place < stop)
    (scope : Scope) (relevance : Nat) :
    (sorting.mark scope place stop relevance).Filled first stop := by
  refine ⟨?_, Nat.le_refl stop⟩
  have before : Node.Fills first place
      (Node.push sorting.nodes (.text sorting.last place)).reverse :=
    Node.fills_text filled.fills filled.last_le
  exact Node.fills_push before (Node.leaf_sound proper scope).addable

theorem Filled.finish (filled : sorting.Filled first place) :
    Node.Fills first place (sorting.finish place).nodes.reverse :=
  Node.fills_text filled.fills filled.last_le

end Sorting

namespace WordTable
variable (table : WordTable) (source : Source)

theorem lookUp_bounds {start stop : Nat} (proper : start < stop) :
    start < (table.lookUp source start stop).2 ∧ (table.lookUp source start stop).2 ≤ stop := by
  unfold lookUp
  split
  · exact ⟨proper, Nat.le_refl stop⟩
  · split
    · next long =>
        have := (Bool.and_eq_true_iff.mp long).1
        have : 1 < stop - start := of_decide_eq_true this
        exact ⟨by omega, Nat.sub_le stop 1⟩
    · exact ⟨proper, Nat.le_refl stop⟩

theorem proper_bounds {program : Program} {place stop candidate : Nat} (inside : place < stop)
    (found : (program.stop? source.chars place stop).filter (place < ·) = some candidate) :
    place < candidate ∧ candidate ≤ stop := by
  obtain ⟨ends, proper⟩ := Option.filter_eq_some_iff.mp found
  have within := Program.stop?_within ends
  rw [Nat.max_eq_right (Nat.le_of_lt inside)] at within
  exact ⟨of_decide_eq_true proper, within.2⟩

theorem operator_bounds {place stop operatorStop : Nat} (inside : place < stop)
    (found : (table.operators.bind (·.stop? source.chars place stop)).filter (place < ·) =
      some operatorStop) : place < operatorStop ∧ operatorStop ≤ stop := by
  obtain ⟨ends, beyond⟩ := Option.filter_eq_some_iff.mp found
  obtain ⟨program, _, ends⟩ := Option.bind_eq_some_iff.mp ends
  exact proper_bounds source inside (Option.filter_eq_some_iff.mpr ⟨ends, beyond⟩)

theorem sortFrom_filled {first stop : Nat} :
    ∀ (room place : Nat) (sorting : Sorting), place ≤ stop → sorting.Filled first place →
      (table.sortFrom source stop room place sorting).Filled first stop := by
  intro room
  induction room with
  | zero => intro place sorting inside filled; exact filled.later inside
  | succ room ih =>
      intro place sorting inside filled
      unfold sortFrom
      split
      · exact filled.later inside
      · next before =>
          have proper : place < stop := Nat.not_le.mp before
          split
          · have skipped := source.skip_bounds Unicode.isIdentifier (stop - place) inside
            exact ih _ _ skipped.2 (filled.later skipped.1)
          · split
            · next candidate found =>
                have bounds := proper_bounds source proper found
                have word := table.lookUp_bounds source bounds.1
                have ends : (table.lookUp source place candidate).2 ≤ stop := by omega
                dsimp only
                split
                · exact ih _ _ ends (filled.mark word.1 _ _)
                · exact ih _ _ ends (filled.later (Nat.le_of_lt word.1))
            · split
              · next operatorStop found =>
                  have bounds := table.operator_bounds source proper found
                  exact ih _ _ bounds.2 (filled.mark bounds.1 _ _)
              · exact ih _ _ proper (filled.later (Nat.le_succ place))

/-- The nodes of a sorted range fill it. -/
theorem sort_fills {start stop : Nat} (ordered : start ≤ stop) :
    Node.Fills start stop (table.sort source start stop).nodes.reverse :=
  (table.sortFrom_filled source (stop - start) start _ ordered
    ⟨Node.Fills.nil start, Nat.le_refl start⟩).finish

end WordTable

end Highlighting
