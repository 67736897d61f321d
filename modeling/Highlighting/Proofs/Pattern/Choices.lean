import Highlighting.Proofs.Pattern.Literal
import Highlighting.Proofs.Pattern.Runs

/-! # What patterns take of a text

The preferred way of a pattern, told by what it takes of the text that is left and what is left behind
that. One rule for each kind of pattern follows the choices of a pattern along a text: the way of a
sequence is put together from those of its parts, and a choice falls on the first part that has a way. -/
set_option autoImplicit false
namespace Highlighting.Pattern

/-- In front of `rest`, the pattern prefers to take `taken`; `marks` are those that it sets from a place
on. -/
def Prefers (p : Pattern) (taken rest : List Char) (marks : Nat → List Mark) : Prop :=
  ∀ (source : Source) (m : Match), m.stop ≤ source.size →
    source.part m.stop source.size = taken ++ rest →
    (p.ways source.chars source.size m).head? =
      some ⟨m.stop + taken.length, marks m.stop ++ m.marks⟩

/-- The pattern has no way to go on in front of the text. -/
def Declines (p : Pattern) (left : List Char) : Prop :=
  ∀ (source : Source) (m : Match), m.stop ≤ source.size → source.part m.stop source.size = left →
    p.ways source.chars source.size m = []

/-- In front of the text, every way of the pattern leaves something of this kind. -/
def Leaves (p : Pattern) (left : List Char) (behind : List Char → Prop) : Prop :=
  ∀ (source : Source) (m : Match), m.stop ≤ source.size → source.part m.stop source.size = left →
    ∀ k ∈ p.ways source.chars source.size m,
      k.stop ≤ source.size ∧ behind (source.part k.stop source.size)

variable {p q body : Pattern} {taken first second left rest : List Char} {marks others : Nat → List Mark}
  {set : CharSet} {c : Char} {between behind : List Char → Prop}

/-! ## Where there is no way -/

namespace Declines

theorem char (missing : rest.head?.any set.contains = false) : (char set).Declines rest := by
  intro source m _ left
  have stays : ¬ (m.stop < source.size ∧ source.chars[m.stop]?.any set.contains = true) := by
    rintro ⟨inside, member⟩
    rw [← source.part_head? inside, left, missing] at member
    exact Bool.false_ne_true member
  rw [ways, if_neg stays]

theorem several (missing : rest.head?.any set.contains = false) :
    (rounds 1 none true (.char set)).Declines rest := by
  intro source m inside left
  rw [ways_several_eq_nil]
  rw [← source.part_head?_size inside, left, missing]

theorem seq (declines : p.Declines rest) : (p.seq q).Declines rest := by
  intro source m inside left
  rw [ways, declines source m inside left, List.flatMap_nil]

theorem alt (declines : p.Declines rest) (also : q.Declines rest) : (p.alt q).Declines rest := by
  intro source m inside left
  rw [ways, declines source m inside left, also source m inside left, List.append_nil]

theorem capture {number : Nat} {name : Option String} (declines : body.Declines rest) :
    (capture number name body).Declines rest := by
  intro source m inside left
  rw [ways, declines source ⟨m.stop, ⟨number, true, m.stop⟩  :: m.marks⟩ inside left, List.map_nil]

theorem literals {spellings : List String}
    (missing : ∀ spelling ∈ spellings, spelling.toList.isPrefixOf rest = false) :
    (alts (spellings.map fun spelling => literal spelling.toList)).Declines rest := by
  intro source m _ left
  have none : (spellings.find? fun spelling => spelling.toList.isPrefixOf rest) = none := by
    simpa only [List.find?_eq_none, Bool.not_eq_true] using missing
  rw [← List.head?_eq_none_iff, head?_ways_literals, left, none, Option.map_none]

end Declines

/-! ## What all ways leave -/

namespace Leaves

theorem char : (char set).Leaves (c :: rest) (· = rest) := by
  intro source m _ left k way
  obtain ⟨_, before, behind⟩ := Source.left_eq_cons left
  rw [ways] at way
  split at way
  · obtain rfl := List.mem_singleton.mp way
    exact ⟨before, behind⟩
  · exact absurd way List.not_mem_nil

theorem check (assertion : Assertion) : (check assertion).Leaves left (· = left) := by
  intro source m inside same k way
  rw [ways] at way
  split at way
  · obtain rfl := List.mem_singleton.mp way
    exact ⟨inside, same⟩
  · exact absurd way List.not_mem_nil

theorem literal (chars : List Char) : (literal chars).Leaves (chars ++ rest) (· = rest) := by
  intro source m inside left k way
  obtain ⟨within, _, behind⟩ := source.part_of_append inside (Nat.le_refl _) left.symm
  rw [ways_literal, left, if_pos (List.prefix_append _ _)] at way
  obtain rfl := List.mem_singleton.mp way
  exact ⟨within, behind⟩

theorem seq (leaves : p.Leaves left between) (also : ∀ text, between text → q.Leaves text behind) :
    (p.seq q).Leaves left behind := by
  intro source m inside same k way
  obtain ⟨middle, first, second⟩ := List.mem_flatMap.mp way
  obtain ⟨within, holds⟩ := leaves source m inside same middle first
  exact also _ holds source middle within rfl k second

theorem capture {number : Nat} {name : Option String} (leaves : body.Leaves left behind) :
    (capture number name body).Leaves left behind := by
  intro source m inside same k way
  obtain ⟨last, within, rfl⟩ := List.mem_map.mp way
  exact leaves source ⟨m.stop, ⟨number, true, m.stop⟩ :: m.marks⟩ inside same last within

/-- A run may stop early, and then it leaves characters of the set. -/
theorem run {least : Nat} (ends : rest.head?.any set.contains = false) :
    (rounds least none true (.char set)).Leaves (taken ++ rest) fun text =>
      ∃ more, more <:+ taken ∧ text = more ++ rest := by
  intro source m inside left k way
  obtain ⟨within, _, behind⟩ := source.part_of_append inside (Nat.le_refl _) left.symm
  obtain ⟨_, forth, each⟩ := mem_ways_run way
  have stops : k.stop ≤ m.stop + taken.length := by
    rw [← Nat.not_lt]
    intro beyond
    have inSet := each _ (Nat.le_add_right _ _) beyond
    rw [← source.part_head?_size within, behind, ends] at inSet
    exact Bool.false_ne_true inSet
  obtain ⟨count, passed⟩ := Nat.exists_eq_add_of_le forth
  have few : count ≤ taken.length := by omega
  refine ⟨Nat.le_trans stops within, taken.drop count, List.drop_suffix _ _, ?_⟩
  rw [passed, ← source.left_drop, left, List.drop_append_of_le_length few]

end Leaves

/-- A sequence has no way if its second part has none behind any way of the first. -/
theorem Declines.seqBehind (leaves : p.Leaves left between)
    (declines : ∀ text, between text → q.Declines text) : (p.seq q).Declines left := by
  intro source m inside same
  rw [ways, List.flatMap_eq_nil_iff]
  intro k way
  obtain ⟨within, holds⟩ := leaves source m inside same k way
  exact declines _ holds source k within rfl

/-! ## The preferred way -/

namespace Prefers

theorem char (member : set.contains c = true) : (char set).Prefers [c] rest fun _ => [] := by
  intro source m inside left
  obtain ⟨here, before, _⟩ := Source.left_eq_cons left
  have taken : source.chars[m.stop]?.any set.contains = true := by
    rw [here]
    exact member
  rw [ways, if_pos ⟨before, taken⟩]
  rfl

theorem single (c : Char) : (Pattern.char (.single c)).Prefers [c] rest fun _ => [] :=
  .char (by rw [CharSet.contains_single, beq_self_eq_true])

theorem literal (chars : List Char) : (literal chars).Prefers chars rest fun _ => [] := by
  intro source m _ left
  rw [ways_literal, left, if_pos (List.prefix_append _ _)]
  rfl

theorem seq (prefers : p.Prefers first (second ++ rest) marks) (also : q.Prefers second rest others) :
    (p.seq q).Prefers (first ++ second) rest fun place =>
      others (place + first.length) ++ marks place := by
  intro source m inside left
  rw [List.append_assoc] at left
  obtain ⟨within, _, behind⟩ := source.part_of_append inside (Nat.le_refl _) left.symm
  have before := prefers source m inside left
  have after := also source ⟨m.stop + first.length, marks m.stop ++ m.marks⟩ within behind
  rw [ways, head?_flatMap_of_head? before after, List.length_append, Nat.add_assoc, List.append_assoc]

theorem altLeft (prefers : p.Prefers taken rest marks) : (p.alt q).Prefers taken rest marks := by
  intro source m inside left
  rw [ways, List.head?_append, prefers source m inside left]
  rfl

theorem altRight (declines : p.Declines (taken ++ rest)) (prefers : q.Prefers taken rest marks) :
    (p.alt q).Prefers taken rest marks := by
  intro source m inside left
  rw [ways, declines source m inside left]
  exact prefers source m inside left

theorem capture {number : Nat} {name : Option String} (prefers : body.Prefers taken rest marks) :
    (capture number name body).Prefers taken rest fun place =>
      ⟨number, false, place + taken.length⟩ :: (marks place ++ [⟨number, true, place⟩]) := by
  intro source m inside left
  have within := prefers source ⟨m.stop, ⟨number, true, m.stop⟩ :: m.marks⟩ inside left
  rw [ways, List.head?_map, within, Option.map_some, List.cons_append, List.append_assoc]
  rfl

/-! ## Loops -/

theorem ways_maybe (text : Array Char) (limit : Nat) (m : Match) :
    (rounds 0 (some 1) true body).ways text limit m = body.ways text limit m ++ [m] := by
  have once : (rounds 0 (some 1) true body).ways text limit m =
      Ways.upTo true (body.ways text limit) 1 m :=
    List.flatMap_singleton _ m
  rw [once, Ways.upTo, Ways.orElse, if_pos rfl, Ways.flatMap_upTo_zero]

/-- What may be there is taken if it is there. -/
theorem present (prefers : body.Prefers taken rest marks) :
    (rounds 0 (some 1) true body).Prefers taken rest marks := by
  intro source m inside left
  rw [ways_maybe, List.head?_append, prefers source m inside left]
  rfl

theorem absent (declines : body.Declines rest) :
    (rounds 0 (some 1) true body).Prefers [] rest fun _ => [] := by
  intro source m inside left
  rw [ways_maybe, declines source m inside left]
  rfl

section Run
variable (each : ∀ c ∈ taken, set.contains c = true) (ends : rest.head?.any set.contains = false)
include each ends

/-- A run of characters of the set goes as far as the text has them. -/
theorem run_of_left {source : Source} {place : Nat} (inside : place ≤ source.size)
    (left : source.part place source.size = taken ++ rest) :
    place + taken.length ≤ source.size ∧
      source.chars[place + taken.length]?.any set.contains = false ∧
      ∀ passed, place ≤ passed → passed < place + taken.length →
        source.chars[passed]?.any set.contains = true := by
  obtain ⟨within, _, behind⟩ := source.part_of_append inside (Nat.le_refl _) left.symm
  have stands : source.holdsAt taken place = true := by
    rw [source.holdsAt_iff_part, left]
    exact List.prefix_append _ _
  refine ⟨within, ?_, fun passed after before => ?_⟩
  · rw [← source.part_head?_size within, behind]
    exact ends
  · obtain ⟨c, member, here⟩ := source.char_of_stands stands after before
    rw [here]
    exact each c member

theorem many : (rounds 0 none true (.char set)).Prefers taken rest fun _ => [] := by
  intro source m inside left
  obtain ⟨within, stops, passes⟩ := run_of_left each ends inside left
  exact head?_ways_many within stops (Nat.le_add_right _ _) passes

theorem several (nonempty : taken ≠ []) :
    (rounds 1 none true (.char set)).Prefers taken rest fun _ => [] := by
  intro source m inside left
  obtain ⟨within, stops, passes⟩ := run_of_left each ends inside left
  have proper := List.length_pos_iff.mpr nonempty
  exact head?_ways_several within stops (by omega) passes

end Run

/-- Of several literals the first one that the text starts with is taken. -/
theorem literals {spellings : List String} {spelling : String}
    (found : (spellings.find? fun spelling => spelling.toList.isPrefixOf (taken ++ rest)) = some spelling)
    (same : spelling.toList = taken) :
    (alts (spellings.map fun spelling => Pattern.literal spelling.toList)).Prefers taken rest fun _ => [] := by
  intro source m inside left
  rw [head?_ways_literals, left, found, ← same, String.length_toList]
  rfl

end Prefers

end Highlighting.Pattern
