import Mathlib.Data.List.Nodup
import Highlighting.Proofs.Pattern.Charts
import Highlighting.Proofs.Scan.Coverage

/-! # Parts in a line

When the groups of the parts stand one behind the other in the pattern, each marked once, a match has its
parts in order, whatever it took. A language with no other rules of parts covers every source. -/
set_option autoImplicit false
namespace Highlighting

namespace Match
variable {stop number : Nat} {marks : List Mark}

theorem group?_skip {mark : Mark} (other : mark.number ≠ number) :
    group? ⟨stop, mark :: marks⟩ number = group? ⟨stop, marks⟩ number := by
  simp [group?, other]

/-- A group that has just closed took what is between its last two marks. -/
theorem group?_closed (first last : Nat) :
    group? ⟨stop, ⟨number, false, last⟩ :: ⟨number, true, first⟩ :: marks⟩ number =
      some ⟨first, last⟩ := by
  simp [group?]

theorem group?_stop_marked {group : Group} (took : group? ⟨stop, marks⟩ number = some group) :
    ∃ mark ∈ marks, mark.place = group.stop := by
  unfold group? at took
  split at took
  · exact nomatch took
  · next last earlier ended =>
      obtain ⟨first, _, rfl⟩ := Option.map_eq_some_iff.mp took
      have kept : (last :: earlier).Sublist marks := ended ▸ List.dropWhile_sublist _
      exact ⟨last, kept.subset List.mem_cons_self, rfl⟩

end Match

/-- The ends of groups that follow each other, the latest first. -/
def GroupEnd.line : List Nat → List GroupEnd
  | [] => []
  | number :: earlier => ⟨number, false⟩ :: ⟨number, true⟩ :: line earlier

theorem groups_ascending (stop : Nat) {tail : List GroupEnd} {numbers : List Nat} :
    ∀ {marks : List Mark}, marks.map Mark.groupEnd = GroupEnd.line numbers ++ tail →
      (marks.Pairwise fun later earlier => earlier.place ≤ later.place) → numbers.Nodup →
        numbers.Pairwise fun later earlier =>
          ∀ behind ∈ Match.group? ⟨stop, marks⟩ later, ∀ before ∈ Match.group? ⟨stop, marks⟩ earlier,
            before.stop ≤ behind.start := by
  induction numbers with
  | nil => intro marks _ _ _; exact .nil
  | cons number earlier ih =>
      intro marks ends falling distinct
      obtain ⟨new, others⟩ := List.nodup_cons.mp distinct
      obtain ⟨⟨closing, isClosing, last⟩, rest, rfl, closes, behind⟩ := List.map_eq_cons_iff.mp ends
      obtain ⟨⟨opening, isOpening, first⟩, older, rfl, opens, before⟩ := List.map_eq_cons_iff.mp behind
      obtain ⟨rfl, rfl⟩ := GroupEnd.mk.inj closes
      obtain ⟨rfl, rfl⟩ := GroupEnd.mk.inj opens
      have falls := List.pairwise_cons.mp (List.pairwise_cons.mp falling).2
      have skip : ∀ other ∈ earlier,
          Match.group? ⟨stop, ⟨opening, false, last⟩ :: ⟨opening, true, first⟩ :: older⟩ other =
            Match.group? ⟨stop, older⟩ other := by
        intro other member
        have different : opening ≠ other := by
          rintro rfl
          exact new member
        rw [Match.group?_skip different, Match.group?_skip different]
      refine List.pairwise_cons.mpr ⟨?_, ?_⟩
      · -- The latest group opened behind every mark of the groups before it.
        intro other member here closed sooner took
        rw [Match.group?_closed] at closed
        cases closed
        rw [skip other member] at took
        obtain ⟨mark, marked, ended⟩ := Match.group?_stop_marked took
        rw [← ended]
        exact falls.1 mark marked
      · refine (ih before falls.2 others).imp_of_mem ?_
        intro later sooner memberLater memberSooner ascending
        rw [skip later memberLater, skip sooner memberSooner]
        exact ascending

namespace PartsRule

def numbers (rule : PartsRule) : List Nat :=
  rule.parts.map (·.1)

/-- The groups of the parts follow each other inside the whole match. -/
structure InLine (rule : PartsRule) : Prop where
  charted : rule.pattern.Charted
    (⟨0, false⟩ :: (GroupEnd.line rule.numbers.reverse ++ [⟨0, true⟩]))
  distinct : (0 :: rule.numbers).Nodup

theorem inLine_iff {rule : PartsRule} :
    rule.InLine ↔
      rule.pattern.Charted (⟨0, false⟩ :: (GroupEnd.line rule.numbers.reverse ++ [⟨0, true⟩])) ∧
        (0 :: rule.numbers).Nodup :=
  ⟨fun inLine => ⟨inLine.charted, inLine.distinct⟩, fun both => ⟨both.1, both.2⟩⟩

instance (rule : PartsRule) : Decidable rule.InLine :=
  decidable_of_iff' _ inLine_iff

/-- The part that a group stands for. -/
def part (m : Match) (entry : Nat × Option Scope) : Part :=
  match m.group? entry.1 with
  | some group => ⟨group.start, group.stop, entry.2⟩
  | none => ⟨0, 0, entry.2⟩

theorem locate_eq (rule : PartsRule) (m : Match) : rule.locate m = rule.parts.map (part m) := rfl

theorem part_proper {m : Match} {entry : Nat × Option Scope} (proper : (part m entry).Proper) :
    ∃ group, m.group? entry.1 = some group ∧ part m entry = ⟨group.start, group.stop, entry.2⟩ := by
  unfold part at proper ⊢
  split at proper
  · next group took => exact ⟨group, took, rfl⟩
  · exact absurd proper (Nat.lt_irrefl 0)

theorem InLine.inOrder {rule : PartsRule} (inLine : rule.InLine) {text : Array Char} {start limit : Nat}
    {m : Match} (found : rule.pattern.match? text start limit = some m) :
    Part.InOrder start m.stop (rule.locate m) := by
  have within := Program.match?_within found
  rw [locate_eq]
  refine ⟨?_, ?_⟩
  · intro located member proper
    obtain ⟨entry, _, rfl⟩ := List.mem_map.mp member
    obtain ⟨group, took, same⟩ := part_proper proper
    have inside := within.group took
    rw [same]
    exact ⟨inside.1, inside.2.2⟩
  · -- The last mark is the end of the whole match, which is no part.
    have marks := inLine.charted.marks found
    obtain ⟨stop, marked⟩ := m
    obtain ⟨whole, rest, rfl, isWhole, ends⟩ := List.map_eq_cons_iff.mp marks
    have falling := (List.pairwise_cons.mp within.marked.falling).2
    obtain ⟨notWhole, distinct⟩ := List.nodup_cons.mp inLine.distinct
    have skip : ∀ number ∈ rule.numbers,
        Match.group? ⟨stop, whole :: rest⟩ number = Match.group? ⟨stop, rest⟩ number := by
      intro number member
      refine Match.group?_skip ?_
      rintro rfl
      rw [show whole.number = 0 from congrArg GroupEnd.number isWhole] at member
      exact notWhole member
    have ascending := groups_ascending stop ends falling (List.nodup_reverse.mpr distinct)
    rw [List.pairwise_reverse, numbers, List.pairwise_map] at ascending
    rw [List.pairwise_filter, List.pairwise_map]
    refine ascending.imp_of_mem ?_
    intro left right memberLeft memberRight apart properLeft properRight
    obtain ⟨before, tookBefore, sameLeft⟩ := part_proper (of_decide_eq_true properLeft)
    obtain ⟨behind, tookBehind, sameRight⟩ := part_proper (of_decide_eq_true properRight)
    rw [skip left.1 (List.mem_map_of_mem memberLeft)] at tookBefore
    rw [skip right.1 (List.mem_map_of_mem memberRight)] at tookBehind
    rw [sameLeft, sameRight]
    exact apart behind tookBehind before tookBefore

end PartsRule

namespace Rule

/-- Rules of other kinds have no parts. -/
def InLine : Rule → Prop
  | parts rule => rule.InLine
  | single _ | container _ => True

instance : (rule : Rule) → Decidable rule.InLine
  | parts rule => inferInstanceAs (Decidable rule.InLine)
  | single _ => inferInstanceAs (Decidable True)
  | container _ => inferInstanceAs (Decidable True)

end Rule

namespace Highlighter
variable {highlighter : Highlighter}

theorem firstMatch?_rule {source : Source} {place : Nat} {found : Found} {indices : List Nat}
    (first : highlighter.firstMatch? source place indices = some found) :
    ∃ index, ∃ rule ∈ highlighter.rules, rule.match? source place index = some found := by
  induction indices with
  | nil => exact nomatch first
  | cons index rest ih =>
      unfold firstMatch? at first
      split at first
      · next other tried =>
          cases first
          obtain ⟨rule, listed, here⟩ := Option.bind_eq_some_iff.mp tried
          exact ⟨index, rule, Array.mem_of_getElem? listed, here⟩
      · exact ih first

/-- A language that has all its parts in line takes them in order, whatever the source. -/
theorem takesInOrder_of_inLine (inLine : ∀ rule ∈ highlighter.rules, rule.InLine)
    (source : Source) : highlighter.TakesInOrder source := by
  intro scan found visits first
  obtain ⟨index, rule, listed, here⟩ := firstMatch?_rule first
  cases rule with
  | single rule =>
      obtain ⟨stop, _, rfl⟩ := Option.map_eq_some_iff.mp here
      exact Part.InOrder.nil scan.pos stop
  | container rule =>
      obtain ⟨stop, _, rfl⟩ := Option.map_eq_some_iff.mp here
      exact Part.InOrder.nil scan.pos stop
  | parts rule =>
      obtain ⟨m, taken, _, rfl⟩ := Rule.match?_parts here
      have ruleInLine : rule.InLine := inLine _ listed
      exact ruleInLine.inOrder taken

end Highlighter

end Highlighting
