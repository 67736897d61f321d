import Mathlib.Data.List.MinMax
import Highlighting.Proofs.Scan.Labels

/-! # Texts split into words

A text is split from left to right. A run of word characters is one segment, with the scope of the first
vocabulary that lists it. Elsewhere the longest operator that stands there is a segment, and any other
character is plain. Plain segments that follow each other are joined. -/
set_option autoImplicit false
namespace Highlighting

/-- Characters that follow each other, with a scope or plain. -/
structure Segment where
  scope : Option Scope
  chars : List Char
deriving DecidableEq, Repr

/-- The longest of the spellings that the text starts with, if it is not empty. -/
def longestSpelling? (spellings : List String) (text : List Char) : Option String :=
  (spellings.filter fun spelling => spelling ≠ "" ∧ spelling.toList <+: text).argmax String.length

section Spellings
variable {spellings : List String} {text : List Char} {spelling : String}

theorem longest_of_longestSpelling? (found : longestSpelling? spellings text = some spelling) :
    Longest spellings text spelling ∧ 0 < spelling.length := by
  have member := List.argmax_mem found
  rw [List.mem_filter, decide_eq_true_eq] at member
  obtain ⟨listed, nonempty, stands⟩ := member
  refine ⟨⟨listed, stands, fun other also starts => ?_⟩, ?_⟩
  · by_cases empty : other = ""
    · rw [empty]
      exact Nat.zero_le _
    · exact List.le_of_mem_argmax (List.mem_filter.mpr ⟨also, decide_eq_true ⟨empty, starts⟩⟩) found
  · rw [Nat.pos_iff_ne_zero, ← String.length_toList, Ne, List.length_eq_zero_iff, String.toList_eq_nil_iff]
    exact nonempty

theorem eq_empty_of_longestSpelling? (missing : longestSpelling? spellings text = none)
    (listed : spelling ∈ spellings) (stands : spelling.toList <+: text) : spelling = "" := by
  rw [longestSpelling?, List.argmax_eq_none] at missing
  have excluded := List.filter_eq_nil_iff.mp missing spelling listed
  rw [decide_eq_true_eq] at excluded
  exact not_not.mp fun nonempty => excluded ⟨nonempty, stands⟩

end Spellings

namespace Keywords
variable (keywords : Keywords)

/-- Splits a text into words, operators and other characters, from left to right. -/
def split : List Char → List Segment
  | [] => []
  | c :: rest =>
      if Assertion.isWord false c then
        let word := c :: rest.takeWhile (Assertion.isWord false)
        ⟨keywords.scopeOf? (String.ofList word), word⟩ ::
          split (rest.dropWhile (Assertion.isWord false))
      else
        match _found : longestSpelling? keywords.operator (c :: rest) with
        | some spelling => ⟨some .operator, spelling.toList⟩ :: split ((c :: rest).drop spelling.length)
        | none => ⟨none, [c]⟩ :: split rest
termination_by text => text.length
decreasing_by
  · exact Nat.lt_succ_of_le (List.dropWhile_sublist _).length_le
  · have proper := (longest_of_longestSpelling? _found).2
    rw [List.length_drop, List.length_cons]
    omega
  · exact Nat.lt_succ_self _

end Keywords

namespace Segment

/-- Puts a segment before others. It is joined with the first of them if both are plain. -/
def before (segment : Segment) : List Segment → List Segment
  | [] => [segment]
  | next :: rest =>
      if segment.scope = none ∧ next.scope = none then ⟨none, segment.chars ++ next.chars⟩ :: rest
      else segment :: next :: rest

/-- Joins plain segments that follow each other. -/
def joinPlain (segments : List Segment) : List Segment :=
  segments.foldr before []

/-- The node of a segment that starts at the place. -/
def node (start : Nat) (segment : Segment) : Node :=
  match segment.scope with
  | some scope => .leaf scope start (start + segment.chars.length)
  | none => .text start (start + segment.chars.length)

/-- The nodes of segments that follow each other from the place on. -/
def nodes (start : Nat) : List Segment → List Node
  | [] => []
  | segment :: rest => segment.node start :: nodes (start + segment.chars.length) rest

end Segment

/-! ## Joining -/

namespace Segment

theorem start_node (start : Nat) (segment : Segment) : (segment.node start).start = start := by
  rw [node]
  cases segment.scope <;> rfl

theorem stop_node (start : Nat) (segment : Segment) :
    (segment.node start).stop = start + segment.chars.length := by
  rw [node]
  cases segment.scope <;> rfl

theorem isText_node (start : Nat) (segment : Segment) :
    (segment.node start).isText = true ↔ segment.scope = none := by
  rw [node]
  cases segment.scope <;> simp [Node.isText, Node.leaf]

/-- No segment is empty. -/
def Proper (segments : List Segment) : Prop :=
  ∀ segment ∈ segments, segment.chars ≠ []

theorem Proper.before {segment : Segment} {segments : List Segment} (nonempty : segment.chars ≠ [])
    (proper : Proper segments) : Proper (segment.before segments) := by
  cases segments with
  | nil => exact List.forall_mem_singleton.mpr nonempty
  | cons next rest =>
      rw [Segment.before]
      split
      · refine List.forall_mem_cons.mpr ⟨?_, (List.forall_mem_cons.mp proper).2⟩
        exact List.append_ne_nil_of_left_ne_nil nonempty _
      · exact List.forall_mem_cons.mpr ⟨nonempty, proper⟩

theorem Proper.joinPlain {segments : List Segment} (proper : Proper segments) :
    Proper (joinPlain segments) := by
  induction segments with
  | nil => exact proper
  | cons segment rest ih =>
      obtain ⟨nonempty, others⟩ := List.forall_mem_cons.mp proper
      exact (ih others).before nonempty

/-- Plain segments do not follow each other. -/
def Apart (segments : List Segment) : Prop :=
  segments.IsChain fun left right => ¬ (left.scope = none ∧ right.scope = none)

theorem Apart.before {segments : List Segment} (apart : Apart segments) (segment : Segment) :
    Apart (segment.before segments) := by
  cases segments with
  | nil => exact .singleton _
  | cons next rest =>
      rw [Segment.before]
      split
      · next plain =>
          cases rest with
          | nil => exact .singleton _
          | cons other others =>
              obtain ⟨first, more⟩ := List.isChain_cons_cons.mp apart
              exact List.isChain_cons_cons.mpr ⟨fun both => first ⟨plain.2, both.2⟩, more⟩
      · next differ => exact List.isChain_cons_cons.mpr ⟨differ, apart⟩

theorem apart_joinPlain (segments : List Segment) : Apart (joinPlain segments) := by
  induction segments with
  | nil => exact .nil
  | cons segment rest ih => exact ih.before segment

theorem Apart.nodes {segments : List Segment} (apart : Apart segments) :
    ∀ start, Node.Apart (nodes start segments) := by
  induction segments with
  | nil => exact fun _ => .nil
  | cons segment rest ih =>
      intro start
      cases rest with
      | nil => exact .singleton _
      | cons next others =>
          obtain ⟨first, more⟩ := List.isChain_cons_cons.mp apart
          refine List.isChain_cons_cons.mpr ⟨?_, ih more _⟩
          rw [isText_node, isText_node]
          exact first

theorem Proper.nodes {segments : List Segment} (proper : Proper segments) :
    ∀ start, ∀ node ∈ nodes start segments, node.start < node.stop := by
  induction segments with
  | nil => exact fun _ _ absurdity => nomatch absurdity
  | cons segment rest ih =>
      intro start
      obtain ⟨nonempty, others⟩ := List.forall_mem_cons.mp proper
      refine List.forall_mem_cons.mpr ⟨?_, ih others _⟩
      rw [start_node, stop_node]
      exact Nat.lt_add_of_pos_right (List.length_pos_iff.mpr nonempty)

/-- Pushing a segment in front of others is the same whether it is joined with them before. -/
theorem pushAll_before {segment : Segment} (nonempty : segment.chars ≠ []) (segments : List Segment)
    (start : Nat) (siblings : List Node) :
    Node.pushAll siblings (nodes start (segment.before segments)) =
      Node.pushAll (Node.push siblings (segment.node start))
        (nodes (start + segment.chars.length) segments) := by
  cases segments with
  | nil => rfl
  | cons next rest =>
      rw [before]
      split
      · next plain =>
          have pushed := Node.push_text_text siblings
            (Nat.lt_add_of_pos_right (n := start) (List.length_pos_iff.mpr nonempty))
            (Nat.le_add_right _ next.chars.length)
          have ends : start + (segment.chars ++ next.chars).length =
              start + segment.chars.length + next.chars.length := by
            rw [List.length_append, Nat.add_assoc]
          simp only [nodes, node, plain.1, plain.2, Node.pushAll, List.foldl_cons, ends, pushed]
      · rfl

theorem pushAll_joinPlain {segments : List Segment} (proper : Proper segments) :
    ∀ (start : Nat) (siblings : List Node),
      Node.pushAll siblings (nodes start (joinPlain segments)) =
        Node.pushAll siblings (nodes start segments) := by
  induction segments with
  | nil => exact fun _ _ => rfl
  | cons segment rest ih =>
      intro start siblings
      obtain ⟨nonempty, others⟩ := List.forall_mem_cons.mp proper
      rw [joinPlain, List.foldr_cons, pushAll_before nonempty]
      exact ih others _ _

/-- Pushing segments one after the other joins the plain ones. -/
theorem reverse_pushAll {segments : List Segment} (proper : Proper segments) (start : Nat) :
    (Node.pushAll [] (nodes start segments)).reverse = nodes start (joinPlain segments) := by
  rw [← pushAll_joinPlain proper, Node.pushAll_of_apart (proper.joinPlain.nodes start), List.append_nil,
    List.reverse_reverse]
  exact (apart_joinPlain segments).nodes start

theorem length_marks (segments : List Segment) :
    ∀ start, (Node.marksAll (nodes start segments)).length = segments.countP (·.scope.isSome) := by
  induction segments with
  | nil => exact fun _ => rfl
  | cons segment rest ih =>
      intro start
      rw [nodes, Node.marksAll, List.length_append, ih, List.countP_cons, node, Nat.add_comm]
      cases segment.scope <;> rfl

end Segment

/-! ## How texts split -/

namespace Keywords
variable {keywords : Keywords} {c : Char} {rest : List Char}

theorem split_word (keywords : Keywords) (rest : List Char) (word : Assertion.isWord false c = true) :
    let text := c :: rest
    keywords.split text =
      ⟨keywords.scopeOf? (String.ofList (text.takeWhile (Assertion.isWord false))),
        text.takeWhile (Assertion.isWord false)⟩ ::
      keywords.split (text.dropWhile (Assertion.isWord false)) := by
  intro text
  rw [split, if_pos word, List.takeWhile_cons_of_pos word, List.dropWhile_cons_of_pos word]

theorem split_operator (noWord : Assertion.isWord false c = false) {spelling : String}
    (found : longestSpelling? keywords.operator (c :: rest) = some spelling) :
    keywords.split (c :: rest) =
      ⟨some .operator, spelling.toList⟩ :: keywords.split ((c :: rest).drop spelling.length) := by
  rw [split, if_neg (Bool.eq_false_iff.mp noWord)]
  split
  · next other same =>
      rw [found] at same
      rw [Option.some.inj same]
  · next missing =>
      rw [found] at missing
      exact nomatch missing

theorem split_plain (noWord : Assertion.isWord false c = false)
    (missing : longestSpelling? keywords.operator (c :: rest) = none) :
    keywords.split (c :: rest) = ⟨none, [c]⟩ :: keywords.split rest := by
  rw [split, if_neg (Bool.eq_false_iff.mp noWord)]
  split
  · next spelling found =>
      rw [missing] at found
      exact nomatch found
  · rfl

theorem split_proper (keywords : Keywords) (text : List Char) : Segment.Proper (keywords.split text) := by
  induction text using split.induct keywords with
  | case1 =>
      rw [split]
      exact List.forall_mem_nil _
  | case2 c rest word ih =>
      rw [split, if_pos word]
      exact List.forall_mem_cons.mpr ⟨List.cons_ne_nil _ _, ih⟩
  | case3 c rest noWord spelling found ih =>
      rw [split_operator (Bool.eq_false_iff.mpr noWord) found]
      refine List.forall_mem_cons.mpr ⟨?_, ih⟩
      rw [Ne, ← List.length_eq_zero_iff, String.length_toList]
      exact Nat.ne_of_gt (longest_of_longestSpelling? found).2
  | case4 c rest noWord missing ih =>
      rw [split_plain (Bool.eq_false_iff.mpr noWord) missing]
      exact List.forall_mem_cons.mpr ⟨List.cons_ne_nil _ _, ih⟩

end Keywords

end Highlighting
