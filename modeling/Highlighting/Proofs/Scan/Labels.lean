import Highlighting.Proofs.Grammar.Listed
import Highlighting.Proofs.Grammar.Operators
import Highlighting.Proofs.Scan.Finding

/-! # The labels of sorted text

A word has the scope of the first vocabulary that lists it. Every mark that sorting makes stands by what
the word pattern takes at its place: it is the whole match, or the match up to an exclamation mark if the
match itself is not listed. Only where the word pattern takes nothing is an operator marked. -/
set_option autoImplicit false
namespace Highlighting

/-- The scope of the first vocabulary that lists the word. -/
def Keywords.scopeOf? (keywords : Keywords) (word : String) : Option Scope :=
  if word ∈ keywords.types then some .type
  else if word ∈ keywords.keyword then some .keyword
  else if word ∈ keywords.literal then some .literal
  else if word ∈ keywords.builtIn then some .builtIn
  else if word ∈ keywords.operator then some .operator
  else none

/-- The mark agrees with what the word pattern takes where it starts, if it takes anything there. -/
def Keywords.Labels (keywords : Keywords) (source : Source) (mark : Marking) : Option Nat → Prop
  | some candidate =>
      let text := source.slice mark.start candidate
      let word := source.slice mark.start mark.stop
      (mark.stop = candidate ∧ keywords.scopeOf? text = some mark.scope) ∨
        (keywords.scopeOf? text = none ∧ 1 < text.utf8ByteSize ∧ text = word ++ "!" ∧
          keywords.scopeOf? word = some mark.scope)
  | none => mark.scope = .operator ∧ source.slice mark.start mark.stop ∈ keywords.operator

namespace WordTable
variable {owner : PatternOwner} {keywords : Keywords} {table : WordTable} {source : Source}

theorem scope?_cons (scope : Scope) (words : List String) (rest : List (Scope × List String))
    (word : String) :
    (((scope, words) :: rest).find? (·.2.contains word)).map (·.1) =
      if word ∈ words then some scope else (rest.find? (·.2.contains word)).map (·.1) := by
  rw [List.find?_cons]
  by_cases listed : word ∈ words
  · rw [if_pos listed, List.contains_iff_mem.mpr listed]
    rfl
  · have missing : words.contains word = false := by
      rwa [← Bool.not_eq_true, List.contains_iff_mem]
    rw [if_neg listed, missing]

theorem scope?_eq (compiled : ofKeywords owner keywords = .ok table) (word : String) :
    table.scope? word = keywords.scopeOf? word := by
  obtain ⟨_, _, rfl⟩ := eq_of_ofKeywords compiled
  simp only [scope?, Keywords.vocabularies, scope?_cons, List.find?_nil, Option.map_none,
    Keywords.scopeOf?]

/-- A word that is looked up is the whole match if that is listed. -/
theorem lookUp_labels {start stop candidate : Nat} {scope : Scope}
    (compiled : ofKeywords owner keywords = .ok table) (proper : start < candidate)
    (known : table.lookUp source start candidate = (some scope, stop)) :
    keywords.Labels source ⟨scope, start, stop⟩ (some candidate) := by
  unfold lookUp at known
  split at known
  · next whole =>
      obtain ⟨rfl, rfl⟩ : _ = scope ∧ candidate = stop := by simpa using known
      exact .inl ⟨rfl, by rwa [← scope?_eq compiled]⟩
  · next unlisted =>
      split at known
      · next marked =>
          obtain ⟨long, mark⟩ := Bool.and_eq_true_iff.mp marked
          obtain ⟨found, rfl⟩ := Prod.mk.inj known
          have longer : 1 < candidate - start := of_decide_eq_true long
          have here : source.chars[candidate - 1]? = some '!' := eq_of_beq mark
          have inside : candidate - 1 < source.size := (Array.getElem?_eq_some_iff.mp here).1
          have split := source.slice_succ (by omega : start ≤ candidate - 1) here
          rw [Nat.sub_add_cancel (by omega)] at split
          refine .inr ⟨by rwa [← scope?_eq compiled], ?_, split, by rwa [← scope?_eq compiled]⟩
          have word : source.slice start (candidate - 1) ≠ "" :=
            source.slice_ne_empty (by omega) (Nat.le_of_lt inside)
          have bytes : 0 < (source.slice start (candidate - 1)).utf8ByteSize :=
            Nat.pos_of_ne_zero fun empty => word (String.utf8ByteSize_eq_zero_iff.mp empty)
          rw [split, String.utf8ByteSize_append]
          exact Nat.lt_add_of_pos_left bytes
      · exact nomatch (Prod.mk.inj known).1

theorem Finds.labels {limit : Nat} {mark : Marking} (compiled : ofKeywords owner keywords = .ok table)
    (finds : table.Finds source limit mark) :
    keywords.Labels source mark
      ((table.pattern.stop? source.chars mark.start limit).filter (mark.start < ·)) := by
  cases finds with
  | word outside matched known =>
      dsimp only
      rw [matched]
      exact lookUp_labels compiled (of_decide_eq_true (Option.filter_eq_some_iff.mp matched).2) known
  | operator outside noWord matched =>
      dsimp only
      rw [noWord]
      obtain ⟨_, _, rfl⟩ := eq_of_ofKeywords compiled
      obtain ⟨spelling, longest, rfl⟩ :=
        operatorPattern_stop?_iff.mp (Option.filter_eq_some_iff.mp matched).1
      refine ⟨rfl, ?_⟩
      rw [source.slice_word (source.holdsAt_of_prefix longest.stands)]
      exact longest.listed

/-- The nodes of a sorted range fill it, and each is plain text or the label of a word. Where the word
pattern takes something, the label is that of the whole match, or of the match without its exclamation
mark if only that is listed. Where it takes nothing, the label is that of an operator. -/
theorem sort_labels (compiled : ofKeywords owner keywords = .ok table) (scan : Scan) (source : Source)
    {start stop : Nat} (ordered : start ≤ stop) :
    let nodes := (scan.sort source (some table) start stop).1
    Node.Fills start stop nodes ∧ (∀ node ∈ nodes, node.IsLeaf) ∧
      ∀ scope first last, .leaf scope first last ∈ nodes →
        keywords.Labels source ⟨scope, first, last⟩
          ((table.pattern.stop? source.chars first stop).filter (first < ·)) := by
  have leaves : ∀ node ∈ (table.sort source start stop).nodes.reverse, node.IsLeaf :=
    fun node member => sort_leaves node (List.mem_reverse.mp member)
  refine ⟨table.sort_fills source ordered, leaves, ?_⟩
  intro scope first last member
  have marked := Node.mem_marksAll_reverse.mp ((Node.leaf_mem_iff leaves).mp member)
  exact (sort_finds _ marked).labels compiled

end WordTable

namespace Shouts

/-- Words may end in an exclamation mark, and one of the keywords does. -/
def keywords : Keywords where
  pattern := "[a-zA-Z][a-zA-Z0-9_]*!?"
  keyword := ["if", "true", "print!"]
  operator := ["!=", "+"]

theorem compiles : (WordTable.ofKeywords (.language "shouts") keywords).toOption.isSome = true := by
  decide +kernel

def table : WordTable :=
  (WordTable.ofKeywords (.language "shouts") keywords).toOption.get compiles

def source : Source :=
  .ofString "if!x true!=y print!z"

theorem shouts_labelled :
    keywords.Labels source ⟨.keyword, 5, 9⟩ (some 10) ∧ keywords.Labels source ⟨.operator, 9, 11⟩ none ∧
      keywords.Labels source ⟨.keyword, 13, 19⟩ (some 19) := by
  obtain ⟨_, leaves, labels⟩ :=
    WordTable.sort_labels (ok_toOption_get compiles) {} source (by decide : 0 ≤ 20)
  have marks : Node.marksAll (({} : Scan).sort source (some table) 0 20).1 =
      [⟨.keyword, 0, 2⟩, ⟨.keyword, 5, 9⟩, ⟨.operator, 9, 11⟩, ⟨.keyword, 13, 19⟩] := by
    decide +kernel
  have word : (table.pattern.stop? source.chars 5 20).filter (5 < ·) = some 10 := by decide +kernel
  have operator : (table.pattern.stop? source.chars 9 20).filter (9 < ·) = none := by decide +kernel
  have whole : (table.pattern.stop? source.chars 13 20).filter (13 < ·) = some 19 := by decide +kernel
  have labelled : ∀ mark ∈ Node.marksAll (({} : Scan).sort source (some table) 0 20).1,
      keywords.Labels source mark
        ((table.pattern.stop? source.chars mark.start 20).filter (mark.start < ·)) :=
    fun mark member => labels _ _ _ ((Node.leaf_mem_iff leaves).mpr member)
  rw [marks] at labelled
  exact ⟨word ▸ labelled ⟨.keyword, 5, 9⟩ (by simp), operator ▸ labelled ⟨.operator, 9, 11⟩ (by simp),
    whole ▸ labelled ⟨.keyword, 13, 19⟩ (by simp)⟩

end Shouts

end Highlighting
