import Mathlib.Data.List.Sort
import Highlighting.Grammar.Words
import Highlighting.Proofs.Pattern.LiteralChoice

/-! # The spellings of operators

Operators are sorted with the longer spellings first, and the first that stands in the text is taken.
Spellings that stand at one place are the starts of each other, so that it is the longest of all that
stand there, whatever the order in which they are listed. -/
set_option autoImplicit false
namespace Highlighting

/-- A spelling stands before those that are not longer. -/
def Precedes (first second : String) : Prop :=
  second.utf8ByteSize ≤ first.utf8ByteSize

instance : DecidableRel Precedes := fun first second =>
  inferInstanceAs (Decidable (second.utf8ByteSize ≤ first.utf8ByteSize))

instance : Std.Total Precedes := ⟨fun _ _ => Nat.le_total _ _⟩

instance : IsTrans String Precedes := ⟨fun _ _ _ first second => Nat.le_trans second first⟩

theorem insertByLength_eq (spelling : String) (spellings : List String) :
    insertByLength spelling spellings = spellings.orderedInsert Precedes spelling := by
  induction spellings with
  | nil => rfl
  | cons other rest ih =>
      rw [insertByLength, List.orderedInsert_cons, ih]
      by_cases shorter : spelling.utf8ByteSize < other.utf8ByteSize
      · have later : ¬ Precedes spelling other := Nat.not_le.mpr shorter
        rw [if_pos shorter, if_neg later]
      · have first : Precedes spelling other := Nat.not_lt.mp shorter
        rw [if_neg shorter, if_pos first]

theorem longestFirst_eq (spellings : List String) :
    longestFirst spellings = spellings.insertionSort Precedes := by
  rw [longestFirst, funext fun spelling => funext (insertByLength_eq spelling)]
  rfl

theorem mem_longestFirst {spelling : String} {spellings : List String} :
    spelling ∈ longestFirst spellings ↔ spelling ∈ spellings := by
  rw [longestFirst_eq]
  exact (List.perm_insertionSort Precedes spellings).mem_iff

theorem longestFirst_sorted (spellings : List String) : (longestFirst spellings).Pairwise Precedes := by
  rw [longestFirst_eq]
  exact List.pairwise_insertionSort Precedes spellings

/-- The longest of the spellings that the text starts with. -/
structure Longest (spellings : List String) (text : List Char) (spelling : String) : Prop where
  listed : spelling ∈ spellings
  stands : spelling.toList <+: text
  longest : ∀ other ∈ spellings, other.toList <+: text → other.length ≤ spelling.length

variable {spellings : List String} {text : List Char} {spelling other : String}

/-- Where both stand, a spelling with no fewer bytes is not shorter. -/
theorem Precedes.length_le (precedes : Precedes spelling other) (stands : spelling.toList <+: text)
    (also : other.toList <+: text) : other.length ≤ spelling.length := by
  rw [← String.length_toList, ← String.length_toList]
  rcases List.prefix_or_prefix_of_prefix also stands with shorter | ⟨more, whole⟩
  · exact shorter.length_le
  · have bytes : byteLength spelling.toList + byteLength more ≤ byteLength spelling.toList := by
      rw [← byteLength_append, whole, byteLength_eq, byteLength_eq, String.ofList_toList,
        String.ofList_toList]
      exact precedes
    have count := length_le_byteLength more
    rw [← whole, List.length_append]
    omega

theorem Longest.length_eq (longest : Longest spellings text spelling)
    (also : Longest spellings text other) : spelling.length = other.length :=
  Nat.le_antisymm (also.longest spelling longest.listed longest.stands)
    (longest.longest other also.listed also.stands)

theorem longest_of_find? (found : (longestFirst spellings).find? (·.toList.isPrefixOf text) = some spelling) :
    Longest spellings text spelling := by
  obtain ⟨stands, before, behind, split, none⟩ := List.find?_eq_some_iff_append.mp found
  have sorted := longestFirst_sorted spellings
  rw [split] at sorted
  have stands := List.isPrefixOf_iff_prefix.mp stands
  refine ⟨mem_longestFirst.mp (List.mem_of_find?_eq_some found), stands, ?_⟩
  intro other listed also
  rw [← mem_longestFirst, split] at listed
  rcases List.mem_append.mp listed with earlier | here
  · have missing := none other earlier
    rw [List.isPrefixOf_iff_prefix.mpr also] at missing
    exact nomatch missing
  · rcases List.mem_cons.mp here with rfl | later
    · exact Nat.le_refl _
    · have ordered := List.rel_of_pairwise_cons (List.pairwise_append.mp sorted).2.1 later
      exact ordered.length_le stands also

theorem exists_longest (listed : spelling ∈ spellings) (stands : spelling.toList <+: text) :
    ∃ longest, (longestFirst spellings).find? (·.toList.isPrefixOf text) = some longest := by
  rw [← Option.isSome_iff_exists, List.find?_isSome]
  exact ⟨spelling, mem_longestFirst.mpr listed, List.isPrefixOf_iff_prefix.mpr stands⟩

namespace WordTable

/-- The pattern text for operators can always be read, and it stands for their spellings. -/
theorem parse?_operatorText (nonempty : spellings ≠ []) :
    Pattern.parse? (operatorText spellings) =
      some (Pattern.literalChoice ((longestFirst spellings).map (·.toList))) := by
  refine Pattern.parse?_escapedChoice fun empty => ?_
  obtain ⟨spelling, listed⟩ := List.exists_mem_of_ne_nil spellings nonempty
  rw [List.map_eq_nil_iff] at empty
  exact List.not_mem_nil (empty ▸ mem_longestFirst.mpr listed)

/-- The program for the operators, if there are any, as it is read from their text. -/
def operatorPattern (spellings : List String) : Option Program :=
  (operatorText? spellings).bind (Pattern.Reader.program? Pattern.parse?)

theorem operatorPattern_eq (nonempty : spellings ≠ []) :
    operatorPattern spellings =
      some (.ofPattern (.literalChoice ((longestFirst spellings).map (·.toList)))) := by
  rw [operatorPattern, operatorText?_of_ne_nil nonempty, Option.bind_some, Pattern.Reader.program?,
    parse?_operatorText nonempty, Option.map_some]

theorem readProgram?_operatorText? (owner : PatternOwner) (role : PatternRole) (spellings : List String) :
    readProgram? owner role (operatorText? spellings) Pattern.parse? = .ok (operatorPattern spellings) := by
  refine readProgram?_eq_ok fun text asked => ?_
  by_cases none : spellings = []
  · rw [none] at asked
    exact nomatch asked
  · rw [operatorText?_of_ne_nil none] at asked
    cases asked
    rw [Pattern.Reader.program?, parse?_operatorText none]
    rfl

end WordTable

/-- An operator ends where the longest spelling ends that stands before the limit. -/
theorem operatorPattern_stop?_iff {source : Source} {place limit stop : Nat} :
    (WordTable.operatorPattern spellings).bind (·.stop? source.chars place limit) = some stop ↔
      ∃ spelling, Longest spellings (source.part place limit) spelling ∧
        stop = place + spelling.length := by
  by_cases none : spellings = []
  · rw [none]
    refine iff_of_false (fun absurdity => nomatch absurdity) ?_
    rintro ⟨spelling, longest, _⟩
    exact nomatch longest.listed
  · rw [WordTable.operatorPattern_eq none, Option.bind_some, Program.stop?_literalChoice, List.find?_map,
      Option.map_map, Option.map_eq_some_iff]
    simp only [Function.comp_def, String.length_toList]
    constructor
    · rintro ⟨spelling, found, rfl⟩
      exact ⟨spelling, longest_of_find? found, rfl⟩
    · rintro ⟨spelling, longest, rfl⟩
      obtain ⟨other, found⟩ := exists_longest longest.listed longest.stands
      exact ⟨other, found, congrArg (place + ·) ((longest_of_find? found).length_eq longest)⟩

theorem Longest.of_same {few many : List String} (same : ∀ spelling, spelling ∈ few ↔ spelling ∈ many)
    (longest : Longest few text spelling) : Longest many text spelling :=
  ⟨(same spelling).mp longest.listed, longest.stands, fun other listed =>
    longest.longest other ((same other).mpr listed)⟩

/-- Two lists of the same spellings take the same operators. -/
theorem operatorPattern_stop?_congr {few many : List String}
    (same : ∀ spelling, spelling ∈ few ↔ spelling ∈ many) (source : Source) (place limit : Nat) :
    (WordTable.operatorPattern few).bind (·.stop? source.chars place limit) =
      (WordTable.operatorPattern many).bind (·.stop? source.chars place limit) := by
  ext stop
  rw [operatorPattern_stop?_iff, operatorPattern_stop?_iff]
  constructor
  · rintro ⟨spelling, longest, ends⟩
    exact ⟨spelling, longest.of_same same, ends⟩
  · rintro ⟨spelling, longest, ends⟩
    exact ⟨spelling, longest.of_same fun other => (same other).symm, ends⟩

end Highlighting
