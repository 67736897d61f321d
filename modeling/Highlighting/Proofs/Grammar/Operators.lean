import Highlighting.Proofs.Pattern.Spellings

/-! # The operator that is taken

The operators of a language are one pattern text, a choice between their spellings. With the longer
spellings first, the one that is matched is the longest of those that stand at a place. -/
set_option autoImplicit false
namespace Highlighting

variable {spellings : List String} {text : List Char}

/-- Of the spellings that stand at a place, the longest one has the most bytes too. -/
theorem Longest.bytes_le {longest other : String} (greatest : Longest spellings text longest)
    (listed : other ∈ spellings) (stands : other.toList <+: text) :
    other.utf8ByteSize ≤ longest.utf8ByteSize := by
  have shorter := greatest.longest other listed stands
  rw [← String.length_toList, ← String.length_toList] at shorter
  obtain ⟨more, whole⟩ := List.prefix_of_prefix_length_le stands greatest.stands shorter
  have bytes := byteLength_append other.toList more
  rw [whole, byteLength_eq, byteLength_eq, String.ofList_toList, String.ofList_toList] at bytes
  omega

namespace WordTable
variable {owner : PatternOwner} {keywords : Keywords} {table : WordTable}

/-- What a table is made of. -/
theorem eq_of_ofKeywords (compiled : ofKeywords owner keywords = .ok table) :
    ∃ pattern, Pattern.parse? keywords.pattern = some pattern ∧
      table = { pattern := .ofPattern pattern, vocabularies := keywords.vocabularies,
                operators := operatorPattern keywords.operator } := by
  obtain ⟨program, read, made⟩ := ok_of_bind compiled
  obtain ⟨operators, spelled, made⟩ := ok_of_bind made
  obtain ⟨pattern, parsed, rfl⟩ := Option.map_eq_some_iff.mp (readProgram_eq_ok_iff.mp read)
  obtain rfl : operators = operatorPattern keywords.operator := eq_of_readProgram? spelled
  exact ⟨pattern, parsed, (Except.ok.inj made).symm⟩

/-- Only the pattern for words can keep a table from being made. -/
theorem exists_ofKeywords (owner : PatternOwner) {pattern : Pattern}
    (parsed : Pattern.parse? keywords.pattern = some pattern) :
    ∃ table, ofKeywords owner keywords = .ok table := by
  have read : readProgram owner .word keywords.pattern Pattern.parse? = .ok (.ofPattern pattern) := by
    rw [readProgram_eq_ok_iff, Pattern.Reader.program?, parsed, Option.map_some]
  rw [ofKeywords, read, readProgram?_operatorText?]
  exact ⟨_, rfl⟩

/-- Where a spelling stands, the longest one is matched. -/
theorem operatorPattern_stop?_stands {spelling : String} {source : Source} {place limit : Nat}
    (listed : spelling ∈ spellings) (stands : spelling.toList <+: source.part place limit) :
    ∃ longest, Longest spellings (source.part place limit) longest ∧
      (operatorPattern spellings).bind (·.stop? source.chars place limit) =
        some (place + longest.length) := by
  obtain ⟨longest, found⟩ := exists_longest listed stands
  have greatest := longest_of_find? found
  exact ⟨longest, greatest, operatorPattern_stop?_iff.mpr ⟨longest, greatest, rfl⟩⟩

/-- No character is taken exactly where no spelling with a character stands. -/
theorem operatorPattern_proper_none_iff {source : Source} {place limit : Nat} :
    ((operatorPattern spellings).bind (·.stop? source.chars place limit)).filter (place < ·) = none ↔
      ∀ spelling ∈ spellings, spelling ≠ "" → ¬ spelling.toList <+: source.part place limit := by
  constructor
  · intro nothing spelling listed proper stands
    obtain ⟨longest, greatest, found⟩ := operatorPattern_stop?_stands listed stands
    have longer := greatest.longest spelling listed stands
    have positive : spelling.length ≠ 0 := by simpa using proper
    have proper : place < place + longest.length := by omega
    rw [found, Option.filter_eq_none_iff] at nothing
    exact nothing _ rfl (decide_eq_true proper)
  · intro nothing
    rw [Option.filter_eq_none_iff]
    intro stop found
    obtain ⟨longest, greatest, rfl⟩ := operatorPattern_stop?_iff.mp found
    have empty : longest = "" := by
      by_cases isEmpty : longest = ""
      · exact isEmpty
      · exact absurd greatest.stands (nothing longest greatest.listed isEmpty)
    simp [empty]

/-- Operators are matched literally, and the longest first. The pattern that is read from their text, which
every table with these operators has, ends where the longest spelling does that stands at the place before
the limit, counted in bytes or in characters, and it takes no character only if no spelling with a
character stands there. -/
theorem operatorText_takes_longest (nonempty : spellings ≠ []) :
    ∃ pattern program, Pattern.parse? (operatorText spellings) = some pattern ∧
      operatorPattern spellings = some program ∧
      (∀ owner keywords table, keywords.operator = spellings → ofKeywords owner keywords = .ok table →
        table.operators = some program) ∧
      ∀ (source : Source) (place limit : Nat),
        (Program.ofPattern pattern).stop? source.chars place limit =
          program.stop? source.chars place limit ∧
        ((∃ spelling ∈ spellings, spelling.toList <+: source.part place limit) →
          ∃ longest ∈ spellings, longest.toList <+: source.part place limit ∧
            (∀ other ∈ spellings, other.toList <+: source.part place limit →
              other.utf8ByteSize ≤ longest.utf8ByteSize) ∧
            program.stop? source.chars place limit = some (place + longest.length) ∧
            source.offset (place + longest.length) = source.offset place + longest.utf8ByteSize) ∧
        ((program.stop? source.chars place limit).filter (place < ·) = none ↔
          ∀ spelling ∈ spellings, spelling ≠ "" → ¬ spelling.toList <+: source.part place limit) := by
  let pattern := Pattern.literalChoice ((longestFirst spellings).map (·.toList))
  have made := operatorPattern_eq nonempty
  refine ⟨pattern, .ofPattern pattern, parse?_operatorText nonempty, made, ?_, ?_⟩
  · rintro owner keywords table rfl compiled
    obtain ⟨_, _, rfl⟩ := eq_of_ofKeywords compiled
    exact made
  intro source place limit
  have stops : (operatorPattern spellings).bind (·.stop? source.chars place limit) =
      (Program.ofPattern pattern).stop? source.chars place limit := by
    rw [made, Option.bind_some]
  rw [← stops]
  refine ⟨rfl, ?_, operatorPattern_proper_none_iff⟩
  rintro ⟨spelling, listed, stands⟩
  obtain ⟨longest, greatest, found⟩ := operatorPattern_stop?_stands listed stands
  have offset := source.offset_of_holdsAt (source.holdsAt_of_prefix greatest.stands)
  rw [String.length_toList, byteLength_eq, String.ofList_toList] at offset
  exact ⟨longest, greatest.listed, greatest.stands, fun other => greatest.bytes_le, found, offset.symm⟩

/-- Spellings that are the starts of others, that are empty, or that mean something in a pattern. -/
theorem angle_operators_taken :
    ["<", "", "<<", "a|b", "<", "<<="] ≠ [] ∧
      ∃ pattern program table,
        Pattern.parse? (operatorText ["<", "", "<<", "a|b", "<", "<<="]) = some pattern ∧
        operatorPattern ["<", "", "<<", "a|b", "<", "<<="] = some program ∧
        ofKeywords (.rule 0) { operator := ["<", "", "<<", "a|b", "<", "<<="] } = .ok table ∧
        table.operators = some program ∧
        (Program.ofPattern pattern).stop? (Source.ofString "x<<=y").chars 1 5 = some 4 ∧
        program.stop? (Source.ofString "x<<=y").chars 1 3 = some 3 ∧
        (program.stop? (Source.ofString "x<<=y").chars 0 5).filter (0 < ·) = none := by
  have nonempty : ["<", "", "<<", "a|b", "<", "<<="] ≠ [] := List.cons_ne_nil _ _
  refine ⟨nonempty, ?_⟩
  obtain ⟨pattern, program, read, made, same, takes⟩ := operatorText_takes_longest nonempty
  have readable : (Pattern.parse? "[a-zA-Z0-9_]+").isSome = true := by decide +kernel
  obtain ⟨_, parsed⟩ := Option.isSome_iff_exists.mp readable
  obtain ⟨table, compiled⟩ : ∃ table,
      ofKeywords (.rule 0) { operator := ["<", "", "<<", "a|b", "<", "<<="] } = .ok table :=
    exists_ofKeywords (.rule 0) parsed
  refine ⟨pattern, program, table, read, made, compiled, same _ _ _ rfl compiled, ?_⟩
  rw [(takes _ 1 5).1, (takes _ 0 5).2.2]
  obtain rfl := Option.some.inj made
  decide +kernel

end WordTable

end Highlighting
