import Highlighting.Pattern.Bounds
import Highlighting.Proofs.Text.Cuts

/-! # Matching in bytes

A pattern is matched in the text between two byte offsets, which has to be text that can be cut out.
Where it cannot be cut out there is no result; to find no match is a result. A match that is found is the
match at the places of the two offsets, with its ends in bytes. -/
set_option autoImplicit false
namespace Highlighting

def Group.inBytes (source : Source) (group : Group) : Group :=
  ⟨source.offset group.start, source.offset group.stop⟩

def Match.inBytes (source : Source) (m : Match) : Match where
  stop := source.offset m.stop
  marks := m.marks.map fun mark => { mark with place := source.offset mark.place }

namespace Checked
variable (source : Source)

def matchIn? (program : Program) (first last : Nat) : Option (Option Match) := do
  let _ ← source.cut? first last
  return (program.match? source.chars (source.placeAt first) (source.placeAt last)).map
    (·.inBytes source)

def stopIn? (program : Program) (first last : Nat) : Option (Option Nat) := do
  return (← matchIn? source program first last).map (·.stop)

/-- No pattern has no match. -/
def stopOf? (program : Option Program) (first last : Nat) : Option (Option Nat) :=
  match program with
  | some program => stopIn? source program first last
  | none => some none

theorem group?_inBytes (m : Match) (number : Nat) :
    (m.inBytes source).group? number = (m.group? number).map (·.inBytes source) := by
  rw [Match.group?, Match.group?, Match.inBytes, List.dropWhile_map]
  simp only [Function.comp_def]
  cases m.marks.dropWhile fun mark => mark.opens || mark.number != number with
  | nil => rfl
  | cons last earlier =>
      simp only [List.map_cons, List.find?_map, Function.comp_def, Option.map_map]
      rfl

theorem matchIn?_offset (program : Program) {place limit : Nat} (ordered : place ≤ limit)
    (inside : limit ≤ source.size) :
    matchIn? source program (source.offset place) (source.offset limit) =
      some ((program.match? source.chars place limit).map (·.inBytes source)) := by
  rw [matchIn?, source.cut?_offset ordered inside, source.placeAt_offset inside,
    source.placeAt_offset (Nat.le_trans ordered inside)]
  rfl

theorem stopIn?_offset (program : Program) {place limit : Nat} (ordered : place ≤ limit)
    (inside : limit ≤ source.size) :
    stopIn? source program (source.offset place) (source.offset limit) =
      some ((program.stop? source.chars place limit).map source.offset) := by
  rw [stopIn?, matchIn?_offset source program ordered inside, Program.stop?]
  cases program.match? source.chars place limit <;> rfl

theorem stopOf?_offset (program : Option Program) {place limit : Nat} (ordered : place ≤ limit)
    (inside : limit ≤ source.size) :
    stopOf? source program (source.offset place) (source.offset limit) =
      some ((program.bind (·.stop? source.chars place limit)).map source.offset) := by
  cases program with
  | none => rfl
  | some program => exact stopIn?_offset source program ordered inside

/-- A match takes a byte when it takes a character. -/
theorem filter_offset {place : Nat} {stop : Option Nat} (inside : ∀ found ∈ stop, found ≤ source.size) :
    (stop.map source.offset).filter (source.offset place < ·) =
      (stop.filter (place < ·)).map source.offset := by
  cases stop with
  | none => rfl
  | some stop =>
      have same : source.offset place < source.offset stop ↔ place < stop := by
        rw [← Nat.not_le, source.offset_le_iff (inside stop rfl), Nat.not_le]
      rw [Option.map_some, Option.filter_some, Option.filter_some]
      by_cases proper : place < stop
      · rw [decide_eq_true proper, decide_eq_true (same.mpr proper)]
        rfl
      · rw [decide_eq_false proper, decide_eq_false (mt same.mp proper)]
        rfl

end Checked

end Highlighting
