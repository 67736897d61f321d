import Mathlib.Data.Nat.Find
import Mathlib.Order.Bounds.Basic
import Highlighting.Proofs.Text.Cuts
import Highlighting.Proofs.Text.Lines

/-! # Byte offsets that are rounded down

A byte offset beyond the text counts as its end, and one inside a character as the start of the
character: it stands for the greatest offset up to it at which the text can be cut in two. A cursor that
is asked for a byte gives the position behind the text up to this offset, whatever it was asked before. -/
set_option autoImplicit false
namespace Highlighting

/-- The text can be cut in two at the byte offset. -/
def IsCut (text : String) (byte : Nat) : Prop :=
  ∃ before after, text = before ++ after ∧ before.utf8ByteSize = byte

namespace Source
variable (source : Source)

theorem mem_offsets {offset : Nat} (member : offset ∈ source.offsets.toList) :
    ∃ place ≤ source.size, source.offset place = offset := by
  rw [source.offsets_eq] at member
  obtain ⟨place, inside, rfl⟩ := List.getElem_of_mem member
  rw [byteOffsets_length] at inside
  have fits : place ≤ source.chars.toList.length := by omega
  have found := byteOffsets_getElem? 0 source.chars.toList place fits
  rw [Nat.zero_add, ← offset_eq] at found
  obtain ⟨_, same⟩ := List.getElem?_eq_some_iff.mp found
  refine ⟨place, ?_, same.symm⟩
  rwa [Array.length_toList] at fits

/-- There is a last place whose offset is not beyond the byte. -/
theorem exists_last (byte : Nat) :
    ∃ place ≤ source.size, source.offset place ≤ byte ∧
      ∀ other ≤ source.size, source.offset other ≤ byte → other ≤ place := by
  have starts : source.offset 0 ≤ byte := by
    rw [offset_zero]
    exact Nat.zero_le byte
  refine ⟨Nat.findGreatest (fun place => source.offset place ≤ byte) source.size,
    Nat.findGreatest_le _, ?_, ?_⟩
  · exact Nat.findGreatest_spec (P := fun place => source.offset place ≤ byte) (Nat.zero_le _) starts
  · intro other inside before
    exact Nat.le_findGreatest inside before

/-- The place of a byte is this last place. -/
theorem placeAt_last (byte : Nat) :
    source.offset (source.placeAt byte) ≤ byte ∧
      ∀ other ≤ source.size, source.offset other ≤ byte → other ≤ source.placeAt byte := by
  obtain ⟨place, inside, before, last⟩ := source.exists_last byte
  -- No offset lies between that of the last place and the byte, so both count the same offsets.
  have same : source.placeAt byte = source.placeAt (source.offset place) := by
    rw [placeAt, placeAt]
    apply List.countP_congr
    intro offset member
    obtain ⟨other, within, rfl⟩ := source.mem_offsets member
    have ordered : source.offset other ≤ byte ↔ source.offset other ≤ source.offset place := by
      constructor
      · intro early
        exact source.offset_le (last other within early)
      · intro early
        exact Nat.le_trans early before
    simp only [Bool.and_eq_true, decide_eq_true_eq, ordered]
  rw [same, source.placeAt_offset inside]
  exact ⟨before, last⟩

theorem isCut_iff (text : String) (byte : Nat) :
    IsCut text byte ↔ ∃ place ≤ (ofString text).size, (ofString text).offset place = byte := by
  constructor
  · rintro ⟨before, after, rfl, rfl⟩
    have chars : (ofString (before ++ after)).chars.toList = before.toList ++ after.toList := by
      simp [ofString, String.toList_append]
    refine ⟨before.toList.length, ?_, ?_⟩
    · rw [size, ← Array.length_toList, chars, List.length_append]
      exact Nat.le_add_right _ _
    · rw [offset_eq, chars, List.take_left, byteLength_eq, String.ofList_toList]
  · rintro ⟨place, inside, rfl⟩
    refine ⟨(ofString text).slice 0 place, (ofString text).slice place (ofString text).size, ?_, ?_⟩
    · rw [slice_split _ inside, toString_ofString]
    · exact utf8ByteSize_slice _ place

end Source

namespace Cursor

/-- What a cursor can be asked: the position of a byte, or those of the two ends of a range. -/
inductive Request where
  | position (byte : Nat)
  | span (first last : Nat)
deriving DecidableEq, Repr

variable {source : Source}

/-- Where a request leaves the cursor. -/
def ask (cursor : Cursor source) : Request → Cursor source
  | .position byte => cursor.moveToByte byte
  | .span first last => (cursor.byteSpan first last).2

def askAll (cursor : Cursor source) (requests : List Request) : Cursor source :=
  requests.foldl ask cursor

/-- The position of a byte is the one behind the text up to the greatest cut that is not beyond it. -/
theorem moveToByte_position (text : String) (cursor : Cursor (.ofString text)) (byte : Nat) :
    ∃ before after, text = before ++ after ∧
      IsGreatest {cut | IsCut text cut ∧ cut ≤ min byte text.utf8ByteSize} before.utf8ByteSize ∧
      (cursor.moveToByte byte).position = .behindText before := by
  let source := Source.ofString text
  let place := source.placeAt byte
  obtain ⟨early, last⟩ : source.offset place ≤ byte ∧ _ := source.placeAt_last byte
  have inside : place ≤ source.size := source.placeAt_le byte
  have size : (source.slice 0 place).utf8ByteSize = source.offset place :=
    source.utf8ByteSize_slice place
  have whole : source.offset source.size = text.utf8ByteSize := by
    rw [Source.offset_size, Source.toString_ofString]
  refine ⟨source.slice 0 place, source.slice place source.size, ?_, ⟨⟨?_, ?_⟩, ?_⟩, ?_⟩
  · rw [source.slice_split inside, Source.toString_ofString]
  · rw [size, Source.isCut_iff]
    exact ⟨place, inside, rfl⟩
  · rw [size, ← whole]
    exact Nat.le_min.mpr ⟨early, source.offset_le inside⟩
  · rintro cut ⟨cuts, before⟩
    obtain ⟨other, within, rfl⟩ := (Source.isCut_iff text cut).mp cuts
    have ordered : other ≤ place := last other within (Nat.le_trans before (Nat.min_le_left _ _))
    rw [size]
    exact source.offset_le ordered
  · rw [moveToByte, moveTo_position, Source.position, Position.behind_eq]
    rfl

/-- What a cursor answers does not depend on what it was asked before. -/
theorem answers_forget_requests (text : String) (earlier : List Request) :
    let cursor := (Cursor.start (.ofString text)).askAll earlier
    (∀ byte, ∃ before after, text = before ++ after ∧
      IsGreatest {cut | IsCut text cut ∧ cut ≤ min byte text.utf8ByteSize} before.utf8ByteSize ∧
      (cursor.moveToByte byte).position = .behindText before) ∧
    ∀ first last, (cursor.byteSpan first last).1 =
      ⟨(cursor.moveToByte first).position, (cursor.moveToByte last).position⟩ := by
  intro cursor
  refine ⟨moveToByte_position text cursor, ?_⟩
  intro first last
  rw [byteSpan, span_fst, moveToByte, moveToByte, moveTo_position, moveTo_position]
  rfl

end Cursor

end Highlighting
