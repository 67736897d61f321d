import Highlighting.Text.Cursor

/-! # Places and bytes

Every character takes a byte at least, so that offsets grow strictly with places, and a place can be
found again by its offset. The offset of the last place is the length of the text in bytes. -/
set_option autoImplicit false
namespace Highlighting

theorem byteLength_eq (chars : List Char) : byteLength chars = (String.ofList chars).utf8ByteSize := by
  induction chars with
  | nil => rfl
  | cons c rest ih =>
      rw [byteLength, ih, String.ofList_cons, String.utf8ByteSize_append, String.utf8ByteSize_singleton]

theorem byteLength_pos {chars : List Char} (some : chars ≠ []) : 0 < byteLength chars := by
  obtain ⟨c, rest, rfl⟩ := List.exists_cons_of_ne_nil some
  exact Nat.add_pos_left c.utf8Size_pos _

theorem length_le_byteLength (chars : List Char) : chars.length ≤ byteLength chars := by
  induction chars with
  | nil => exact Nat.le_refl 0
  | cons c rest ih =>
      have proper := c.utf8Size_pos
      rw [List.length_cons, byteLength]
      omega

theorem le_of_mem_byteOffsets {chars : List Char} :
    ∀ {first offset : Nat}, offset ∈ byteOffsets first chars → first ≤ offset := by
  induction chars with
  | nil =>
      intro first offset member
      exact Nat.le_of_eq (List.mem_singleton.mp member).symm
  | cons c rest ih =>
      intro first offset member
      rcases List.mem_cons.mp member with rfl | later
      · exact Nat.le_refl offset
      · exact Nat.le_of_add_right_le (ih later)

theorem byteOffsets_head (first : Nat) (chars : List Char) :
    ∃ later, byteOffsets first chars = first :: later ∧ ∀ offset ∈ later, first < offset := by
  cases chars with
  | nil => exact ⟨[], rfl, fun _ absurdity => nomatch absurdity⟩
  | cons c rest =>
      refine ⟨_, rfl, ?_⟩
      intro offset member
      have least := le_of_mem_byteOffsets member
      have proper := c.utf8Size_pos
      omega

theorem countP_byteOffsets {chars : List Char} :
    ∀ (first : Nat) {place : Nat}, place ≤ chars.length →
      (byteOffsets first chars).countP (· ≤ first + byteLength (chars.take place)) = place + 1 := by
  induction chars with
  | nil =>
      intro first place inside
      obtain rfl : place = 0 := Nat.le_zero.mp inside
      simp [byteOffsets, byteLength]
  | cons c rest ih =>
      intro first place inside
      cases place with
      | zero =>
          obtain ⟨later, same, beyond⟩ := byteOffsets_head first (c :: rest)
          have none : later.countP (· ≤ first) = 0 := by
            rw [List.countP_eq_zero]
            intro offset member
            have := beyond offset member
            simpa using this
          rw [same, List.take_zero, byteLength, Nat.add_zero, List.countP_cons, none]
          simp
      | succ place =>
          have behind := ih (first + c.utf8Size) (Nat.le_of_succ_le_succ inside)
          rw [byteOffsets, List.take_succ_cons, byteLength, ← Nat.add_assoc, List.countP_cons, behind]
          simp [Nat.add_assoc]

namespace Source

theorem toString_ofString (text : String) : (ofString text).toString = text := by
  simp [ofString, toString]

theorem size_ofString (text : String) : (ofString text).size = text.length := by
  rw [size, ofString, List.size_toArray, String.length_toList]

/-- Sources with the same characters are the same, since these decide the offsets. -/
theorem eq_of_chars : ∀ {left right : Source}, left.chars = right.chars → left = right
  | ⟨_, _, rfl⟩, ⟨_, _, rfl⟩, rfl => rfl

theorem part_append (source : Source) {first middle last : Nat} (left : first ≤ middle)
    (right : middle ≤ last) :
    source.part first middle ++ source.part middle last = source.part first last := by
  simp only [part, ← Array.toList_append, Array.extract_append_extract, Nat.min_eq_left left,
    Nat.max_eq_right right]

theorem part_self (source : Source) (place : Nat) : source.part place place = [] := by
  simp [part]

theorem part_length (source : Source) {start stop : Nat} (inside : stop ≤ source.size) :
    (source.part start stop).length = stop - start := by
  rw [part, Array.length_toList, Array.size_extract]
  exact congrArg (· - start) (Nat.min_eq_left inside)

theorem part_whole (source : Source) : source.part 0 source.size = source.chars.toList := by
  simp [part, size]

theorem part_ne_nil (source : Source) {start stop : Nat} (proper : start < stop)
    (inside : stop ≤ source.size) : source.part start stop ≠ [] := by
  intro empty
  have length := congrArg List.length empty
  simp only [part, Array.length_toList, Array.size_extract, List.length_nil] at length
  simp only [size] at inside
  omega

theorem offset_part (source : Source) (place : Nat) :
    source.offset place = byteLength (source.part 0 place) := by
  rw [offset_eq, part, Array.toList_extract, List.extract_eq_take_drop]
  simp

theorem offset_zero (source : Source) : source.offset 0 = 0 := by
  rw [offset_part, part_self]
  rfl

theorem offset_size (source : Source) : source.offset source.size = source.toString.utf8ByteSize := by
  rw [offset_part, part_whole, byteLength_eq]
  rfl

theorem offset_add_slice (source : Source) {start stop : Nat} (ordered : start ≤ stop) :
    source.offset start + (source.slice start stop).utf8ByteSize = source.offset stop := by
  rw [offset_part, offset_part, slice, ← byteLength_eq, ← byteLength_append,
    source.part_append (Nat.zero_le start) ordered]

theorem slice_ne_empty (source : Source) {start stop : Nat} (proper : start < stop)
    (inside : stop ≤ source.size) : source.slice start stop ≠ "" := by
  rw [slice, Ne, ← String.toList_inj, String.toList_ofList]
  exact source.part_ne_nil proper inside

/-- A slice with what comes before it and behind it is the text. -/
theorem slice_between (source : Source) {start stop : Nat} (ordered : start ≤ stop)
    (inside : stop ≤ source.size) :
    source.slice 0 start ++ source.slice start stop ++ source.slice stop source.size =
      source.toString := by
  rw [slice, slice, slice, ← String.ofList_append, ← String.ofList_append,
    source.part_append (Nat.zero_le start) ordered, source.part_append (Nat.zero_le stop) inside,
    part_whole]
  rfl

/-- The text before a place and the text behind it are the text. -/
theorem slice_split (source : Source) {place : Nat} (inside : place ≤ source.size) :
    source.slice 0 place ++ source.slice place source.size = source.toString := by
  rw [slice, slice, ← String.ofList_append, source.part_append (Nat.zero_le place) inside, part_whole]
  rfl

theorem utf8ByteSize_slice (source : Source) (place : Nat) :
    (source.slice 0 place).utf8ByteSize = source.offset place := by
  rw [slice, ← byteLength_eq, offset_part]

theorem span_eq (source : Source) {start stop : Nat} (ordered : start ≤ stop) :
    source.span start stop =
      ⟨.behind {} (source.slice 0 start).toList,
        .behind {} (source.slice 0 start ++ source.slice start stop).toList⟩ := by
  have whole : source.slice 0 start ++ source.slice start stop = source.slice 0 stop := by
    rw [slice, slice, ← String.ofList_append, source.part_append (Nat.zero_le start) ordered, slice]
  rw [whole, slice, slice, String.toList_ofList, String.toList_ofList]
  rfl

theorem offset_lt (source : Source) {left right : Nat} (before : left < right)
    (inside : right ≤ source.size) : source.offset left < source.offset right := by
  have bytes := byteLength_pos (source.part_ne_nil before inside)
  rw [byteLength_eq] at bytes
  have whole := source.offset_add_slice (Nat.le_of_lt before)
  rw [slice] at whole
  omega

theorem offset_le (source : Source) {left right : Nat} (ordered : left ≤ right) :
    source.offset left ≤ source.offset right := by
  have whole := source.offset_add_slice ordered
  omega

theorem offset_lt_iff (source : Source) {left right : Nat} (inside : left < source.size) :
    source.offset left < source.offset right ↔ left < right := by
  constructor
  · intro before
    rw [← Nat.not_le]
    intro ordered
    have := source.offset_le ordered
    omega
  · intro before
    by_cases within : right ≤ source.size
    · exact source.offset_lt before within
    · have beyond := source.offset_le (Nat.le_of_not_le within)
      have ends := source.offset_lt inside (Nat.le_refl source.size)
      omega

theorem holdsAt_iff (source : Source) {chars : List Char} :
    ∀ {place : Nat}, source.holdsAt chars place = true ↔ chars <+: source.chars.toList.drop place := by
  induction chars with
  | nil => intro place; exact iff_of_true rfl List.nil_prefix
  | cons c rest ih =>
      intro place
      rw [holdsAt, Bool.and_eq_true, beq_iff_eq, ih, ← Array.getElem?_toList]
      by_cases inside : place < source.chars.toList.length
      · rw [List.drop_eq_getElem_cons inside, List.cons_prefix_cons, List.getElem?_eq_getElem inside,
          Option.some_inj, eq_comm]
      · have ended := Nat.not_lt.mp inside
        rw [List.getElem?_eq_none ended, List.drop_eq_nil_of_le ended]
        simp

theorem slice_of_holdsAt (source : Source) {chars : List Char} {place : Nat}
    (stands : source.holdsAt chars place = true) :
    source.slice place (place + chars.length) = String.ofList chars := by
  have whole := List.prefix_iff_eq_take.mp (source.holdsAt_iff.mp stands)
  rw [slice, part, Array.toList_extract, List.extract_eq_take_drop, Nat.add_sub_cancel_left, ← whole]

theorem slice_word (source : Source) {word : String} {place : Nat}
    (stands : source.holdsAt word.toList place = true) :
    source.slice place (place + word.length) = word := by
  rw [← String.length_toList, source.slice_of_holdsAt stands, String.ofList_toList]

/-- A slice that goes on behind characters starts with them. -/
theorem slice_of_prefix (source : Source) {chars : List Char} {place stop : Nat}
    (stands : source.holdsAt chars place = true) (behind : place + chars.length ≤ stop) :
    ∃ rest, source.slice place stop = String.ofList chars ++ rest := by
  refine ⟨source.slice (place + chars.length) stop, ?_⟩
  rw [← source.slice_of_holdsAt stands, slice, slice, slice, ← String.ofList_append,
    source.part_append (Nat.le_add_right place chars.length) behind]

/-- The text stands at a byte offset when it stands at a place with this offset. -/
theorem stands_iff (text marker : String) (offset : Nat) :
    (∃ before after, text = before ++ marker ++ after ∧ before.utf8ByteSize = offset) ↔
      ∃ place, (ofString text).holdsAt marker.toList place = true ∧
        (ofString text).offset place = offset := by
  have chars : (ofString text).chars.toList = text.toList := rfl
  simp only [holdsAt_iff, offset_eq, chars, byteLength_eq]
  constructor
  · rintro ⟨before, after, rfl, rfl⟩
    refine ⟨before.toList.length, ?_, ?_⟩
    · simp [String.toList_append]
    · simp [String.toList_append]
  · rintro ⟨place, ⟨after, split⟩, rfl⟩
    refine ⟨String.ofList (text.toList.take place), String.ofList after, ?_, rfl⟩
    rw [← String.toList_inj, String.toList_append, String.toList_append, String.toList_ofList,
      String.toList_ofList, List.append_assoc, split, List.take_append_drop]

theorem placeAt_offset (source : Source) {place : Nat} (inside : place ≤ source.size) :
    source.placeAt (source.offset place) = place := by
  have fits : place ≤ source.chars.toList.length := by
    rwa [Array.length_toList]
  have counted := countP_byteOffsets 0 fits
  obtain ⟨later, same, beyond⟩ := byteOffsets_head 0 source.chars.toList
  rw [same, List.countP_cons, Nat.zero_add] at counted
  have positive : later.countP (fun offset => 0 < offset && offset ≤ source.offset place) =
      later.countP (· ≤ byteLength (source.chars.toList.take place)) := by
    refine List.countP_congr ?_
    intro offset member
    rw [offset_eq]
    simp [beyond offset member]
  rw [if_pos (by simp)] at counted
  rw [placeAt, source.offsets_eq, same, List.countP_cons, positive, Nat.succ.inj counted]
  simp

end Source

namespace Cursor
variable {source : Source}

theorem byteSpan_fst (cursor : Cursor source) {first last : Nat} (ordered : first ≤ last)
    (inside : last ≤ source.size) :
    (cursor.byteSpan (source.offset first) (source.offset last)).1 = source.span first last := by
  rw [byteSpan, source.placeAt_offset (Nat.le_trans ordered inside), source.placeAt_offset inside,
    span_fst]

end Cursor

end Highlighting
