import Highlighting.Proofs.Text.Offsets

/-! # Cuts at byte offsets

Text is cut out between two byte offsets. That is possible only when they are in order and both lie
between two characters or at an end of the text: then the text splits into what is before, what is cut
out and what is behind. A search in text that was cut out gives its answer in bytes. -/
set_option autoImplicit false
namespace Highlighting

/-- How many bytes come before the first place where the wanted text stands. -/
def indexOf? (wanted : List Char) : List Char → Option Nat
  | [] => if wanted.isPrefixOf [] then some 0 else none
  | c :: rest =>
      if wanted.isPrefixOf (c :: rest) then some 0
      else (indexOf? wanted rest).map (c.utf8Size + ·)

/-- How many bytes come before the first character that passes the test. -/
def firstIndex? (test : Char → Bool) : List Char → Option Nat
  | [] => none
  | c :: rest => if test c then some 0 else (firstIndex? test rest).map (c.utf8Size + ·)

namespace Source

def bytes (source : Source) : Nat :=
  source.offset source.size

/-- Whether a byte offset is that of a place. -/
def isBoundary (source : Source) (byte : Nat) : Bool :=
  source.offset (source.placeAt byte) == byte

/-- The text between two byte offsets, if they are boundaries in order. -/
def cut? (source : Source) (first last : Nat) : Option (List Char) :=
  if first ≤ last ∧ source.isBoundary first ∧ source.isBoundary last then
    some (source.part (source.placeAt first) (source.placeAt last))
  else none

variable (source : Source)

theorem placeAt_le (byte : Nat) : source.placeAt byte ≤ source.size := by
  obtain ⟨later, same, _⟩ := byteOffsets_head 0 source.chars.toList
  have length : later.length = source.chars.toList.length := by
    have counted := byteOffsets_length 0 source.chars.toList
    rw [same, List.length_cons] at counted
    exact Nat.succ.inj counted
  have counted : later.countP (fun offset => 0 < offset && offset ≤ byte) ≤ later.length :=
    List.countP_le_length
  rw [placeAt, source.offsets_eq, same, List.countP_cons, if_neg (by simp), size,
    ← Array.length_toList, ← length]
  exact counted

theorem isBoundary_offset {place : Nat} (inside : place ≤ source.size) :
    source.isBoundary (source.offset place) = true := by
  rw [isBoundary, source.placeAt_offset inside, beq_self_eq_true]

theorem offset_injective {left right : Nat} (leftInside : left ≤ source.size)
    (rightInside : right ≤ source.size) (same : source.offset left = source.offset right) :
    left = right := by
  rw [← source.placeAt_offset leftInside, same, source.placeAt_offset rightInside]

theorem offset_le_iff {left right : Nat} (inside : left ≤ source.size) :
    source.offset left ≤ source.offset right ↔ left ≤ right := by
  constructor
  · intro ordered
    rw [← Nat.not_lt]
    intro before
    have := source.offset_lt before inside
    omega
  · exact source.offset_le

theorem offset_add_part {first last : Nat} (ordered : first ≤ last) :
    source.offset first + byteLength (source.part first last) = source.offset last := by
  rw [byteLength_eq]
  exact source.offset_add_slice ordered

/-- A character takes a byte at least. -/
theorem sub_le_offset {first last : Nat} (ordered : first ≤ last) (inside : last ≤ source.size) :
    last - first ≤ source.offset last - source.offset first := by
  have whole := source.offset_add_part ordered
  have least := length_le_byteLength (source.part first last)
  rw [source.part_length inside] at least
  omega

theorem cut?_offset {first last : Nat} (ordered : first ≤ last) (inside : last ≤ source.size) :
    source.cut? (source.offset first) (source.offset last) = some (source.part first last) := by
  have firstInside := Nat.le_trans ordered inside
  rw [cut?, if_pos ⟨source.offset_le ordered, source.isBoundary_offset firstInside,
    source.isBoundary_offset inside⟩, source.placeAt_offset firstInside, source.placeAt_offset inside]

/-- Text can be cut out when the whole text splits there, and only then. -/
theorem cut?_eq_some_iff {first last : Nat} {chars : List Char} :
    source.cut? first last = some chars ↔
      ∃ before after, source.chars.toList = before ++ chars ++ after ∧ byteLength before = first ∧
        byteLength (before ++ chars) = last := by
  constructor
  · intro cut
    obtain ⟨⟨ordered, starts, ends⟩, same⟩ := Option.ite_none_right_eq_some.mp cut
    have start : source.offset (source.placeAt first) = first := eq_of_beq starts
    have stop : source.offset (source.placeAt last) = last := eq_of_beq ends
    have places : source.placeAt first ≤ source.placeAt last := by
      rw [← source.offset_le_iff (source.placeAt_le first), start, stop]
      exact ordered
    have whole : source.part 0 (source.placeAt first) ++ chars = source.part 0 (source.placeAt last) := by
      rw [← Option.some.inj same, source.part_append (Nat.zero_le _) places]
    refine ⟨source.part 0 (source.placeAt first), source.part (source.placeAt last) source.size, ?_, ?_, ?_⟩
    · rw [whole, source.part_append (Nat.zero_le _) (source.placeAt_le last), part_whole]
    · rw [← offset_part, start]
    · rw [whole, ← offset_part, stop]
  · rintro ⟨before, after, split, rfl, rfl⟩
    have start : source.offset before.length = byteLength before := by
      rw [offset_eq, split, List.append_assoc, List.take_left]
    have stop : source.offset (before ++ chars).length = byteLength (before ++ chars) := by
      rw [offset_eq, split, List.take_left]
    have inside : (before ++ chars).length ≤ source.size := by
      rw [size, ← Array.length_toList, split]
      simp
    have ordered : before.length ≤ (before ++ chars).length := by
      rw [List.length_append]
      exact Nat.le_add_right _ _
    have between : source.part before.length (before ++ chars).length = chars := by
      rw [part, Array.toList_extract, split, List.extract_eq_take_drop]
      simp
    rw [← start, ← stop, source.cut?_offset ordered inside, between]

theorem cut?_end {place : Nat} (inside : place ≤ source.size) :
    source.cut? (source.offset place) source.bytes = some (source.part place source.size) :=
  source.cut?_offset inside (Nat.le_refl _)

theorem cut?_start {place : Nat} (inside : place ≤ source.size) :
    source.cut? 0 (source.offset place) = some (source.part 0 place) := by
  have cut := source.cut?_offset (Nat.zero_le place) inside
  rwa [offset_zero] at cut

/-! ## Walking over a part -/

theorem part_cons {place stop : Nat} {c : Char} (before : place < stop)
    (here : source.chars[place]? = some c) :
    source.part place stop = c :: source.part (place + 1) stop := by
  obtain ⟨inside, same⟩ := Array.getElem?_eq_some_iff.mp here
  have within : place < source.chars.toList.length := by rwa [Array.length_toList]
  obtain ⟨more, rfl⟩ : ∃ more, stop = place + (more + 1) := ⟨stop - place - 1, by omega⟩
  have ahead : place + (more + 1) - place = more + 1 := by omega
  have behind : place + (more + 1) - (place + 1) = more := by omega
  rw [part, part, Array.toList_extract, Array.toList_extract, List.extract_eq_take_drop,
    List.extract_eq_take_drop, List.drop_eq_getElem_cons within, ahead, behind, List.take_succ_cons,
    Array.getElem_toList, same]

/-- A slice that ends with a character. -/
theorem slice_succ {start place : Nat} {c : Char} (ordered : start ≤ place)
    (here : source.chars[place]? = some c) :
    source.slice start (place + 1) = source.slice start place ++ String.singleton c := by
  have one : source.part place (place + 1) = [c] := by
    rw [source.part_cons (Nat.lt_succ_self place) here, part_self]
  rw [slice, slice, ← source.part_append ordered (Nat.le_succ place), one, String.ofList_append]
  rfl

theorem part_getElem? {start stop index : Nat} (before : start + index < stop) :
    (source.part start stop)[index]? = source.chars[start + index]? := by
  rw [part, Array.toList_extract, List.extract_eq_take_drop, List.getElem?_take_of_lt (by omega),
    List.getElem?_drop, Array.getElem?_toList]

/-- A part that splits is made of the parts up to that place and from it on. -/
theorem part_of_append {first second : List Char} {place stop : Nat} (ordered : place ≤ stop)
    (inside : stop ≤ source.size) (split : first ++ second = source.part place stop) :
    place + first.length ≤ stop ∧ source.part place (place + first.length) = first ∧
      source.part (place + first.length) stop = second := by
  have length : first.length ≤ stop - place := by
    rw [← source.part_length inside, ← split, List.length_append]
    exact Nat.le_add_right _ _
  have within : place + first.length ≤ stop := by omega
  have parts : source.part place (place + first.length) ++ source.part (place + first.length) stop =
      first ++ second := by
    rw [source.part_append (Nat.le_add_right _ _) within, split]
  have same : (source.part place (place + first.length)).length = first.length := by
    rw [source.part_length (Nat.le_trans within inside), Nat.add_sub_cancel_left]
  exact ⟨within, List.append_inj parts same⟩

theorem part_head? {place stop : Nat} (before : place < stop) :
    (source.part place stop).head? = source.chars[place]? := by
  cases here : source.chars[place]? with
  | some c => rw [source.part_cons before here, List.head?_cons]
  | none =>
      have beyond := Array.getElem?_eq_none_iff.mp here
      simp [part, beyond]

theorem part_head?_size {place : Nat} (inside : place ≤ source.size) :
    (source.part place source.size).head? = source.chars[place]? := by
  rcases Nat.eq_or_lt_of_le inside with rfl | before
  · rw [part_self, List.head?_nil, eq_comm]
    exact Array.getElem?_eq_none (Nat.le_refl _)
  · exact source.part_head? before

theorem part_getLast? {place stop : Nat} (before : place < stop) (inside : stop ≤ source.size) :
    (source.part place stop).getLast? = source.chars[stop - 1]? := by
  have split := source.part_append (Nat.le_sub_one_of_lt before) (Nat.sub_le stop 1)
  have last : stop - 1 < source.chars.size := by
    rw [size] at inside
    omega
  have here := Array.getElem?_eq_getElem last
  have one : source.part (stop - 1) stop = _ := source.part_cons (by omega) here
  rw [Nat.sub_add_cancel (by omega), part_self] at one
  rw [← split, one, here, List.getLast?_append, List.getLast?_singleton, Option.some_or]

theorem cons_prefix_part {c : Char} {rest : List Char} {place limit : Nat} :
    c :: rest <+: source.part place limit ↔
      (place < limit ∧ source.chars[place]? = some c) ∧ rest <+: source.part (place + 1) limit := by
  constructor
  · rintro ⟨tail, whole⟩
    have before : place < limit := by
      rw [← Nat.not_le]
      intro beyond
      have nothing : source.part place limit = [] := by
        rw [part, Array.extract_empty_of_stop_le_start beyond]
      rw [nothing] at whole
      exact nomatch whole
    have here : source.chars[place]? = some c := by
      rw [← source.part_head? before, ← whole]
      rfl
    rw [source.part_cons before here] at whole
    exact ⟨⟨before, here⟩, tail, (List.cons.inj whole).2⟩
  · rintro ⟨⟨before, here⟩, behind⟩
    rw [source.part_cons before here]
    exact List.cons_prefix_cons.mpr ⟨rfl, behind⟩

theorem offset_succ {place : Nat} {c : Char} (here : source.chars[place]? = some c) :
    source.offset place + c.utf8Size = source.offset (place + 1) := by
  have whole := source.offset_add_part (Nat.le_succ place)
  rwa [source.part_cons (Nat.lt_succ_self place) here, part_self, byteLength, byteLength,
    Nat.add_zero] at whole

/-- Where the first character fails the test, or the end of the part if there is none. -/
theorem offset_skip (test : Char → Bool) {stop : Nat} (inside : stop ≤ source.size) (room : Nat) :
    ∀ {place : Nat}, place ≤ stop → stop - place ≤ room →
      source.offset (source.skip test stop room place) =
        (firstIndex? (!test ·) (source.part place stop)).elim (source.offset stop)
          (source.offset place + ·) := by
  induction room with
  | zero =>
      intro place ordered enough
      obtain rfl : place = stop := by omega
      rw [part_self]
      rfl
  | succ room ih =>
      intro place ordered enough
      rcases Nat.eq_or_lt_of_le ordered with rfl | before
      · rw [part_self, skip, if_neg (by simp)]
        rfl
      · have within : place < source.chars.size := Nat.lt_of_lt_of_le before inside
        have here := Array.getElem?_eq_getElem within
        rw [source.part_cons before here, skip, here]
        by_cases passes : test source.chars[place]
        · have further := ih before (by omega)
          rw [if_pos (by simp [before, passes]), further, firstIndex?, if_neg (by simp [passes])]
          cases firstIndex? (!test ·) (source.part (place + 1) stop) with
          | none => rfl
          | some count =>
              rw [Option.elim_some, Option.map_some, Option.elim_some, ← source.offset_succ here,
                Nat.add_assoc]
        · rw [if_neg (by simp [passes]), firstIndex?, if_pos (by simp [passes])]
          rfl

/-- What is left of a source behind a place. -/
theorem left_eq_drop (place : Nat) :
    source.part place source.size = source.chars.toList.drop place := by
  have length : (source.chars.toList.drop place).length = source.size - place := by
    rw [List.length_drop, Array.length_toList, size]
  rw [part, Array.toList_extract, List.extract_eq_take_drop]
  exact List.take_of_length_le (Nat.le_of_eq length)

/-- What stands at a place is the start of the rest of the text. -/
theorem holdsAt_iff_part {wanted : List Char} {place : Nat} :
    source.holdsAt wanted place = true ↔ wanted <+: source.part place source.size := by
  rw [holdsAt_iff, left_eq_drop]

/-- What stands at the start of a part stands at its place. -/
theorem holdsAt_of_prefix {chars : List Char} {place limit : Nat}
    (stands : chars <+: source.part place limit) : source.holdsAt chars place = true := by
  rw [part, Array.toList_extract, List.extract_eq_take_drop] at stands
  exact source.holdsAt_iff.mpr (stands.trans (List.take_prefix _ _))

theorem holdsAt_append (first second : List Char) :
    ∀ place : Nat, source.holdsAt (first ++ second) place =
      (source.holdsAt first place && source.holdsAt second (place + first.length)) := by
  induction first with
  | nil => intro place; rfl
  | cons c rest ih =>
      intro place
      rw [List.cons_append, holdsAt, holdsAt, ih, List.length_cons, Bool.and_assoc, Nat.add_assoc,
        Nat.add_comm 1]

theorem char_of_holdsAt {c : Char} {rest : List Char} {place : Nat}
    (stands : source.holdsAt (c :: rest) place = true) : source.chars[place]? = some c :=
  beq_iff_eq.mp (Bool.and_eq_true_iff.mp stands).1

/-- Every place of a text has one of its characters. -/
theorem char_of_stands {chars : List Char} {place passed : Nat} (stands : source.holdsAt chars place = true)
    (after : place ≤ passed) (before : passed < place + chars.length) :
    ∃ c ∈ chars, source.chars[passed]? = some c := by
  obtain ⟨rest, whole⟩ := source.holdsAt_iff.mp stands
  obtain ⟨index, rfl⟩ := Nat.exists_eq_add_of_le after
  have within : index < chars.length := Nat.lt_of_add_lt_add_left before
  refine ⟨chars[index], List.getElem_mem within, ?_⟩
  rw [← Array.getElem?_toList, ← List.getElem?_drop, ← whole, List.getElem?_append_left within,
    List.getElem?_eq_getElem within]

theorem offset_of_holdsAt {wanted : List Char} {place : Nat} (stands : source.holdsAt wanted place = true) :
    source.offset place + byteLength wanted = source.offset (place + wanted.length) := by
  rw [← source.offset_add_slice (Nat.le_add_right place wanted.length), source.slice_of_holdsAt stands,
    byteLength_eq]

/-! ## Searching a part -/

theorem holdsAt_eq (wanted : List Char) (place : Nat) :
    source.holdsAt wanted place = wanted.isPrefixOf (source.part place source.size) := by
  rw [Bool.eq_iff_iff, holdsAt_iff_part, List.isPrefixOf_iff_prefix]

/-- The wanted text stands at no place from this one on. -/
def NowhereFrom (wanted : List Char) (place : Nat) : Prop :=
  ∀ later, place ≤ later → later ≤ source.size → source.holdsAt wanted later = false

/-- The first place, from `place` on, where the wanted text stands. -/
structure FirstFrom (wanted : List Char) (place first : Nat) : Prop where
  behind : place ≤ first
  inside : first ≤ source.size
  stands : source.holdsAt wanted first = true
  absent : ∀ earlier, place ≤ earlier → earlier < first → source.holdsAt wanted earlier = false

variable {source} {wanted : List Char} {place : Nat}

theorem NowhereFrom.back (missing : source.holdsAt wanted place = false)
    (nowhere : source.NowhereFrom wanted (place + 1)) : source.NowhereFrom wanted place := by
  intro later behind inside
  rcases Nat.eq_or_lt_of_le behind with rfl | beyond
  · exact missing
  · exact nowhere later beyond inside

theorem FirstFrom.here (inside : place ≤ source.size) (stands : source.holdsAt wanted place = true) :
    source.FirstFrom wanted place place where
  behind := Nat.le_refl place
  inside := inside
  stands := stands
  absent _ behind before := absurd before (Nat.not_lt.mpr behind)

theorem FirstFrom.back {first : Nat} (missing : source.holdsAt wanted place = false)
    (found : source.FirstFrom wanted (place + 1) first) : source.FirstFrom wanted place first where
  behind := Nat.le_of_succ_le found.behind
  inside := found.inside
  stands := found.stands
  absent earlier behind before := by
    rcases Nat.eq_or_lt_of_le behind with rfl | beyond
    · exact missing
    · exact found.absent earlier beyond before

theorem indexOf?_here (stands : source.holdsAt wanted place = true) :
    indexOf? wanted (source.part place source.size) = some 0 := by
  rw [holdsAt_eq] at stands
  unfold indexOf?
  split
  · next none =>
      rw [none] at stands
      rw [if_pos stands]
  · next c rest some =>
      rw [some] at stands
      rw [if_pos stands]

theorem indexOf?_next {c : Char} (here : source.chars[place]? = some c)
    (missing : source.holdsAt wanted place = false) :
    indexOf? wanted (source.part place source.size) =
      (indexOf? wanted (source.part (place + 1) source.size)).map (c.utf8Size + ·) := by
  have before : place < source.size := (Array.getElem?_eq_some_iff.mp here).1
  rw [holdsAt_eq, source.part_cons before here] at missing
  rw [source.part_cons before here, indexOf?, missing, if_neg Bool.false_ne_true]

/-- Either the wanted text stands nowhere from the place on, or the search finds the first place. -/
theorem indexOf?_cases (wanted : List Char) (room : Nat) :
    ∀ {place : Nat}, place + room = source.size →
      (indexOf? wanted (source.part place source.size) = none ∧ source.NowhereFrom wanted place) ∨
      ∃ first count, indexOf? wanted (source.part place source.size) = some count ∧
        source.offset place + count = source.offset first ∧ source.FirstFrom wanted place first := by
  induction room with
  | zero =>
      intro place ends
      obtain rfl : place = source.size := ends
      cases here : source.holdsAt wanted source.size with
      | true =>
          exact .inr ⟨source.size, 0, indexOf?_here here, rfl, .here (Nat.le_refl _) here⟩
      | false =>
          refine .inl ⟨?_, ?_⟩
          · rw [holdsAt_eq, part_self] at here
            rw [part_self, indexOf?, here, if_neg Bool.false_ne_true]
          · intro later behind inside
            rwa [Nat.le_antisymm inside behind]
  | succ room ih =>
      intro place ends
      have within : place < source.size := by omega
      have char := Array.getElem?_eq_getElem within
      cases here : source.holdsAt wanted place with
      | true =>
          exact .inr ⟨place, 0, indexOf?_here here, rfl, .here (Nat.le_of_lt within) here⟩
      | false =>
          have endsBehind : place + 1 + room = source.size := by omega
          rw [indexOf?_next char here]
          rcases ih endsBehind with ⟨absent, nowhere⟩ | ⟨first, count, found, counted, least⟩
          · exact .inl ⟨by rw [absent, Option.map_none], nowhere.back here⟩
          · refine .inr ⟨first, _, by rw [found, Option.map_some], ?_, least.back here⟩
            rw [← counted, ← source.offset_succ char, Nat.add_assoc]

/-! ## What is left behind a place -/

theorem holdsAt_singleton {c : Char} : source.holdsAt [c] place = true ↔ source.chars[place]? = some c := by
  simp only [holdsAt, Bool.and_true, beq_iff_eq]

/-- What is left of a source starts with the character at the place. -/
theorem left_eq_cons {c : Char} {rest : List Char} (left : source.part place source.size = c :: rest) :
    source.chars[place]? = some c ∧ place < source.size ∧
      source.part (place + 1) source.size = rest := by
  have starts : c :: rest <+: source.part place source.size := left ▸ List.prefix_rfl
  obtain ⟨⟨inside, here⟩, _⟩ := source.cons_prefix_part.mp starts
  rw [source.part_cons inside here] at left
  exact ⟨here, inside, (List.cons.inj left).2⟩

theorem left_eq_nil (inside : place ≤ source.size) (left : source.part place source.size = []) :
    place = source.size := by
  have length := congrArg List.length left
  rw [source.part_length (Nat.le_refl _), List.length_nil] at length
  omega

theorem left_drop (source : Source) (place count : Nat) :
    (source.part place source.size).drop count = source.part (place + count) source.size := by
  rw [left_eq_drop, left_eq_drop, List.drop_drop]

theorem left_of_holdsAt {chars : List Char} (stands : source.holdsAt chars place = true) :
    source.part place source.size = chars ++ source.part (place + chars.length) source.size := by
  obtain ⟨rest, whole⟩ := source.holdsAt_iff_part.mp stands
  have behind := source.left_drop place chars.length
  rw [← whole, List.drop_left] at behind
  rw [← behind, whole]

end Source

end Highlighting
