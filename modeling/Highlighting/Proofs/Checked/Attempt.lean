import Highlighting.Proofs.Checked.Matching
import Highlighting.Proofs.Scan.Extent

/-! # Trying rules on bytes

A rule is tried here at a byte offset, and every piece of text that is looked at on the way is cut out of
the source: what a fence's group took, what is left to search for a closer, what stands behind a closer
and the text of a match. Nothing goes wrong when the rule is tried at the offset of a place, and what is
found is what is found at that place. -/
set_option autoImplicit false
namespace Highlighting

def Part.inBytes (source : Source) (part : Part) : Part :=
  { part with start := source.offset part.start, stop := source.offset part.stop }

def Found.inBytes (source : Source) : Found → Found
  | single index rule stop => .single index rule (source.offset stop)
  | parts index rule stop located =>
      .parts index rule (source.offset stop) (located.map (·.inBytes source))
  | container index rule stop => .container index rule (source.offset stop)

namespace Checked
variable (source : Source)

/-- Searches for a closer from byte `first` on that has no further mark behind it. There is no result if
the fuel is used up on the way. -/
def fenceStop? (fence : Fence) (closer : List Char) : Nat → Nat → Option (Option Nat)
  | 0, _ => none
  | fuel + 1, first => do
      let rest ← source.cut? first source.bytes
      match indexOf? closer rest with
      | none => return none
      | some count =>
          let after := first + count + byteLength closer
          let behind ← source.cut? after source.bytes
          if behind.head? == some fence.mark then
            fenceStop? fence closer fuel (first + count + fence.close.utf8Size)
          else return some after

def marks? (fence : Fence) (m : Match) : Option (List Char) :=
  match m.group? fence.group with
  | some group => source.cut? group.start group.stop
  | none => some []

def fenceMatch? (fence : Fence) (opener : Program) (pos : Nat) : Option (Option Nat) := do
  match ← matchIn? source opener pos source.bytes with
  | none => return none
  | some m =>
      let marks ← marks? source fence m
      fenceStop? source fence (fence.close :: marks) (source.bytes - m.stop + 1) m.stop

def textStop? (rule : SingleRule) (pos : Nat) : Option (Option Nat) :=
  match rule.fence with
  | some fence => fenceMatch? source fence rule.opener pos
  | none => stopIn? source rule.opener pos source.bytes

def singleStop? (rule : SingleRule) (pos : Nat) : Option (Option Nat) := do
  match ← textStop? source rule pos with
  | none => return none
  | some stop =>
      let text ← source.cut? pos stop
      if stop = pos ∨ rule.excluded.contains (String.ofList text) then return none
      else
        match rule.followedBy with
        | none => return some stop
        | some lookahead => return (← stopIn? source lookahead stop source.bytes).map fun _ => stop

def tryRule? (pos index : Nat) : Rule → Option (Option Found)
  | .single rule => do return (← singleStop? source rule pos).map (.single index rule)
  | .parts rule => do
      match ← matchIn? source rule.pattern pos source.bytes with
      | none => return none
      | some m =>
          if m.stop = pos then return none
          else return some (.parts index rule m.stop (rule.locate m))
  | .container rule => do
      let stop ← stopIn? source rule.opener pos source.bytes
      return (stop.filter (pos < ·)).map (.container index rule)

/-- The first rule that matches. Each number has to be that of a rule. -/
def firstOf? (highlighter : Highlighter) (pos : Nat) : List Nat → Option (Option Found)
  | [] => some none
  | index :: rest => do
      let rule ← highlighter.rules[index]?
      match ← tryRule? source pos index rule with
      | some found => return some found
      | none => firstOf? highlighter pos rest

end Checked

/-! ## Fences -/

namespace Fence
variable (fence : Fence) (source : Source) (marks : List Char)

/-- The search passes places where no closer stands. -/
theorem stop?_pass (count : Nat) :
    ∀ {place : Nat}, place + count ≤ source.size →
      (∀ earlier, place ≤ earlier → earlier < place + count →
        source.holdsAt (fence.close :: marks) earlier = false) →
        fence.stop? source marks (source.size - place) place =
          fence.stop? source marks (source.size - (place + count)) (place + count) := by
  induction count with
  | zero => intro place _ _; rfl
  | succ count ih =>
      intro place inside absent
      obtain ⟨room, left⟩ : ∃ room, source.size - place = room + 1 :=
        Nat.exists_eq_add_one_of_ne_zero (by omega)
      have here : fence.closesAt source marks place = false := by
        rw [closesAt, absent place (Nat.le_refl place) (by omega), Bool.false_and]
      have room_eq : room = source.size - (place + 1) := by omega
      have next : place + 1 + count = place + (count + 1) := by omega
      rw [left, stop?_succ, here, if_neg Bool.false_ne_true, room_eq, ← next]
      exact ih (by omega) fun earlier behind before => absent earlier (by omega) (by omega)

theorem stop?_absent {place : Nat} (inside : place ≤ source.size)
    (nowhere : source.NowhereFrom (fence.close :: marks) place) :
    fence.stop? source marks (source.size - place) place = none := by
  have ends : place + (source.size - place) = source.size := by omega
  rw [fence.stop?_pass source marks (source.size - place) (Nat.le_of_eq ends)
    fun earlier behind before => nowhere earlier behind (by omega), ends, Nat.sub_self, stop?_zero,
    closesAt, nowhere source.size inside (Nat.le_refl _), Bool.false_and, if_neg Bool.false_ne_true]

/-- The search goes on from the first place where a closer stands. -/
theorem stop?_first {place first : Nat} (least : source.FirstFrom (fence.close :: marks) place first) :
    fence.stop? source marks (source.size - place) place =
      fence.stop? source marks (source.size - first) first := by
  obtain ⟨passed, rfl⟩ := Nat.exists_eq_add_of_le least.behind
  exact fence.stop?_pass source marks passed least.inside least.absent

end Fence

namespace Checked
variable (source : Source)

theorem fenceStop?_offset (fence : Fence) (marks : List Char) (fuel : Nat) :
    ∀ {place : Nat}, place ≤ source.size → source.size - place < fuel →
      fenceStop? source fence (fence.close :: marks) fuel (source.offset place) =
        some ((fence.stop? source marks (source.size - place) place).map source.offset) := by
  induction fuel with
  | zero => intro place _ absurdity; exact absurd absurdity (Nat.not_lt_zero _)
  | succ fuel ih =>
      intro place inside fuelled
      rw [fenceStop?, source.cut?_end inside]
      simp only [Option.bind_eq_bind, Option.bind_some]
      have ends : place + (source.size - place) = source.size := by omega
      rcases source.indexOf?_cases (fence.close :: marks) _ ends with
        ⟨absent, nowhere⟩ | ⟨first, count, found, counted, least⟩
      · rw [absent, fence.stop?_absent source marks inside nowhere]
        rfl
      · have behind := least.behind
        have stands := least.stands
        have stop : first + 1 + marks.length ≤ source.size := by
          have fits := source.holdsAt_le least.inside stands
          rw [List.length_cons] at fits
          omega
        have after : source.offset place + count + byteLength (fence.close :: marks) =
            source.offset (first + 1 + marks.length) := by
          have width := source.offset_of_holdsAt stands
          rw [List.length_cons] at width
          rw [counted, width]
          congr 1
          omega
        obtain ⟨room, left⟩ : ∃ room, source.size - first = room + 1 :=
          Nat.exists_eq_add_one_of_ne_zero (by omega)
        have ahead := source.part_head?_size stop
        rw [found]
        dsimp only
        rw [after, source.cut?_end stop, Option.bind_some, ahead, fence.stop?_first source marks least,
          left, Fence.stop?_succ, Fence.closesAt, stands, Bool.true_and]
        by_cases more : source.chars[first + 1 + marks.length]? = some fence.mark
        · have close := source.char_of_holdsAt stands
          have room_eq : room = source.size - (first + 1) := by omega
          rw [if_pos (beq_iff_eq.mpr more), if_neg (by simp [more]), counted, source.offset_succ close,
            room_eq]
          exact ih (by omega) (by omega)
        · rw [if_neg (by simp [more]), if_pos (by simp [more])]
          rfl

theorem marks?_offset (fence : Fence) {m : Match} {pos limit : Nat} (within : m.Within pos limit)
    (inside : m.stop ≤ source.size) :
    marks? source fence (m.inBytes source) = some (fence.marks source m) := by
  rw [marks?, Fence.marks, group?_inBytes]
  cases took : m.group? fence.group with
  | none => rfl
  | some group =>
      obtain ⟨_, ordered, stops⟩ := within.group took
      exact source.cut?_offset ordered (Nat.le_trans stops inside)

theorem fenceMatch?_offset (fence : Fence) (opener : Program) {pos : Nat} (inside : pos ≤ source.size) :
    fenceMatch? source fence opener (source.offset pos) =
      some ((fence.match? opener source pos).map source.offset) := by
  have matched : matchIn? source opener (source.offset pos) source.bytes = _ :=
    matchIn?_offset source opener inside (Nat.le_refl _)
  rw [fenceMatch?, matched, Fence.match?]
  simp only [Option.bind_eq_bind, Option.bind_some]
  cases found : opener.match? source.chars pos source.size with
  | none => rfl
  | some m =>
      have stops := (Program.match?_bounds inside found).2
      have fuelled : source.size - m.stop < source.bytes - source.offset m.stop + 1 :=
        Nat.lt_succ_of_le (source.sub_le_offset stops (Nat.le_refl _))
      rw [Option.map_some]
      dsimp only
      rw [marks?_offset source fence (Program.match?_within found) stops, Option.bind_some]
      exact fenceStop?_offset source fence (fence.marks source m) _ stops fuelled

theorem textStop?_offset (rule : SingleRule) {pos : Nat} (inside : pos ≤ source.size) :
    textStop? source rule (source.offset pos) =
      some ((rule.textStop? source pos).map source.offset) := by
  rw [textStop?, SingleRule.textStop?]
  cases rule.fence with
  | none => exact stopIn?_offset source rule.opener inside (Nat.le_refl _)
  | some fence => exact fenceMatch?_offset source fence rule.opener inside

theorem singleStop?_offset (rule : SingleRule) {pos : Nat} (inside : pos ≤ source.size) :
    singleStop? source rule (source.offset pos) = some ((rule.stop? source pos).map source.offset) := by
  rw [singleStop?, textStop?_offset source rule inside, SingleRule.stop?]
  simp only [Option.bind_eq_bind, Option.bind_some]
  cases text : rule.textStop? source pos with
  | none => rfl
  | some stop =>
      obtain ⟨ordered, stops⟩ := SingleRule.textStop?_bounds inside text
      have empty : source.offset stop = source.offset pos ↔ stop = pos :=
        ⟨source.offset_injective stops inside, congrArg source.offset⟩
      have spelling : String.ofList (source.part pos stop) = source.slice pos stop := rfl
      rw [Option.map_some]
      dsimp only
      rw [source.cut?_offset ordered stops, Option.bind_some, spelling, Option.filter_some,
        SingleRule.accepts]
      simp only [empty]
      by_cases refused : stop = pos ∨ rule.excluded.contains (source.slice pos stop) = true
      · have rejected : (decide (pos < stop) && !rule.excluded.contains (source.slice pos stop)) = false := by
          rcases refused with rfl | listed
          · rw [decide_eq_false (Nat.lt_irrefl _), Bool.false_and]
          · rw [listed, Bool.not_true, Bool.and_false]
        rw [if_pos refused, rejected, Bool.false_and, if_neg Bool.false_ne_true]
        rfl
      · obtain ⟨some, unlisted⟩ := not_or.mp refused
        have proper : pos < stop := Nat.lt_of_le_of_ne ordered (Ne.symm some)
        rw [if_neg refused, decide_eq_true proper, Bool.eq_false_iff.mpr unlisted, Bool.not_false,
          Bool.and_self, Bool.true_and]
        cases rule.followedBy with
        | none => rfl
        | some lookahead =>
            have ahead : stopIn? source lookahead (source.offset stop) source.bytes = _ :=
              stopIn?_offset source lookahead stops (Nat.le_refl _)
            dsimp only
            rw [ahead, Option.bind_some, Option.all_some]
            cases lookahead.stop? source.chars stop source.size <;> rfl

theorem locate_inBytes (rule : PartsRule) (m : Match) :
    rule.locate (m.inBytes source) = (rule.locate m).map (·.inBytes source) := by
  rw [PartsRule.locate, PartsRule.locate, List.map_map]
  apply List.map_congr_left
  rintro ⟨number, scope⟩ _
  dsimp only [Function.comp_apply]
  rw [group?_inBytes]
  cases m.group? number with
  | none => rw [Option.map_none, Part.inBytes, source.offset_zero]
  | some group => rfl

/-- Trying a rule at the offset of a place finds what trying it at the place does. -/
theorem tryRule?_offset {pos : Nat} (inside : pos ≤ source.size) (index : Nat) (rule : Rule) :
    tryRule? source (source.offset pos) index rule =
      some ((rule.match? source pos index).map (·.inBytes source)) := by
  cases rule with
  | single rule =>
      rw [tryRule?, singleStop?_offset source rule inside, Rule.match?]
      cases rule.stop? source pos <;> rfl
  | parts rule =>
      have matched : matchIn? source rule.pattern (source.offset pos) source.bytes = _ :=
        matchIn?_offset source rule.pattern inside (Nat.le_refl _)
      rw [tryRule?, matched, Rule.match?]
      cases found : rule.pattern.match? source.chars pos source.size with
      | none => rfl
      | some m =>
          obtain ⟨least, stops⟩ := Program.match?_bounds inside found
          have empty : source.offset m.stop = source.offset pos ↔ m.stop = pos :=
            ⟨source.offset_injective stops inside, congrArg source.offset⟩
          rw [Option.map_some, Option.bind_eq_bind, Option.bind_some]
          dsimp only
          rw [locate_inBytes, Match.inBytes]
          by_cases proper : pos < m.stop
          · rw [if_pos proper, if_neg (mt empty.mp (by omega))]
            rfl
          · rw [if_neg proper, if_pos (empty.mpr (by omega))]
            rfl
  | container rule =>
      have opened : stopIn? source rule.opener (source.offset pos) source.bytes = _ :=
        stopIn?_offset source rule.opener inside (Nat.le_refl _)
      have nearby : ∀ found ∈ rule.opener.stop? source.chars pos source.size, found ≤ source.size :=
        fun found ends => (Program.stop?_bounds inside ends).2
      rw [tryRule?, opened, Option.bind_eq_bind, Option.bind_some, filter_offset source nearby, Rule.match?]
      cases (rule.opener.stop? source.chars pos source.size).filter (pos < ·) <;> rfl

theorem firstOf?_offset (highlighter : Highlighter) {pos : Nat} (inside : pos ≤ source.size)
    {indices : List Nat} (listed : ∀ index ∈ indices, index < highlighter.rules.size) :
    firstOf? source highlighter (source.offset pos) indices =
      some ((highlighter.firstMatch? source pos indices).map (·.inBytes source)) := by
  induction indices with
  | nil => rfl
  | cons index rest ih =>
      obtain ⟨here, others⟩ := List.forall_mem_cons.mp listed
      have known := Array.getElem?_eq_getElem here
      rw [firstOf?, known, Highlighter.firstMatch?, known]
      simp only [Option.bind_eq_bind, Option.bind_some]
      rw [tryRule?_offset source inside, Option.bind_some]
      cases highlighter.rules[index].match? source pos index with
      | some found => rfl
      | none => exact ih others

end Checked

end Highlighting
