import Highlighting.Proofs.Checked.Matching
import Highlighting.Proofs.Scan.Halting
import Highlighting.Proofs.Tree.Fitting

/-! # Sorting bytes into words

Words are sorted here at byte offsets, and every piece of text that is looked at is cut out of the
source. Where a cut cannot be made, there is no result. It is shown that there always is one, and that it
is what sorting by places gives. -/
set_option autoImplicit false
namespace Highlighting

/-- The same nodes and the same end, in bytes. -/
def Sorting.inBytes (source : Source) (sorting : Sorting) : Sorting :=
  { sorting with nodes := Node.inBytesAll source sorting.nodes, last := source.offset sorting.last }

theorem Sorting.Filled.allFit {sorting : Sorting} {first place limit : Nat}
    (filled : sorting.Filled first place) (inside : place ≤ limit) : Node.AllFit limit sorting.nodes := by
  have fits := filled.fills.allFit (Nat.le_trans filled.last_le inside)
  intro node member
  exact fits node (List.mem_reverse.mpr member)

namespace WordTable
variable (table : WordTable) (source : Source) (stop : Nat)

theorem sortRound?_filled {first place later : Nat} {sorting next : Sorting}
    (goes : table.sortRound? source stop (place, sorting) = some (later, next))
    (filled : sorting.Filled first place) : next.Filled first later := by
  have moved := (table.sortRound?_advances source stop goes).1
  rw [sortRound?] at goes
  split at goes
  · cases goes
  · split at goes
    · cases goes
      exact filled.later (Nat.le_of_lt moved)
    · split at goes
      · dsimp only at goes
        split at goes <;> cases goes
        · exact filled.mark moved _ _
        · exact filled.later (Nat.le_of_lt moved)
      · split at goes <;> cases goes
        · exact filled.mark moved _ _
        · exact filled.later (Nat.le_of_lt moved)

end WordTable

namespace Checked
variable (source : Source)

def lookUp? (table : WordTable) (first last : Nat) : Option (Option Scope × Nat) := do
  let word ← source.cut? first last
  match table.scope? (String.ofList word) with
  | some scope => return (some scope, last)
  | none =>
      if 1 < last - first && word.getLast? == some '!' then
        let shorter ← source.cut? first (last - 1)
        return (table.scope? (String.ofList shorter), last - 1)
      else return (none, last)

/-- Marks a candidate if it is known. Gives the place behind the word and what is sorted then. -/
def takeWord? (table : WordTable) (place candidate : Nat) (sorting : Sorting) :
    Option (Nat × Sorting) := do
  let (scope, stop) ← lookUp? source table place candidate
  match scope with
  | some scope =>
      let word ← source.cut? place stop
      let worth := if scope = .operator ∨ String.ofList word ∈ commonWords then 0 else 1
      return (stop, sorting.mark scope place stop worth)
  | none => return (stop, sorting)

/-- Goes on from a place before the end. Gives the later place and what is sorted then. -/
def sortTurn? (table : WordTable) (stop place : Nat) (sorting : Sorting) : Option (Nat × Sorting) := do
  let before ← source.cut? 0 place
  let behind ← source.cut? place source.bytes
  if before.getLast?.any Unicode.isIdentifier && behind.head?.any Unicode.isIdentifier then
    let run ← source.cut? place stop
    return ((firstIndex? (!Unicode.isIdentifier ·) run).elim stop (place + ·), sorting)
  else
    match (← stopIn? source table.pattern place stop).filter (place < ·) with
    | some candidate => takeWord? source table place candidate sorting
    | none =>
        match (← stopOf? source table.operators place stop).filter (place < ·) with
        | some operatorStop => return (operatorStop, sorting.mark .operator place operatorStop 0)
        | none =>
            let c ← behind.head?
            return (place + c.utf8Size, sorting)

/-- Sorts from byte `place` to byte `stop`. There is no result if the fuel is used up on the way. -/
def sortFrom? (table : WordTable) (stop : Nat) : Nat → Nat → Sorting → Option Sorting
  | 0, place, sorting => if stop ≤ place then some sorting else none
  | fuel + 1, place, sorting =>
      if stop ≤ place then some sorting
      else do
        let (later, next) ← sortTurn? source table stop place sorting
        sortFrom? table stop fuel later next

def sort? (table : WordTable) (start stop : Nat) : Option Sorting := do
  let sorted ← sortFrom? source table stop (stop - start) start { last := start }
  return sorted.finish stop

/-! ## Words -/

/-- The exclamation mark that is left out takes one byte. -/
theorem offset_mark {first last : Nat} (before : first < last)
    (mark : source.chars[last - 1]? = some '!') : source.offset last - 1 = source.offset (last - 1) := by
  have width := source.offset_succ mark
  have one : ('!' : Char).utf8Size = 1 := rfl
  rw [Nat.sub_add_cancel (Nat.one_le_of_lt before), one] at width
  omega

theorem lookUp?_offset (table : WordTable) {first last : Nat} (before : first < last)
    (inside : last ≤ source.size) :
    lookUp? source table (source.offset first) (source.offset last) =
      some ((table.lookUp source first last).1, source.offset (table.lookUp source first last).2) := by
  have word := source.cut?_offset (Nat.le_of_lt before) inside
  have spelling : String.ofList (source.part first last) = source.slice first last := rfl
  simp only [lookUp?, word, Option.bind_eq_bind, Option.bind_some, spelling, WordTable.lookUp]
  cases known : table.scope? (source.slice first last) with
  | some scope => rfl
  | none =>
      dsimp only
      rw [source.part_getLast? before inside]
      by_cases mark : source.chars[last - 1]? = some '!'
      · have width := offset_mark source before mark
        -- The mark is one byte, so there is more than it exactly if there is more than one character.
        have longer : 1 < source.offset last - source.offset first ↔ 1 < last - first := by
          have least : first ≤ last - 1 := Nat.le_sub_one_of_lt before
          have beyond : source.offset first < source.offset (last - 1) ↔ first < last - 1 :=
            source.offset_lt_iff (Nat.lt_of_lt_of_le before inside)
          have whole := source.offset_lt before inside
          omega
        have enough : decide (1 < source.offset last - source.offset first) = decide (1 < last - first) :=
          decide_eq_decide.mpr longer
        rw [enough, mark]
        by_cases long : 1 < last - first
        · have least : first ≤ last - 1 := Nat.le_sub_one_of_lt before
          have shorter := source.cut?_offset least (Nat.le_trans (Nat.sub_le last 1) inside)
          rw [decide_eq_true long, width, shorter]
          rfl
        · rw [decide_eq_false long]
          rfl
      · have other : (source.chars[last - 1]? == some '!') = false := beq_eq_false_iff_ne.mpr mark
        rw [other, Bool.and_false, Bool.and_false]
        rfl

/-! ## Turns -/

theorem insideIdentifier_eq {place : Nat} (before : place < source.size) :
    WordTable.insideIdentifier source place =
      ((source.part 0 place).getLast?.any Unicode.isIdentifier &&
        (source.part place source.size).head?.any Unicode.isIdentifier) := by
  rw [source.part_head? before, WordTable.insideIdentifier]
  rcases Nat.eq_zero_or_pos place with rfl | proper
  · rw [source.part_self]
    rfl
  · rw [source.part_getLast? proper (Nat.le_of_lt before), decide_eq_true proper, Bool.true_and]

variable {source} {first place : Nat} {sorting : Sorting}

theorem mark_inBytes (filled : sorting.Filled first place) {stop : Nat} (proper : place < stop)
    (inside : stop ≤ source.size) (scope : Scope) (worth : Nat) :
    (sorting.inBytes source).mark scope (source.offset place) (source.offset stop) worth =
      (sorting.mark scope place stop worth).inBytes source := by
  have here : place ≤ source.size := Nat.le_of_lt (Nat.lt_of_lt_of_le proper inside)
  have fit := filled.allFit here
  have text : (Node.text sorting.last place).Pushable source.size :=
    ⟨Nat.le_trans filled.last_le here, here⟩
  have leaf := (Node.leaf_fits (Nat.le_of_lt proper) inside scope).pushable
  have before := Node.push_inBytes source fit text
  have both := Node.push_inBytes source (Node.push_fits fit text) leaf
  rw [← before] at both
  exact congrArg
    (Sorting.mk · (source.offset stop) (sorting.hits + 1) (sorting.relevance + worth)) both

theorem finish_inBytes (filled : sorting.Filled first place) (inside : place ≤ source.size) :
    (sorting.inBytes source).finish (source.offset place) = (sorting.finish place).inBytes source := by
  have text : (Node.text sorting.last place).Pushable source.size :=
    ⟨Nat.le_trans filled.last_le inside, inside⟩
  exact congrArg (Sorting.mk · (source.offset place) sorting.hits sorting.relevance)
    (Node.push_inBytes source (filled.allFit inside) text)

theorem takeWord?_offset (table : WordTable) {candidate : Nat} (proper : place < candidate)
    (inside : candidate ≤ source.size) (filled : sorting.Filled first place) :
    takeWord? source table (source.offset place) (source.offset candidate) (sorting.inBytes source) =
      some (match table.lookUp source place candidate with
        | (some scope, stop) =>
            (source.offset stop,
              (sorting.mark scope place stop (WordTable.worth source scope place stop)).inBytes source)
        | (none, stop) => (source.offset stop, sorting.inBytes source)) := by
  have inner := table.lookUp_bounds source proper
  have ends := Nat.le_trans inner.2 inside
  rw [takeWord?, lookUp?_offset source table proper inside]
  simp only [Option.bind_eq_bind, Option.bind_some]
  generalize table.lookUp source place candidate = word at inner ends ⊢
  obtain ⟨scope, stop⟩ := word
  cases scope with
  | none => rfl
  | some scope =>
      have spelled := source.cut?_offset (Nat.le_of_lt inner.1) ends
      dsimp only
      rw [spelled, Option.bind_some, mark_inBytes filled inner.1 ends]
      rfl

/-- A round before the end gives the same in bytes. -/
theorem sortTurn?_offset (table : WordTable) {stop : Nat} (proper : place < stop)
    (inside : stop ≤ source.size) (filled : sorting.Filled first place) :
    ∃ later next, table.sortRound? source stop (place, sorting) = some (later, next) ∧
      sortTurn? source table (source.offset stop) (source.offset place) (sorting.inBytes source) =
        some (source.offset later, next.inBytes source) := by
  have within : place < source.size := Nat.lt_of_lt_of_le proper inside
  have ordered := Nat.le_of_lt proper
  have nearby : ∀ {program : Program}, ∀ found ∈ program.stop? source.chars place stop,
      found ≤ source.size := by
    intro program found ends
    have reach := (Program.stop?_within ends).2
    omega
  have nearbyOperator : ∀ found ∈ table.operators.bind (·.stop? source.chars place stop),
      found ≤ source.size := by
    intro found ends
    obtain ⟨program, _, ends⟩ := Option.bind_eq_some_iff.mp ends
    exact nearby found ends
  rw [sortTurn?, source.cut?_start (Nat.le_of_lt within), source.cut?_end (Nat.le_of_lt within),
    WordTable.sortRound?, if_neg (Nat.not_le.mpr proper), insideIdentifier_eq source within]
  simp only [Option.bind_eq_bind, Option.bind_some]
  split
  · have passed := source.offset_skip Unicode.isIdentifier inside (stop - place) ordered (Nat.le_refl _)
    rw [source.cut?_offset ordered inside, Option.bind_some, ← passed]
    exact ⟨_, _, rfl, rfl⟩
  rw [stopIn?_offset source table.pattern ordered inside, Option.bind_some, filter_offset source nearby]
  cases word : (table.pattern.stop? source.chars place stop).filter (place < ·) with
  | some candidate =>
      have bounds := WordTable.proper_bounds source proper word
      rw [Option.map_some]
      dsimp only
      rw [takeWord?_offset table bounds.1 (Nat.le_trans bounds.2 inside) filled]
      obtain ⟨scope, wordStop⟩ := table.lookUp source place candidate
      cases scope <;> exact ⟨_, _, rfl, rfl⟩
  | none =>
      rw [Option.map_none]
      dsimp only
      rw [stopOf?_offset source table.operators ordered inside, Option.bind_some,
        filter_offset source nearbyOperator]
      cases operator : (table.operators.bind (·.stop? source.chars place stop)).filter (place < ·) with
      | some operatorStop =>
          have bounds := table.operator_bounds source proper operator
          have marked := mark_inBytes filled bounds.1 (Nat.le_trans bounds.2 inside) .operator 0
          exact ⟨_, _, rfl, congrArg (fun next => some (source.offset operatorStop, next)) marked⟩
      | none =>
          have char := Array.getElem?_eq_getElem within
          rw [Option.map_none]
          dsimp only
          rw [source.part_head? within, char, Option.bind_some, source.offset_succ char]
          exact ⟨_, _, rfl, rfl⟩

/-- As every turn passes a character, fuel for the characters that are left is enough. -/
theorem sortFrom?_offset (table : WordTable) {first stop : Nat} (inside : stop ≤ source.size)
    (fuel : Nat) :
    ∀ {room place : Nat} {sorting : Sorting}, place ≤ stop → stop - place ≤ fuel →
      stop - place ≤ room → sorting.Filled first place →
        sortFrom? source table (source.offset stop) fuel (source.offset place)
            (sorting.inBytes source) =
          some ((table.sortFrom source stop room place sorting).inBytes source) := by
  have ended : ∀ (room : Nat) (sorting : Sorting),
      table.sortFrom source stop room stop sorting = sorting := by
    intro room sorting
    cases room with
    | zero => rfl
    | succ room => rw [WordTable.sortFrom, if_pos (Nat.le_refl stop)]
  induction fuel with
  | zero =>
      intro room place sorting ordered fuelled enough filled
      obtain rfl : place = stop := by omega
      rw [sortFrom?, if_pos (Nat.le_refl _), ended]
  | succ fuel ih =>
      intro room place sorting ordered fuelled enough filled
      rcases Nat.eq_or_lt_of_le ordered with rfl | proper
      · rw [sortFrom?, if_pos (Nat.le_refl _), ended]
      · obtain ⟨room, rfl⟩ : ∃ left, room = left + 1 :=
          Nat.exists_eq_add_one_of_ne_zero (by omega)
        have notDone : ¬ source.offset stop ≤ source.offset place :=
          Nat.not_le.mpr (source.offset_lt proper inside)
        obtain ⟨later, next, goes, turned⟩ := sortTurn?_offset table proper inside filled
        obtain ⟨moved, ends⟩ := table.sortRound?_advances source stop goes
        rw [sortFrom?, if_neg notDone, turned, table.sortFrom_succ source stop, goes]
        exact ih ends (by omega) (by omega) (table.sortRound?_filled source stop goes filled)

theorem sort?_offset (table : WordTable) {start stop : Nat} (ordered : start ≤ stop)
    (inside : stop ≤ source.size) :
    sort? source table (source.offset start) (source.offset stop) =
      some ((table.sort source start stop).inBytes source) := by
  have nothing : ({ last := start } : Sorting).Filled start start :=
    ⟨Node.Fills.nil start, Nat.le_refl start⟩
  have sorted : sortFrom? source table (source.offset stop) (source.offset stop - source.offset start)
      (source.offset start) { last := source.offset start } = _ :=
    sortFrom?_offset table inside _ ordered (source.sub_le_offset ordered inside)
      (Nat.le_refl (stop - start)) nothing
  rw [sort?, sorted]
  exact congrArg some (finish_inBytes (table.sortFrom_filled source _ _ _ ordered nothing) inside)

end Checked

end Highlighting
