import Highlighting.Proofs.Scan.Sorting
import Highlighting.Proofs.Scan.Turns
import Highlighting.Proofs.Text.Offsets

/-! # Scans end

A loop whose body uses something up in every round ends, and it takes no more rounds than there was to
use up. The turns of a scan are such a loop, and so are the sorting of a stretch into words and the
search for the closer of a fence: none of them is cut off by the number of rounds that it is given. A
match takes a character at least, as plain text does, so that together they are no more than the
characters of the source. -/
set_option autoImplicit false
namespace Highlighting

namespace Loop
variable {State : Type} (body : State → Option State)

/-- So many rounds, or fewer if the loop ends before. The body gives nothing where the loop ends. -/
def run : Nat → State → State
  | 0, state => state
  | room + 1, state =>
      match body state with
      | none => state
      | some next => run room next

/-- The loop ends at `last` after exactly so many rounds. -/
inductive Ends : Nat → State → State → Prop where
  | here {last : State} (ended : body last = none) : Ends 0 last last
  | round {count : Nat} {state next last : State} (goes : body state = some next)
      (ends : Ends count next last) : Ends (count + 1) state last

variable {body}

/-- Rounds that are enough come to where the loop ends. -/
theorem Ends.run_eq {count : Nat} {state last : State} (ends : Ends body count state last) :
    ∀ {room : Nat}, count ≤ room → run body room state = last := by
  induction ends with
  | here ended =>
      intro room _
      cases room with
      | zero => rfl
      | succ room => simp only [run, ended]
  | round goes ends ih =>
      intro room enough
      obtain ⟨room, rfl⟩ : ∃ fewer, room = fewer + 1 :=
        Nat.exists_eq_add_one_of_ne_zero (by omega)
      simp only [run, goes]
      exact ih (Nat.le_of_succ_le_succ enough)

/-- A loop ends if every round keeps the invariant and uses something up. -/
theorem exists_ends (holds : State → Prop) (left : State → Nat)
    (uses : ∀ {state next : State}, holds state → body state = some next →
      holds next ∧ left next < left state) :
    ∀ {state : State}, holds state → ∃ count ≤ left state, ∃ last, Ends body count state last ∧ holds last := by
  intro state
  induction rest : left state using Nat.strongRecOn generalizing state with
  | ind rest ih =>
      subst rest
      intro kept
      cases goes : body state with
      | none => exact ⟨0, Nat.zero_le _, state, .here goes, kept⟩
      | some next =>
          obtain ⟨keptNext, less⟩ := uses kept goes
          obtain ⟨count, fewer, last, ends, keptLast⟩ := ih (left next) less rfl keptNext
          exact ⟨count + 1, by omega, last, .round goes ends, keptLast⟩

end Loop

/-! ## The loops inside a turn -/

namespace Source
variable (source : Source) (test : Char → Bool) {stop : Nat}

theorem skip_proper {place : Nat} (proper : place < stop)
    (here : source.chars[place]?.any test = true) :
    place < source.skip test stop (stop - place) place := by
  obtain ⟨room, left⟩ : ∃ room, stop - place = room + 1 :=
    Nat.exists_eq_add_one_of_ne_zero (by omega)
  rw [left, skip, if_pos (by simp [proper, here])]
  exact (source.skip_bounds test room proper).1

end Source

namespace WordTable
variable (table : WordTable) (source : Source) (stop : Nat)

/-- One round of the sorting, from a place on with what has been sorted up to it. -/
def sortRound? : Nat × Sorting → Option (Nat × Sorting)
  | (place, sorting) =>
      if stop ≤ place then none
      else if insideIdentifier source place then
        some (source.skip Unicode.isIdentifier stop (stop - place) place, sorting)
      else
        match (table.pattern.stop? source.chars place stop).filter (place < ·) with
        | some candidate =>
            let (scope, wordStop) := table.lookUp source place candidate
            match scope with
            | some scope =>
                some (wordStop, sorting.mark scope place wordStop (worth source scope place wordStop))
            | none => some (wordStop, sorting)
        | none =>
            match (table.operators.bind (·.stop? source.chars place stop)).filter (place < ·) with
            | some operatorStop =>
                some (operatorStop, sorting.mark .operator place operatorStop 0)
            | none => some (place + 1, sorting)

theorem sortFrom_succ (room place : Nat) (sorting : Sorting) :
    table.sortFrom source stop (room + 1) place sorting =
      match table.sortRound? source stop (place, sorting) with
      | none => sorting
      | some (later, sorted) => table.sortFrom source stop room later sorted := by
  rw [sortFrom.eq_def, sortRound?]
  dsimp only
  by_cases ended : stop ≤ place
  · rw [if_pos ended, if_pos ended]
  · rw [if_neg ended, if_neg ended]
    by_cases inside : insideIdentifier source place = true
    · rw [if_pos inside, if_pos inside]
    · rw [if_neg inside, if_neg inside]
      cases (table.pattern.stop? source.chars place stop).filter (place < ·) with
      | some candidate =>
          dsimp only
          cases (table.lookUp source place candidate).1 <;> rfl
      | none =>
          cases (table.operators.bind (·.stop? source.chars place stop)).filter (place < ·) <;> rfl

theorem sortFrom_eq_run (room : Nat) :
    ∀ (place : Nat) (sorting : Sorting), table.sortFrom source stop room place sorting =
      (Loop.run (table.sortRound? source stop) room (place, sorting)).2 := by
  induction room with
  | zero => intro place sorting; rfl
  | succ room ih =>
      intro place sorting
      rw [sortFrom_succ, Loop.run]
      cases table.sortRound? source stop (place, sorting) with
      | none => rfl
      | some next => exact ih next.1 next.2

/-- Every round of the sorting passes a character and stays in the stretch. -/
theorem sortRound?_advances {place later : Nat} {sorting sorted : Sorting}
    (goes : table.sortRound? source stop (place, sorting) = some (later, sorted)) :
    place < later ∧ later ≤ stop := by
  rw [sortRound?] at goes
  split at goes
  · exact nomatch goes
  · next before =>
      have proper : place < stop := Nat.not_le.mp before
      split at goes
      · next inside =>
          cases goes
          have here := (Bool.and_eq_true_iff.mp inside).2
          exact ⟨source.skip_proper Unicode.isIdentifier proper here,
            (source.skip_bounds Unicode.isIdentifier _ (Nat.le_of_lt proper)).2⟩
      · split at goes
        · next candidate found =>
            have bounds := proper_bounds source proper found
            have word := table.lookUp_bounds source bounds.1
            dsimp only at goes
            split at goes <;> cases goes <;> exact ⟨word.1, Nat.le_trans word.2 bounds.2⟩
        · split at goes
          · next operatorStop found =>
              cases goes
              exact table.operator_bounds source proper found
          · cases goes
            exact ⟨Nat.lt_succ_self place, proper⟩

/-- The sorting of a stretch ends, in no more rounds than the stretch has characters. -/
theorem sort_ends {start : Nat} (ordered : start ≤ stop) :
    ∃ count ≤ stop - start, ∃ last,
      Loop.Ends (table.sortRound? source stop) count (start, { last := start }) last ∧
        table.sort source start stop = last.2.finish stop := by
  have uses : ∀ {state next : Nat × Sorting}, state.1 ≤ stop →
      table.sortRound? source stop state = some next →
        next.1 ≤ stop ∧ stop - next.1 < stop - state.1 := by
    intro state next inside goes
    have advances : state.1 < next.1 ∧ next.1 ≤ stop := table.sortRound?_advances source stop goes
    omega
  have begins : ((start, { last := start }) : Nat × Sorting).1 ≤ stop := ordered
  obtain ⟨count, fewer, last, ends, _⟩ :=
    Loop.exists_ends (fun state : Nat × Sorting => state.1 ≤ stop) (fun state => stop - state.1) uses
      begins
  refine ⟨count, fewer, last, ends, ?_⟩
  rw [sort, sortFrom_eq_run, ends.run_eq fewer]

end WordTable

namespace Fence
variable (fence : Fence) (source : Source) (marks : List Char)

/-- One round of the search for a closer, which goes on at the next place. -/
def searchRound? (place : Nat) : Option Nat :=
  if fence.closesAt source marks place then none
  else if place < source.size then some (place + 1)
  else none

theorem stop?_eq_run (room : Nat) :
    ∀ {place : Nat}, place + room = source.size →
      fence.stop? source marks room place =
        let last := Loop.run (fence.searchRound? source marks) room place
        if fence.closesAt source marks last then some (last + 1 + marks.length) else none := by
  induction room with
  | zero => intro place _; exact fence.stop?_zero source marks place
  | succ room ih =>
      intro place whole
      rw [stop?_succ, Loop.run, searchRound?]
      by_cases closes : fence.closesAt source marks place = true
      · simp only [if_pos closes]
      · have inside : place < source.size := by omega
        simp only [if_neg closes, if_pos inside]
        exact ih (by omega)

/-- The search for a closer ends, at a closer or at the end of the source. -/
theorem stop?_ends {place : Nat} (inside : place ≤ source.size) :
    ∃ count ≤ source.size - place, ∃ last,
      Loop.Ends (fence.searchRound? source marks) count place last ∧
        fence.stop? source marks (source.size - place) place =
          if fence.closesAt source marks last then some (last + 1 + marks.length) else none := by
  have uses : ∀ {state next : Nat}, state ≤ source.size →
      fence.searchRound? source marks state = some next →
        next ≤ source.size ∧ source.size - next < source.size - state := by
    intro state next _ goes
    unfold searchRound? at goes
    split at goes
    · exact nomatch goes
    · split at goes
      · cases goes
        omega
      · exact nomatch goes
  obtain ⟨count, fewer, last, ends, _⟩ :=
    Loop.exists_ends (· ≤ source.size) (fun state => source.size - state) uses inside
  refine ⟨count, fewer, last, ends, ?_⟩
  rw [fence.stop?_eq_run source marks (source.size - place) (by omega), ends.run_eq fewer]

end Fence

/-! ## The turns of a scan -/

namespace Highlighter
variable {highlighter : Highlighter} {source : Source} {scan : Scan}

/-- A turn is a round of the main loop, which ends at the end of the source or at illegal text. -/
def turn? (highlighter : Highlighter) (source : Source) :
    Except Refusal Scan → Option (Except Refusal Scan)
  | .ok scan => if scan.pos < source.size then some (highlighter.step source scan) else none
  | .error _ => none

theorem turns_eq_run (count : Nat) :
    ∀ scan : Scan, highlighter.turns source count scan =
      Loop.run (highlighter.turn? source) count (.ok scan) := by
  induction count with
  | zero => intro scan; rfl
  | succ count ih =>
      intro scan
      by_cases inside : scan.pos < source.size
      · rw [turns_succ count inside, Loop.run, turn?, if_pos inside]
        cases highlighter.step source scan with
        | ok next => exact ih next
        | error refusal => cases count <;> rfl
      · rw [turns_of_end _ (Nat.not_lt.mp inside), Loop.run, turn?, if_neg inside]

theorem take_pos (ready : scan.Ready source) (found : Found) :
    (highlighter.take source scan found).pos = found.stop := by
  cases found with
  | single index rule stop =>
      rw [take_single highlighter source ready.pending_le, Scan.note_pos, Scan.pass_pos]
      rfl
  | parts index rule stop parts =>
      rw [take_parts highlighter source ready.pending_le, Scan.note_pos, Scan.pass_pos]
      rfl
  | container index rule stop =>
      rw [take_container highlighter source ready.pending_le, Scan.note_pos, Scan.goInto_pos]
      rfl

/-- A turn that does not refuse moves on or closes a container. -/
theorem step_advances {next : Scan} (ready : scan.Ready source)
    (turned : highlighter.step source scan = .ok next) :
    scan.pos < next.pos ∨
      scan.pos ≤ next.pos ∧ next.containers.length + 1 = scan.containers.length := by
  rcases step_cases turned with ⟨found, first, rfl⟩ | ⟨stop, closes, rfl⟩ | rfl
  · rw [take_pos ready]
    exact .inl (firstMatch?_bounds ready.pos_le first).1
  · obtain ⟨inner, outer, opened, _⟩ := closerStop?_opened closes
    have forth := (closerStop?_bounds ready.pos_le closes).1
    refine .inr ?_
    rw [closed_eq (Nat.le_trans ready.pending_le forth) opened, Scan.note_pos, Scan.note_containers,
      Scan.goOut_pos, Scan.goOut_depth, Scan.pass_pos, opened, List.length_cons]
    exact ⟨forth, rfl⟩
  · exact .inl (Nat.lt_succ_self scan.pos)

theorem turns_advance {count more : Nat} {last : Scan}
    (reached : highlighter.turns source count {} = .ok scan)
    (turned : highlighter.turns source (count + more) {} = .ok last) : scan.pos ≤ last.pos := by
  induction more generalizing last with
  | zero =>
      rw [Nat.add_zero, reached] at turned
      cases turned
      exact Nat.le_refl scan.pos
  | succ more ih =>
      rw [← Nat.add_assoc, turns_last] at turned
      cases between : highlighter.turns source (count + more) {} with
      | error refusal =>
          rw [between] at turned
          exact nomatch turned
      | ok middle =>
          rw [between] at turned
          change highlighter.turns source 1 middle = .ok last at turned
          have ready : middle.Ready source := Reaches.ready ⟨_, between⟩
          refine Nat.le_trans (ih between) ?_
          by_cases inside : middle.pos < source.size
          · rw [turns_succ 0 inside] at turned
            split at turned
            · next next stepped =>
                cases turned
                have advances := step_advances ready stepped
                omega
            · exact nomatch turned
          · rw [turns_of_end _ (Nat.not_lt.mp inside)] at turned
            cases turned
            exact Nat.le_refl _

/-- The main loop ends, in no more turns than twice the characters of the source. -/
theorem run_ends (highlighter : Highlighter) (source : Source) :
    ∃ count ≤ 2 * source.size, ∃ last,
      Loop.Ends (highlighter.turn? source) count (.ok {}) last ∧
        highlighter.run source = last.map (highlighter.finish source) := by
  let ready : Except Refusal Scan → Prop := fun state => ∀ scan, state = .ok scan → scan.Ready source
  let left : Except Refusal Scan → Nat := fun
    | .ok scan => scan.weight source
    | .error _ => 0
  have uses : ∀ {state next : Except Refusal Scan}, ready state →
      highlighter.turn? source state = some next → ready next ∧ left next < left state := by
    intro state next kept goes
    cases state with
    | error refusal => exact nomatch goes
    | ok scan =>
        obtain ⟨inside, turned⟩ := Option.ite_none_right_eq_some.mp goes
        cases Option.some.inj turned
        cases stepped : highlighter.step source scan with
        | ok next =>
            obtain ⟨readyNext, less⟩ := step_ready (kept scan rfl) inside stepped
            refine ⟨?_, less⟩
            rintro other ⟨⟩
            exact readyNext
        | error refusal =>
            refine ⟨(fun _ absurdity => nomatch absurdity), ?_⟩
            simp only [left, Scan.weight]
            omega
  have begins : ready (.ok {}) := by
    rintro scan ⟨⟩
    exact Scan.ready_start source
  obtain ⟨count, fewer, last, ends, _⟩ := Loop.exists_ends ready left uses begins
  refine ⟨count, fewer, last, ends, ?_⟩
  have turned : highlighter.turns source (2 * source.size) {} = last :=
    (turns_eq_run _ {}).trans (ends.run_eq fewer)
  rw [run, turned]
  cases last <;> rfl

/-! ## What is counted -/

end Highlighter

namespace Stats

/-- How many characters are known to have been used up: one by each match, and the plain ones. -/
def used (stats : Stats) : Nat :=
  stats.ruleMatches + stats.plainChars

theorem used_add (left right : Stats) : (left + right).used = left.used + right.used := by
  simp only [used, add_def]
  omega

end Stats

namespace Yield

@[simp] theorem used_append (left right : Yield) :
    (left ++ right).stats.used = left.stats.used + right.stats.used :=
  Stats.used_add left.stats right.stats

@[simp] theorem used_ofText (source : Source) (table : Option WordTable) (start stop : Nat) :
    (ofText source table start stop).stats.used = 0 := by
  cases table <;> rfl

@[simp] theorem used_ofMatch (relevance : Nat) : (ofMatch relevance).stats.used = 1 := rfl

@[simp] theorem used_ofSingle (source : Source) (rule : SingleRule) (start stop : Nat) :
    (ofSingle source rule start stop).stats.used = 1 := by
  rw [ofSingle, used_append, used_ofMatch]
  exact congrArg (1 + ·) (used_ofText source rule.words start stop)

@[simp] theorem used_ofParts (source : Source) (table : Option WordTable) (stop : Nat)
    (parts : List Part) :
    ∀ last, (ofParts source table stop last parts).stats.used = 0 := by
  induction parts with
  | nil => intro last; rfl
  | cons part rest ih =>
      intro last
      unfold ofParts
      split
      · exact ih last
      · rw [used_append, used_append, ih]
        cases part.scope with
        | some scope => rfl
        | none => exact congrArg (0 + · + 0) (used_ofText source table part.start part.stop)

end Yield

namespace Highlighter
variable {highlighter : Highlighter} {source : Source} {scan : Scan}

theorem matchYield_used (found : Found) :
    (highlighter.matchYield source scan found).stats.used = 1 := by
  cases found <;> simp [matchYield]

theorem pass_used (scan : Scan) (yield : Yield) (place : Nat) :
    (scan.pass yield place).stats.used = scan.stats.used + yield.stats.used := by
  rw [Scan.pass_stats, Stats.used_add]

theorem take_used {found : Found} (ready : scan.Ready source) :
    (highlighter.take source scan found).stats.used = scan.stats.used + 1 := by
  have gained : (highlighter.pendingYield source scan ++
      highlighter.matchYield source scan found).stats.used = 1 := by
    rw [Yield.used_append, matchYield_used, pendingYield, Yield.used_ofText]
  cases found with
  | single index rule stop =>
      rw [take_single highlighter source ready.pending_le]
      exact (pass_used _ _ _).trans (congrArg _ gained)
  | parts index rule stop parts =>
      rw [take_parts highlighter source ready.pending_le]
      exact (pass_used _ _ _).trans (congrArg _ gained)
  | container index rule stop =>
      rw [take_container highlighter source ready.pending_le]
      exact (pass_used _ _ _).trans (congrArg _ gained)

theorem close_used (scan : Scan) : scan.close.stats.used = scan.stats.used := by
  cases opened : scan.containers with
  | nil => simp only [Scan.close, opened]
  | cons inner outer =>
      rw [Scan.close_eq scan opened]
      exact pass_used { scan with containers := outer } _ _

theorem flush_used {place : Nat} (ordered : scan.level.pending ≤ place) :
    (highlighter.flush source { scan with pos := place }).stats.used = scan.stats.used := by
  rw [flush_moved highlighter source ordered, pass_used, Yield.used_ofText]
  rfl

/-- The scan has used up no more than the characters that it has passed. -/
def Passed (scan : Scan) : Prop :=
  scan.stats.used ≤ scan.pos

theorem Reaches.passed (reached : highlighter.Reaches source scan) : Passed scan := by
  refine reached.induction (Nat.le_refl 0 : Passed {}) ?_
  intro scan next visits used turned
  unfold Passed at used ⊢
  have ready := visits.reached.ready
  have advances := step_advances ready turned
  rcases step_cases turned with ⟨found, first, rfl⟩ | ⟨stop, closes, rfl⟩ | rfl
  · have further := (firstMatch?_bounds ready.pos_le first).1
    rw [take_used ready, take_pos ready]
    omega
  · have forth := (closerStop?_bounds ready.pos_le closes).1
    rw [close_used, flush_used (Nat.le_trans ready.pending_le forth)]
    rcases advances with further | ⟨further, _⟩ <;> omega
  · simp only [Scan.passChar, Stats.used] at used ⊢
    omega

theorem closeAll_used (scan : Scan) : scan.closeAll.stats.used = scan.stats.used := by
  apply Scan.closeAll_induction (motive := fun start last => last.stats.used = start.stats.used)
  · intro start _
    rfl
  · intro start inner outer _ used
    rw [used, close_used]

/-- Matches and plain characters are together no more than the characters of the source. -/
theorem run_used_le {done : Scan} (ran : highlighter.run source = .ok done) :
    done.stats.used ≤ source.size := by
  obtain ⟨last, reached, _, rfl⟩ := run_ok ran
  have ready := reached.ready
  rw [finish, closeAll_used, flush_used ready.pending_le]
  exact Nat.le_trans reached.passed ready.pos_le

/-- A scan ends, and so does everything that it does on the way. Each turn moves on, closes a container or
refuses, so that there are at most two turns for every character. Sorting a stretch into words and
searching for the closer of a fence take at most one round for every character, and the matches are
together with the plain characters no more than the characters of the text. -/
theorem scan_ends (highlighter : Highlighter) (text : String) :
    let source := Source.ofString text
    (∀ scan, highlighter.Visits source scan →
      (∃ refusal, highlighter.step source scan = .error refusal) ∨
      ∃ next, highlighter.step source scan = .ok next ∧
        (scan.pos < next.pos ∨
          scan.pos ≤ next.pos ∧ next.containers.length + 1 = scan.containers.length)) ∧
    (∃ count last, Loop.Ends (highlighter.turn? source) count (.ok {}) last ∧
      count ≤ 2 * text.length ∧ 2 * text.length ≤ 2 * text.utf8ByteSize ∧
      highlighter.run source = last.map (highlighter.finish source)) ∧
    (∀ (table : WordTable) (start stop : Nat), start ≤ stop →
      ∃ count last, Loop.Ends (table.sortRound? source stop) count (start, { last := start }) last ∧
        count ≤ stop - start ∧ table.sort source start stop = last.2.finish stop) ∧
    (∀ (fence : Fence) (marks : List Char) (place : Nat), place ≤ source.size →
      ∃ count last, Loop.Ends (fence.searchRound? source marks) count place last ∧
        count ≤ source.size - place ∧
        fence.stop? source marks (source.size - place) place =
          if fence.closesAt source marks last then some (last + 1 + marks.length) else none) ∧
    ∀ result, highlighter.highlight text = .ok result →
      result.stats.ruleMatches + result.stats.plainChars ≤ text.length := by
  intro source
  have size : source.size = text.length := Source.size_ofString text
  refine ⟨?_, ?_, ?_, ?_, ?_⟩
  · intro scan visits
    cases turned : highlighter.step source scan with
    | error refusal => exact .inl ⟨refusal, rfl⟩
    | ok next => exact .inr ⟨next, rfl, step_advances visits.reached.ready turned⟩
  · obtain ⟨count, fewer, last, ends, ran⟩ := highlighter.run_ends source
    have bytes := length_le_byteLength text.toList
    rw [byteLength_eq, String.ofList_toList, String.length_toList] at bytes
    exact ⟨count, last, ends, size ▸ fewer, Nat.mul_le_mul_left 2 bytes, ran⟩
  · intro table start stop ordered
    obtain ⟨count, fewer, last, ends, sorted⟩ := table.sort_ends source stop ordered
    exact ⟨count, last, ends, fewer, sorted⟩
  · intro fence marks place inside
    obtain ⟨count, fewer, last, ends, found⟩ := fence.stop?_ends source marks inside
    exact ⟨count, last, ends, fewer, found⟩
  · intro result highlighted
    unfold highlight Highlighter.scan at highlighted
    split at highlighted
    · next done ran =>
        cases highlighted
        exact size ▸ run_used_le ran
    · exact nomatch highlighted

end Highlighter

end Highlighting
