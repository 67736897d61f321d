import Highlighting.Proofs.Checked.State
import Highlighting.Proofs.Checked.Views
import Highlighting.Proofs.Grammar.Listed
import Highlighting.Proofs.Scan.Coverage
import Highlighting.Proofs.Scan.Opened

/-! # Scans over bytes

A scan over bytes looks at its source only through text that is cut out, at its frames only through the
innermost one, and at the rules only by number. There is no result when a cut cannot be made, when a
frame is missing, when a number belongs to no rule or when the fuel of a loop is used up. One turn of it
does what the turn of a scan does, and so does a whole run. -/
set_option autoImplicit false
namespace Highlighting.Checked
variable (source : Source) (highlighter : Highlighter)

namespace State

def countMatch (state : State) (found : Found) : State :=
  { state with
    relevance := state.relevance + .ofNat found.relevance
    stats := { state.stats with ruleMatches := state.stats.ruleMatches + 1 } }

def enter (state : State) (index : Nat) (rule : ContainerRule) (stop : Nat) : State :=
  { state with
    pos := stop
    frames :=
      { rule := some index, scope := rule.scope, start := state.pos, pending := state.pos } ::
        state.frames }

/-- Passes a character as plain text. -/
def passChar (state : State) (c : Char) : State :=
  { state with
    pos := state.pos + c.utf8Size
    stats := { state.stats with plainChars := state.stats.plainChars + 1 } }

end State

/-- Adds the parts of a match, with the text between them, from byte `last` on. -/
def addParts? (table : Option WordTable) (stop : Nat) : Nat → List Part → State → Option State
  | last, [], state => state.add? [.text last stop]
  | last, part :: rest, state =>
      if part.stop ≤ part.start then addParts? table stop last rest state
      else do
        let (nodes, sorted) ← match part.scope with
          | some scope => some ([Node.leaf scope part.start part.stop], state)
          | none => state.sort? source table part.start part.stop
        let added ← sorted.add? (.text last part.start :: nodes)
        addParts? table stop part.stop rest added

/-- Takes a match, whose text is cut out to be logged. -/
def take? (state : State) (found : Found) : Option State := do
  let flushed ← flush? source highlighter state
  let _ ← source.cut? state.pos found.stop
  let counted := flushed.countMatch found
  match found with
  | .single _ rule stop =>
      let (nodes, sorted) ← counted.sort? source rule.words state.pos stop
      let wrapped ← sorted.wrap? rule.scope state.pos stop nodes
      wrapped.advance? stop
  | .parts _ _ stop parts =>
      let inside ← inside? highlighter counted
      let added ← addParts? source inside.words stop state.pos parts counted
      added.advance? stop
  | .container index rule stop => return counted.enter index rule stop

def refuse? (pos stop : Nat) : Option IllegalText := do
  let lexeme ← source.cut? pos stop
  let (span, _) ← ({} : ByteCursor).span? source pos stop
  return { lexeme := String.ofList lexeme, offset := pos, span }

def illegalStop? (inside : Inside) (pos : Nat) : Option (Option Nat) :=
  if highlighter.ignoreIllegal then some none
  else do
    let stop ← stopOf? source inside.illegal pos source.bytes
    return stop.filter (pos < ·)

/-- One turn of a scan that is not at the end of the source. -/
def step? (state : State) : Option (Except IllegalText State) := do
  let inside ← inside? highlighter state
  match ← firstOf? source highlighter state.pos inside.rules with
  | some found =>
      let next ← take? source highlighter state found
      return .ok next
  | none =>
      match ← stopOf? source inside.closer state.pos source.bytes with
      | some stop =>
          let flushed ← flush? source highlighter { state with pos := stop }
          let next ← flushed.close?
          return .ok next
      | none =>
          match ← illegalStop? source highlighter inside state.pos with
          | some stop =>
              let illegal ← refuse? source state.pos stop
              return .error illegal
          | none =>
              let rest ← source.cut? state.pos source.bytes
              let c ← rest.head?
              return .ok (state.passChar c)

def turns? : Nat → State → Option (Except IllegalText State)
  | 0, state => if state.pos < source.bytes then none else some (.ok state)
  | fuel + 1, state =>
      if state.pos < source.bytes then do
        match ← step? source highlighter state with
        | .ok next => turns? fuel next
        | .error illegal => return .error illegal
      else some (.ok state)

/-- Closes frames until only one is left. -/
def closeAll? : Nat → State → Option State
  | 0, state => if 1 < state.frames.length then none else some state
  | fuel + 1, state =>
      if 1 < state.frames.length then do
        let closed ← state.close?
        closeAll? fuel closed
      else some state

def run? : Option (Except IllegalText Highlight) := do
  match ← turns? source highlighter (2 * source.bytes) {} with
  | .error illegal => return .error illegal
  | .ok done =>
      let flushed ← flush? source highlighter done
      let closed ← closeAll? flushed.frames.length flushed
      match closed.frames with
      | [ground] =>
          return .ok
            { language := highlighter.name
              source
              nodes := ground.nodes.reverse
              relevance := closed.relevance.toNat
              stats := closed.stats }
      | _ => none

/-! ## Taking a match -/

variable {source highlighter} {scan : Scan}

theorem addParts?_shows (table : Option WordTable) {stop : Nat} (inside : stop ≤ source.size)
    {parts : List Part} :
    ∀ {scan : Scan} {last : Nat}, scan.Fits source → last ≤ source.size →
      (∀ part ∈ parts, part.start ≤ source.size ∧ part.stop ≤ source.size) →
        Shows source
          (addParts? source table (source.offset stop) (source.offset last)
            (parts.map (·.inBytes source)) (.ofScan source scan))
          (scan.addParts source table stop last parts) := by
  induction parts with
  | nil =>
      intro scan last fits lastInside _
      have text : (Node.text last stop).Pushable source.size := ⟨lastInside, inside⟩
      exact add?_shows fits (List.forall_mem_singleton.mpr text)
  | cons part rest ih =>
      intro scan last fits lastInside placed
      obtain ⟨⟨startInside, stopInside⟩, others⟩ := List.forall_mem_cons.mp placed
      have sameOrder : source.offset part.stop ≤ source.offset part.start ↔ part.stop ≤ part.start :=
        source.offset_le_iff stopInside
      have text : (Node.text last part.start).Pushable source.size := ⟨lastInside, startInside⟩
      rw [List.map_cons, addParts?, Part.inBytes, Scan.addParts]
      dsimp only
      by_cases empty : part.stop ≤ part.start
      · rw [if_pos empty, if_pos (sameOrder.mpr empty)]
        exact ih fits lastInside others
      · have ordered : part.start ≤ part.stop := Nat.le_of_lt (Nat.not_le.mp empty)
        rw [if_neg empty, if_neg (mt sameOrder.mp empty)]
        cases part.scope with
        | some scope =>
            have leaf := (Node.leaf_fits ordered stopInside scope).pushable
            have added := add?_shows fits
              (List.forall_mem_cons.mpr ⟨text, List.forall_mem_singleton.mpr leaf⟩)
            exact added.andThen (ih added.fits stopInside others)
        | none =>
            have fit := ofText_fit source table ordered stopInside
            have added := add?_shows (fits.count (Yield.ofText source table part.start part.stop))
              (List.forall_mem_cons.mpr ⟨text, fun node member => (fit node member).pushable⟩)
            dsimp only
            rw [sort?_ofScan scan table ordered stopInside, Scan.sort_eq]
            exact added.andThen (ih added.fits stopInside others)

/-- The parts of a match are in the text, in whatever order they stand. -/
theorem firstMatch?_placed {pos : Nat} (inside : pos ≤ source.size) {indices : List Nat} {found : Found}
    (first : highlighter.firstMatch? source pos indices = some found) :
    ∀ part ∈ found.pieces, part.start ≤ source.size ∧ part.stop ≤ source.size := by
  obtain ⟨_, _, matched⟩ := Highlighter.firstMatch?_listed first
  cases found with
  | single index rule stop => exact List.forall_mem_nil _
  | container index rule stop => exact List.forall_mem_nil _
  | parts index rule stop located =>
      obtain ⟨m, taken, _, same⟩ := Rule.match?_parts matched
      cases same
      have stops := (Program.match?_bounds inside taken).2
      intro part member
      obtain ⟨⟨number, scope⟩, listed, rfl⟩ := List.mem_map.mp member
      dsimp only
      cases took : m.group? number with
      | none => exact ⟨Nat.zero_le _, Nat.zero_le _⟩
      | some group =>
          obtain ⟨_, ordered, ends⟩ := (Program.match?_within taken).group took
          dsimp only
          omega

theorem setLevel_pos (scan : Scan) (level : Level) : (scan.setLevel level).pos = scan.pos := by
  obtain ⟨pos, ground, containers, relevance, stats, events⟩ := scan
  cases containers <;> rfl

theorem take?_single (fits : scan.Fits source) {pos stop : Nat} (here : scan.pos ≤ pos)
    (rule : SingleRule) (ordered : pos ≤ stop) (inside : stop ≤ source.size) :
    Shows source
      (do
        let (nodes, sorted) ←
          (State.ofScan source scan).sort? source rule.words (source.offset pos) (source.offset stop)
        let wrapped ← sorted.wrap? rule.scope (source.offset pos) (source.offset stop) nodes
        wrapped.advance? (source.offset stop))
      (let (nodes, sorted) := scan.sort source rule.words pos stop
       (sorted.wrap rule.scope pos stop nodes).advance stop) := by
  have fit := ofText_fit source rule.words ordered inside
  have wrapped := wrap?_shows (fits.count (Yield.ofText source rule.words pos stop)) rule.scope ordered
    inside fit
  rw [sort?_ofScan scan rule.words ordered inside, Scan.sort_eq]
  dsimp only
  rw [Scan.wrap_eq] at wrapped ⊢
  have forth : ((scan.count (Yield.ofText source rule.words pos stop)).add
      (Yield.wrapped rule.scope pos stop (Yield.ofText source rule.words pos stop).nodes)).pos ≤ stop := by
    rw [Scan.add, setLevel_pos]
    exact Nat.le_trans here ordered
  exact wrapped.andThen (advance?_shows wrapped.fits forth inside)

theorem take?_shows (fits : scan.Fits source) (owned : Owned highlighter scan)
    (ready : scan.Ready source) {found : Found}
    (first : highlighter.firstMatch? source scan.pos (highlighter.rulesAt scan) = some found) :
    Shows source (take? source highlighter (.ofScan source scan) (found.inBytes source))
      (highlighter.take source scan found) := by
  have bounds := Highlighter.firstMatch?_bounds ready.pos_le first
  have placed := firstMatch?_placed ready.pos_le first
  obtain ⟨flushed, flushedFits⟩ := flush?_shows fits owned ready.pending_le
  have stays : (highlighter.flush source scan).pos = scan.pos := by
    rw [Highlighter.flush_eq highlighter source ready.pending_le, Scan.pass_pos]
  have counted : ((highlighter.flush source scan).countMatch found).Fits source :=
    ⟨flushedFits.ground, flushedFits.containers, flushedFits.pos_le⟩
  have logged := source.cut?_offset (Nat.le_of_lt bounds.1) bounds.2
  have ends : (found.inBytes source).stop = source.offset found.stop := by cases found <;> rfl
  have same : (State.ofScan source (highlighter.flush source scan)).countMatch (found.inBytes source) =
      .ofScan source ((highlighter.flush source scan).countMatch found) := by
    have relevance : (found.inBytes source).relevance = found.relevance := by cases found <;> rfl
    simp only [State.countMatch, State.ofScan, Scan.countMatch, Scan.log, relevance, UInt32.ofNat_add]
  rw [take?, flushed, pos_ofScan, ends, Option.bind_eq_bind, Option.bind_some, logged,
    Option.bind_eq_bind, Option.bind_some, same]
  dsimp only
  cases found with
  | single index rule stop =>
      exact take?_single counted (Nat.le_of_eq stays) rule (Nat.le_of_lt bounds.1) bounds.2
  | parts index rule stop located =>
      have inside : inside? highlighter (.ofScan source
          ((highlighter.flush source scan).countMatch (.parts index rule stop located))) =
            some (.ofScan highlighter scan) := by
        have passed := Highlighter.flush_eq highlighter source ready.pending_le
        have ownedHere : Owned highlighter (highlighter.flush source scan) := by
          rw [passed]
          exact owned.pass _ _
        rw [← Inside.ofScan_pass highlighter scan (highlighter.pendingYield source scan) scan.pos, ← passed]
        exact inside?_ofScan ownedHere
      have added := addParts?_shows (highlighter.wordsAt scan) bounds.2 counted ready.pos_le placed
      have forth : (((highlighter.flush source scan).countMatch (.parts index rule stop located)).addParts
          source (highlighter.wordsAt scan) stop scan.pos located).pos ≤ stop := by
        rw [Scan.addParts_eq, Scan.gain, Scan.add, setLevel_pos]
        exact Nat.le_trans (Nat.le_of_eq stays) (Nat.le_of_lt bounds.1)
      dsimp only [Found.inBytes]
      rw [inside, Option.bind_eq_bind, Option.bind_some]
      exact added.andThen (advance?_shows added.fits forth bounds.2)
  | container index rule stop =>
      have forth : (highlighter.flush source scan).pos ≤ stop :=
        Nat.le_trans (Nat.le_of_eq stays) (Nat.le_of_lt bounds.1)
      refine ⟨rfl, counted.ground, ?_, bounds.2⟩
      refine List.forall_mem_cons.mpr ⟨⟨Node.allFit_nil, forth⟩, ?_⟩
      exact (counted.moveTo forth bounds.2).containers

/-! ## One turn -/

theorem refuse?_offset (source : Source) {pos stop : Nat} (ordered : pos ≤ stop)
    (inside : stop ≤ source.size) (events : List ScanEvent) :
    refuse? source (source.offset pos) (source.offset stop) =
      some (Refusal.illegalText ⟨pos, stop, events⟩ source) := by
  have span := span?_offset source (Nat.zero_le _) ordered inside
  rw [standing_start] at span
  rw [refuse?, source.cut?_offset ordered inside, Option.bind_eq_bind, Option.bind_some, span]
  rfl

theorem closerStop?_eq (source : Source) (highlighter : Highlighter) (scan : Scan) :
    Highlighter.closerStop? source scan =
      (Inside.ofScan highlighter scan).closer.bind (·.stop? source.chars scan.pos source.size) := by
  obtain ⟨pos, ground, containers, relevance, stats, events⟩ := scan
  cases containers <;> rfl

theorem stopOf?_end (program : Option Program) {pos : Nat} (inside : pos ≤ source.size) :
    stopOf? source program (source.offset pos) source.bytes =
      some ((program.bind (·.stop? source.chars pos source.size)).map source.offset) :=
  stopOf?_offset source program inside (Nat.le_refl _)

theorem illegalStop?_offset (source : Source) (highlighter : Highlighter) (inside : scan.pos ≤ source.size) :
    illegalStop? source highlighter (.ofScan highlighter scan) (source.offset scan.pos) =
      some ((highlighter.illegalStop? source scan).map source.offset) := by
  rw [illegalStop?, Highlighter.illegalStop?]
  split
  · rfl
  · have nearby : ∀ found ∈ (highlighter.illegalAt scan).bind (·.stop? source.chars scan.pos source.size),
        found ≤ source.size := by
      intro found ends
      obtain ⟨program, _, ends⟩ := Option.bind_eq_some_iff.mp ends
      exact (Program.stop?_bounds inside ends).2
    rw [stopOf?_end _ inside, Option.bind_eq_bind, Option.bind_some, Inside.ofScan,
      filter_offset source nearby]
    rfl

theorem illegalStop?_bounds {stop : Nat} (inside : scan.pos ≤ source.size)
    (illegal : highlighter.illegalStop? source scan = some stop) :
    scan.pos < stop ∧ stop ≤ source.size := by
  unfold Highlighter.illegalStop? at illegal
  split at illegal
  · exact nomatch illegal
  · obtain ⟨ends, proper⟩ := Option.filter_eq_some_iff.mp illegal
    obtain ⟨program, _, ends⟩ := Option.bind_eq_some_iff.mp ends
    exact ⟨of_decide_eq_true proper, (Program.stop?_bounds inside ends).2⟩

/-- The closer of a container is sorted with its text, before the container closes. -/
theorem closeAt?_shows (owned : Owned highlighter scan) (fits : scan.Fits source)
    (ready : scan.Ready source) {stop : Nat} (bounds : scan.pos ≤ stop ∧ stop ≤ source.size)
    (closes : Highlighter.closerStop? source scan = some stop) :
    Shows source
      (do
        let flushed ← flush? source highlighter { State.ofScan source scan with pos := source.offset stop }
        flushed.close?)
      (highlighter.flush source { scan with pos := stop }).close := by
  obtain ⟨inner, outer, opened, _⟩ := Highlighter.closerStop?_opened closes
  have ordered := Nat.le_trans ready.pending_le bounds.1
  have flushed : Shows source
      (flush? source highlighter { State.ofScan source scan with pos := source.offset stop })
      (highlighter.flush source { scan with pos := stop }) :=
    flush?_shows (fits.moveTo bounds.1 bounds.2) owned ordered
  have stillOpened := Highlighter.flush_moved highlighter source ordered
  have containers := Scan.pass_containers scan
    (Yield.ofText source (highlighter.wordsAt scan) scan.level.pending stop) stop opened
  rw [← stillOpened] at containers
  exact flushed.andThen (close?_shows flushed.fits containers)

theorem rulesAt_listed (listed : highlighter.Listed) (owned : Owned highlighter scan) :
    ∀ index ∈ highlighter.rulesAt scan, index < highlighter.rules.size := by
  obtain ⟨pos, ground, containers, relevance, stats, events⟩ := scan
  cases containers with
  | nil => exact listed.root
  | cons inner outer =>
      have rule := owned inner List.mem_cons_self
      exact listed.rules (.container inner.rule) (Array.mem_of_getElem? rule)

theorem passChar_ofScan {c : Char} (here : source.chars[scan.pos]? = some c) :
    (State.ofScan source scan).passChar c = .ofScan source scan.passChar := by
  rw [State.passChar, pos_ofScan, source.offset_succ here]
  rfl

/-- What a scan over places has come to, in bytes. -/
def ofResult (source : Source) : Except Refusal Scan → Except IllegalText State
  | .ok scan => .ok (.ofScan source scan)
  | .error refusal => .error (refusal.illegalText source)

/-- The result is what the scan has come to, and a scan that goes on fits. -/
structure Comes (source : Source) (result : Option (Except IllegalText State))
    (outcome : Except Refusal Scan) : Prop where
  result : result = some (ofResult source outcome)
  fits : ∀ next, outcome = .ok next → next.Fits source

theorem Shows.comes {result : Option State} {next : Scan} (shows : Shows source result next) :
    Comes source (do return .ok (← result)) (.ok next) where
  result := by
    rw [shows.state]
    rfl
  fits _ same := by
    cases same
    exact shows.fits

theorem refuse?_comes {pos stop : Nat} (ordered : pos ≤ stop) (inside : stop ≤ source.size)
    (events : List ScanEvent) :
    Comes source (do return .error (← refuse? source (source.offset pos) (source.offset stop)))
      (.error ⟨pos, stop, events⟩) where
  result := by
    rw [refuse?_offset source ordered inside events]
    rfl
  fits _ absurdity := by cases absurdity

theorem step?_comes (listed : highlighter.Listed) (owned : Owned highlighter scan)
    (fits : scan.Fits source) (ready : scan.Ready source) (more : scan.pos < source.size) :
    Comes source (step? source highlighter (.ofScan source scan)) (highlighter.step source scan) := by
  have found := firstOf?_offset source highlighter ready.pos_le (rulesAt_listed listed owned)
  have rules : (Inside.ofScan highlighter scan).rules = highlighter.rulesAt scan := rfl
  rw [step?, inside?_ofScan owned, Option.bind_eq_bind, Option.bind_some, pos_ofScan, rules, found,
    Option.bind_eq_bind, Option.bind_some]
  cases first : highlighter.firstMatch? source scan.pos (highlighter.rulesAt scan) with
  | some found =>
      rw [Highlighter.step_of_match first]
      exact (take?_shows fits owned ready first).comes
  | none =>
      rw [Option.map_none]
      dsimp only
      rw [stopOf?_end _ ready.pos_le, Option.bind_eq_bind, Option.bind_some,
        ← closerStop?_eq source highlighter scan]
      cases closes : Highlighter.closerStop? source scan with
      | some stop =>
          have bounds := Highlighter.closerStop?_bounds ready.pos_le closes
          rw [Highlighter.step_of_closer first closes, Option.map_some]
          dsimp only
          rw [← bind_assoc]
          exact (closeAt?_shows owned fits ready bounds closes).comes
      | none =>
          rw [Option.map_none]
          dsimp only
          rw [illegalStop?_offset source highlighter ready.pos_le, Option.bind_eq_bind, Option.bind_some]
          cases illegal : highlighter.illegalStop? source scan with
          | some stop =>
              have bounds := illegalStop?_bounds ready.pos_le illegal
              rw [Highlighter.step_of_illegal first closes illegal]
              exact refuse?_comes (Nat.le_of_lt bounds.1) bounds.2 (.refused scan.pos stop :: scan.events)
          | none =>
              have char := Array.getElem?_eq_getElem more
              have passed : Shows source (some (.ofScan source scan.passChar)) scan.passChar :=
                ⟨rfl, fits.passChar more⟩
              rw [Option.map_none]
              dsimp only
              rw [source.cut?_end ready.pos_le, Option.bind_eq_bind, Option.bind_some,
                source.part_head? more, char, Option.bind_eq_bind, Option.bind_some,
                passChar_ofScan char, Highlighter.step_of_plain first closes illegal]
              exact passed.comes

/-! ## A whole run -/

theorem Owned.of_reaches (reached : highlighter.Reaches source scan) : Owned highlighter scan :=
  reached.nested.mem_rules

theorem fits_start (source : Source) : ({} : Scan).Fits source :=
  ⟨Node.allFit_nil, List.forall_mem_nil _, Nat.zero_le _⟩

theorem fits_of_reaches (listed : highlighter.Listed) (reached : highlighter.Reaches source scan) :
    scan.Fits source :=
  reached.induction (fits_start source) fun visits fits stepped =>
    (step?_comes listed (.of_reaches visits.reached) fits visits.reached.ready visits.inside).fits _ stepped

theorem step?_visited (listed : highlighter.Listed) (visits : highlighter.Visits source scan) :
    Comes source (step? source highlighter (.ofScan source scan)) (highlighter.step source scan) :=
  step?_comes listed (.of_reaches visits.reached) (fits_of_reaches listed visits.reached)
    visits.reached.ready visits.inside

theorem pos_lt_iff (source : Source) (scan : Scan) :
    (State.ofScan source scan).pos < source.bytes ↔ scan.pos < source.size := by
  rw [← Nat.not_le, ← Nat.not_le]
  exact not_congr (source.offset_le_iff (Nat.le_refl _))

/-- Turns no fewer than what is left to use up come to where the turns of the scan do. -/
theorem turns?_ofScan (listed : highlighter.Listed) (fuel : Nat) :
    ∀ {count : Nat} {scan : Scan}, highlighter.Reaches source scan → scan.weight source ≤ fuel →
      scan.weight source ≤ count →
        turns? source highlighter fuel (.ofScan source scan) =
          some (ofResult source (highlighter.turns source count scan)) := by
  induction fuel with
  | zero =>
      intro count scan _ fuelled _
      have ended : source.size ≤ scan.pos := by
        simp only [Scan.weight] at fuelled
        omega
      have stopped := mt (pos_lt_iff source scan).mp (Nat.not_lt.mpr ended)
      rw [turns?, if_neg stopped, Highlighter.turns_of_end _ ended]
      rfl
  | succ fuel ih =>
      intro count scan reached fuelled enough
      have ready := reached.ready
      by_cases more : scan.pos < source.size
      · obtain ⟨count, rfl⟩ : ∃ left, count = left + 1 :=
          Nat.exists_eq_add_one_of_ne_zero (by simp only [Scan.weight] at enough; omega)
        have visits : highlighter.Visits source scan := ⟨reached, more⟩
        rw [turns?, if_pos ((pos_lt_iff source scan).mpr more), (step?_visited listed visits).result,
          Highlighter.turns_succ count more, Option.bind_eq_bind, Option.bind_some]
        cases stepped : highlighter.step source scan with
        | error refusal => rfl
        | ok next =>
            have less := (Highlighter.step_ready ready more stepped).2
            exact ih (visits.next stepped) (by omega) (by omega)
      · have stopped := mt (pos_lt_iff source scan).mp more
        rw [turns?, if_neg stopped, Highlighter.turns_of_end _ (Nat.not_lt.mp more)]
        rfl

theorem frames_length (source : Source) (scan : Scan) :
    (State.ofScan source scan).frames.length = scan.containers.length + 1 := by
  rw [State.ofScan, List.length_append, List.length_map, List.length_singleton]

theorem closeAll?_shows (fuel : Nat) :
    ∀ {scan : Scan}, scan.Fits source → scan.containers.length ≤ fuel →
      Shows source (closeAll? fuel (.ofScan source scan)) scan.closeAll := by
  induction fuel with
  | zero =>
      intro scan fits enough
      have closed := List.eq_nil_of_length_eq_zero (Nat.le_zero.mp enough)
      have one : ¬ 1 < (State.ofScan source scan).frames.length := by
        rw [frames_length, closed]
        exact Nat.lt_irrefl 1
      rw [closeAll?, if_neg one, Scan.closeAll_of_closed closed]
      exact ⟨rfl, fits⟩
  | succ fuel ih =>
      intro scan fits enough
      rw [closeAll?, frames_length]
      cases opened : scan.containers with
      | nil =>
          have one : ¬ 1 < ([] : List OpenContainer).length + 1 := Nat.lt_irrefl 1
          rw [if_neg one, Scan.closeAll_of_closed opened]
          exact ⟨rfl, fits⟩
      | cons inner outer =>
          have closed := close?_shows fits opened
          have fewer : scan.close.containers.length ≤ fuel := by
            rw [Scan.close_eq scan opened, Scan.note_containers, Scan.goOut_depth]
            rw [opened, List.length_cons] at enough
            exact Nat.le_of_succ_le_succ enough
          have several : 1 < (inner :: outer).length + 1 := by simp
          rw [if_pos several, Scan.closeAll_of_opened opened]
          exact closed.andThen (ih closed.fits fewer)

theorem ofScan_start (source : Source) : State.ofScan source {} = {} := by
  simp only [State.ofScan, Frame.ofGround, source.offset_zero]
  rfl

/-- A run over bytes has a result, and it is that of the run over places. -/
theorem run?_eq (listed : highlighter.Listed) (source : Source) :
    run? source highlighter = some ((highlighter.scan source).result.map Highlight.inBytes) ∧
      ∀ highlight, (highlighter.scan source).result = .ok highlight →
        Node.AllFit highlight.source.size highlight.nodes := by
  have reached : highlighter.Reaches source {} := ⟨0, rfl⟩
  have fuelled : 2 * source.size ≤ 2 * source.bytes := by
    have least := source.sub_le_offset (Nat.zero_le source.size) (Nat.le_refl _)
    rw [source.offset_zero] at least
    exact Nat.mul_le_mul_left 2 least
  have turned := turns?_ofScan listed (2 * source.bytes) reached fuelled (Nat.le_refl (2 * source.size))
  rw [ofScan_start] at turned
  rw [run?, turned, Option.bind_eq_bind, Option.bind_some, Highlighter.scan, Highlighter.run]
  cases ends : highlighter.turns source (2 * source.size) {} with
  | error refusal =>
      refine ⟨rfl, ?_⟩
      intro _ absurdity
      cases absurdity
  | ok done =>
      have reachedDone := reached.later ends
      obtain ⟨flushed, flushedFits⟩ := flush?_shows (fits_of_reaches listed reachedDone)
        (.of_reaches reachedDone) reachedDone.ready.pending_le
      have enough : (highlighter.flush source done).containers.length ≤
          (State.ofScan source (highlighter.flush source done)).frames.length := by
        rw [frames_length]
        exact Nat.le_succ _
      obtain ⟨closed, closedFits⟩ := closeAll?_shows _ flushedFits enough
      have alone := (highlighter.flush source done).closeAll_closed
      dsimp only [ofResult]
      rw [flushed, Option.bind_eq_bind, Option.bind_some, closed, Option.bind_some, State.ofScan, alone]
      refine ⟨?_, ?_⟩
      · simp only [List.map_nil, List.nil_append, Frame.ofGround, Except.map, Highlight.inBytes,
          Node.inBytesAll_reverse]
        rfl
      · intro highlight same
        cases same
        exact closedFits.ground.reverse

end Highlighting.Checked
