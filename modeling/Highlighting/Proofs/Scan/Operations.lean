import Highlighting.Proofs.Scan.Yield

/-! # The operations of a scan

Everything that a scan does inside one level is to pass a stretch of the source. Each operation is put
into this form here, so that no later proof has to look inside it. -/
set_option autoImplicit false
namespace Highlighting

namespace Scan

theorem sort_eq (scan : Scan) (source : Source) (table : Option WordTable) (start stop : Nat) :
    scan.sort source table start stop =
      ((Yield.ofText source table start stop).nodes,
        scan.count (Yield.ofText source table start stop)) := by
  cases table <;> rfl

theorem wrap_eq (scan : Scan) (scope : Option Scope) (start stop : Nat) (nodes : List Node) :
    scan.wrap scope start stop nodes = scan.add (Yield.wrapped scope start stop nodes) := by
  cases scope <;> rfl

theorem addParts_eq (source : Source) (table : Option WordTable) (stop : Nat) (parts : List Part) :
    ∀ (scan : Scan) (last : Nat),
      scan.addParts source table stop last parts =
        scan.gain (Yield.ofParts source table stop last parts) := by
  induction parts with
  | nil => intro scan last; rfl
  | cons part rest ih =>
      intro scan last
      rw [addParts, Yield.ofParts]
      by_cases empty : part.stop ≤ part.start
      · rw [if_pos empty, if_pos empty, ih]
      · rw [if_neg empty, if_neg empty]
        cases part.scope with
        | some scope =>
            simp only [ih, ← gain_gain]
            congr 1
            obtain ⟨pos, ground, containers, relevance, stats, events⟩ := scan
            cases containers <;> rfl
        | none =>
            simp only [ih, ← gain_gain, sort_eq]
            congr 1
            obtain ⟨pos, ground, containers, relevance, stats, events⟩ := scan
            cases containers <;> rfl

theorem gain_ofText_empty (scan : Scan) (source : Source) (table : Option WordTable) (place : Nat) :
    scan.gain (Yield.ofText source table place place) = scan := by
  obtain ⟨pos, ground, containers, relevance, stats, events⟩ := scan
  cases table <;> cases containers <;>
    simp [gain, count, add, setLevel, level, Yield.ofText, Node.pushAll, Node.push, WordTable.sort,
      WordTable.sortFrom, Sorting.finish, Stats.add_def]

theorem advance_self (scan : Scan) (nothing : scan.level.pending = scan.pos) :
    scan.advance scan.pos = scan := by
  obtain ⟨pos, ⟨pending, nodes⟩, containers, relevance, stats, events⟩ := scan
  cases containers with
  | nil =>
      cases nothing
      rfl
  | cons inner outer =>
      obtain ⟨index, rule, start, pending, nodes⟩ := inner
      cases nothing
      rfl

theorem countMatch_eq (scan : Scan) (found : Found) :
    scan.countMatch found =
      (scan.gain (.ofMatch found.relevance)).note
        (.matched found scan.containers.length scan.pos :: scan.events) := by
  obtain ⟨pos, ground, containers, relevance, stats, events⟩ := scan
  cases containers <;> rfl

/-- Goes into a container that opens at the place of the scan. -/
def goInto (scan : Scan) (index : Nat) (rule : ContainerRule) (stop : Nat) : Scan :=
  { scan with
    pos := stop
    containers := ⟨index, rule, scan.pos, { pending := scan.pos }⟩ :: scan.containers }

@[simp] theorem goInto_pos (scan : Scan) (index : Nat) (rule : ContainerRule) (stop : Nat) :
    (scan.goInto index rule stop).pos = stop := rfl

@[simp] theorem goInto_level (scan : Scan) (index : Nat) (rule : ContainerRule) (stop : Nat) :
    (scan.goInto index rule stop).level = { pending := scan.pos } := rfl

/-- Leaves a container for the ones around it, which are `outer`. -/
def goOut (scan : Scan) (inner : OpenContainer) (outer : List OpenContainer) : Scan :=
  { scan with containers := outer }.pass
    { nodes := Yield.wrapped inner.rule.scope inner.start scan.pos inner.level.nodes.reverse } scan.pos

@[simp] theorem goOut_pos (scan : Scan) (inner : OpenContainer) (outer : List OpenContainer) :
    (scan.goOut inner outer).pos = scan.pos := by
  rw [goOut, pass_pos]

@[simp] theorem goOut_depth (scan : Scan) (inner : OpenContainer) (outer : List OpenContainer) :
    (scan.goOut inner outer).containers.length = outer.length := by
  rw [goOut, pass_depth]

theorem close_eq (scan : Scan) {inner : OpenContainer} {outer : List OpenContainer}
    (opened : scan.containers = inner :: outer) :
    scan.close = (scan.goOut inner outer).note
      (.closed inner.index inner.rule.scope inner.start scan.pos :: scan.events) := by
  obtain ⟨pos, ground, containers, relevance, stats, events⟩ := scan
  cases opened
  simp only [close, wrap_eq]
  cases outer <;> rfl

theorem closeAll_of_closed {scan : Scan} (closed : scan.containers = []) : scan.closeAll = scan := by
  rw [closeAll, closed]
  rfl

/-- All containers close when the innermost one closes and then the others do. -/
theorem closeAll_of_opened {scan : Scan} {inner : OpenContainer} {outer : List OpenContainer}
    (opened : scan.containers = inner :: outer) : scan.closeAll = scan.close.closeAll := by
  have counted : ∀ (left right : List OpenContainer) (start : Scan), left.length = right.length →
      left.foldl (fun left _ => left.close) start = right.foldl (fun left _ => left.close) start := by
    intro left
    induction left with
    | nil =>
        intro right start same
        rw [List.eq_nil_of_length_eq_zero same.symm]
    | cons first rest ih =>
        intro right start same
        obtain ⟨other, others, rfl⟩ := List.exists_cons_of_length_eq_add_one same.symm
        exact ih others start.close (Nat.succ.inj same)
  have depth : scan.close.containers.length = outer.length := by
    rw [close_eq scan opened, note_containers, goOut_depth]
  rw [closeAll, opened, List.foldl_cons, closeAll]
  exact counted outer _ scan.close depth.symm

theorem close_pos (scan : Scan) : scan.close.pos = scan.pos := by
  cases opened : scan.containers with
  | nil => simp only [Scan.close, opened]
  | cons inner outer => rw [close_eq scan opened, note_pos, goOut_pos]

/-- The text behind a container that closes is pending from there on. -/
theorem close_settled (scan : Scan) {inner : OpenContainer} {outer : List OpenContainer}
    (opened : scan.containers = inner :: outer) : scan.close.level.pending = scan.close.pos := by
  rw [close_pos, close_eq scan opened, note_level, goOut, pass_level]

/-- What closing one container hands on holds between a scan and what it is when all have closed. -/
theorem closeAll_induction {motive : Scan → Scan → Prop}
    (closed : ∀ scan : Scan, scan.containers = [] → motive scan scan)
    (opened : ∀ (scan : Scan) (inner : OpenContainer) (outer : List OpenContainer),
      scan.containers = inner :: outer → motive scan.close scan.close.closeAll →
        motive scan scan.close.closeAll) (scan : Scan) : motive scan scan.closeAll := by
  have counted : ∀ (count : Nat) (scan : Scan), scan.containers.length = count →
      motive scan scan.closeAll := by
    intro count
    induction count with
    | zero =>
        intro scan depth
        have nothing := List.eq_nil_of_length_eq_zero depth
        rw [closeAll_of_closed nothing]
        exact closed scan nothing
    | succ count ih =>
        intro scan depth
        obtain ⟨inner, outer, here⟩ := List.exists_cons_of_length_eq_add_one depth
        have fewer : scan.close.containers.length = count := by
          rw [close_eq scan here, note_containers, goOut_depth]
          rw [here, List.length_cons] at depth
          exact Nat.succ.inj depth
        rw [closeAll_of_opened here]
        exact opened scan inner outer here (ih scan.close fewer)
  exact counted _ scan rfl

theorem closeAll_closed (scan : Scan) : scan.closeAll.containers = [] :=
  closeAll_induction (motive := fun _ last => last.containers = []) (fun _ closed => closed)
    (fun _ _ _ _ closed => closed) scan

end Scan

namespace Highlighter
variable (highlighter : Highlighter) (source : Source)

/-- What the pending text of a scan yields. -/
def pendingYield (scan : Scan) : Yield :=
  .ofText source (highlighter.wordsAt scan) scan.level.pending scan.pos

theorem flush_eq {scan : Scan} (ordered : scan.level.pending ≤ scan.pos) :
    highlighter.flush source scan =
      scan.pass (highlighter.pendingYield source scan) scan.pos := by
  unfold flush
  by_cases proper : scan.level.pending < scan.pos
  · rw [if_pos proper, Scan.sort_eq]
    obtain ⟨pos, ground, containers, relevance, stats, events⟩ := scan
    cases containers <;> rfl
  · rw [if_neg proper]
    have nothing : scan.level.pending = scan.pos := Nat.le_antisymm ordered (Nat.not_lt.mp proper)
    rw [pendingYield, nothing, Scan.pass, Scan.gain_ofText_empty, Scan.advance_self scan nothing]

theorem flush_moved {scan : Scan} {place : Nat} (ordered : scan.level.pending ≤ place) :
    highlighter.flush source { scan with pos := place } =
      scan.pass (.ofText source (highlighter.wordsAt scan) scan.level.pending place) place := by
  have moved : ({ scan with pos := place } : Scan).level.pending ≤ place := ordered
  rw [flush_eq highlighter source moved]
  obtain ⟨pos, ground, containers, relevance, stats, events⟩ := scan
  cases containers <;> rfl

/-- What a match yields at the level where it is found. What is inside a container comes later. -/
def matchYield (scan : Scan) : Found → Yield
  | .single _ rule stop => .ofSingle source rule scan.pos stop
  | .parts _ rule stop parts =>
      .ofMatch rule.relevance ++ .ofParts source (highlighter.wordsAt scan) stop scan.pos parts
  | .container _ rule _ => .ofMatch rule.relevance

/-- The events up to a match that is taken. -/
def matchEvents (scan : Scan) (found : Found) : List ScanEvent :=
  .matched found scan.containers.length scan.pos :: scan.events

section Take
variable {scan : Scan} (ordered : scan.level.pending ≤ scan.pos)
include ordered

theorem counted_eq (found : Found) :
    (highlighter.flush source scan).countMatch found =
      ((scan.pass (highlighter.pendingYield source scan) scan.pos).gain
        (.ofMatch found.relevance)).note (matchEvents scan found) := by
  rw [flush_eq highlighter source ordered, Scan.countMatch_eq, Scan.pass_depth, Scan.pass_pos,
    Scan.pass_events, matchEvents]

theorem take_single (index : Nat) (rule : SingleRule) (stop : Nat) :
    let found := Found.single index rule stop
    highlighter.take source scan found =
      (scan.pass (highlighter.pendingYield source scan ++ highlighter.matchYield source scan found)
        stop).note (matchEvents scan found) := by
  intro found
  let text := Yield.ofText source rule.words scan.pos stop
  have sorted : ∀ counted : Scan,
      ((counted.count text).add (Yield.wrapped rule.scope scan.pos stop text.nodes)).advance stop =
        counted.pass { text with nodes := Yield.wrapped rule.scope scan.pos stop text.nodes } stop :=
    fun _ => rfl
  simp only [take, found, Scan.sort_eq, Scan.wrap_eq]
  rw [sorted, counted_eq highlighter source ordered, Scan.note_pass]
  rw [Scan.pass, Scan.gain_gain, ← Scan.pass, Scan.pass_pass]
  rfl

theorem take_parts (index : Nat) (rule : PartsRule) (stop : Nat) (parts : List Part) :
    let found := Found.parts index rule stop parts
    highlighter.take source scan found =
      (scan.pass (highlighter.pendingYield source scan ++ highlighter.matchYield source scan found)
        stop).note (matchEvents scan found) := by
  intro found
  simp only [take, found, counted_eq highlighter source ordered, Scan.addParts_eq, Scan.note_gain,
    Scan.note_advance]
  rw [Scan.gain_gain, ← Scan.pass, Scan.pass_pass]
  rfl

theorem take_container (index : Nat) (rule : ContainerRule) (stop : Nat) :
    let found := Found.container index rule stop
    highlighter.take source scan found =
      ((scan.pass (highlighter.pendingYield source scan ++ highlighter.matchYield source scan found)
        scan.pos).goInto index rule stop).note
          (.opened index rule.scope :: matchEvents scan found) := by
  intro found
  have stays : ∀ (before : Scan) (yield : Yield),
      (before.pass yield scan.pos).gain (.ofMatch rule.relevance) =
        (before.pass yield scan.pos).pass (.ofMatch rule.relevance) scan.pos := by
    rintro ⟨pos, ground, containers, relevance, stats, events⟩ yield
    cases containers <;> rfl
  simp only [take, found, counted_eq highlighter source ordered, Found.relevance, stays,
    Scan.pass_pass]
  rfl

end Take

end Highlighter

end Highlighting
