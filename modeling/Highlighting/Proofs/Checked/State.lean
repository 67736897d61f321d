import Highlighting.Proofs.Checked.Attempt
import Highlighting.Proofs.Checked.Sorting
import Highlighting.Proofs.Scan.Turns

/-! # States of a scan over bytes

The state of a scan over bytes is a stack of frames, the innermost first, which ends with the frame of
the language. No frame may be missing where one is used, and what is tried inside a frame depends on the
number of its rule, which has to be that of a container. Each operation is shown to do with the state of
a scan what the operation on the scan does. -/
set_option autoImplicit false
namespace Highlighting.Checked

structure Frame where
  /-- The rule of the frame; the language has none. -/
  rule : Option Nat := none
  scope : Option Scope := none
  start : Nat := 0
  pending : Nat := 0
  nodes : List Node := []

structure State where
  pos : Nat := 0
  frames : List Frame := [{}]
  /-- Every addition wraps around where it does not fit. -/
  relevance : UInt32 := 0
  stats : Stats := {}

namespace State

def setTop? (state : State) (frame : Frame) : Option State :=
  match state.frames with
  | [] => none
  | _ :: outer => some { state with frames := frame :: outer }

def add? (state : State) (nodes : List Node) : Option State := do
  let frame ← state.frames.head?
  state.setTop? { frame with nodes := Node.pushAll frame.nodes nodes }

def setPending? (state : State) (byte : Nat) : Option State := do
  let frame ← state.frames.head?
  state.setTop? { frame with pending := byte }

def advance? (state : State) (stop : Nat) : Option State :=
  { state with pos := stop }.setPending? stop

def wrap? (state : State) (scope : Option Scope) (start stop : Nat) (nodes : List Node) : Option State :=
  match scope with
  | some scope => state.add? [.marked scope start stop nodes]
  | none => state.add? nodes

/-- Closes the innermost frame, around which there has to be another one. -/
def close? (state : State) : Option State :=
  match state.frames with
  | inner :: parent :: outer => do
      let left := { state with frames := parent :: outer }
      let added ← left.wrap? inner.scope inner.start state.pos inner.nodes.reverse
      added.setPending? state.pos
  | _ => none

def sort? (source : Source) (state : State) (table : Option WordTable) (start stop : Nat) :
    Option (List Node × State) :=
  match table with
  | none => some ([.text start stop], state)
  | some table => do
      let sorted ← Checked.sort? source table start stop
      return (sorted.nodes.reverse,
        { state with
          relevance := state.relevance + .ofNat sorted.relevance
          stats := { state.stats with keywordHits := state.stats.keywordHits + sorted.hits } })

end State

/-- What is tried inside a frame. -/
structure Inside where
  rules : List Nat
  words : Option WordTable
  closer : Option Program
  illegal : Option Program

/-- A frame of a rule that is no container has nothing inside. -/
def inside? (highlighter : Highlighter) (state : State) : Option Inside := do
  let frame ← state.frames.head?
  match frame.rule with
  | none => return ⟨highlighter.root, some highlighter.words, none, highlighter.illegal⟩
  | some index =>
      match highlighter.rules[index]? with
      | some (.container rule) => return ⟨rule.rules, rule.words, some rule.closer, rule.illegal⟩
      | _ => none

/-- Sorts the pending text of the innermost frame. -/
def flush? (source : Source) (highlighter : Highlighter) (state : State) : Option State := do
  let frame ← state.frames.head?
  if state.pos ≤ frame.pending then return state
  else
    let inside ← inside? highlighter state
    let (nodes, sorted) ← state.sort? source inside.words frame.pending state.pos
    let added ← sorted.add? nodes
    added.setPending? state.pos

/-! ## The state of a scan -/

def Frame.ofContainer (source : Source) (container : OpenContainer) : Frame where
  rule := some container.index
  scope := container.rule.scope
  start := source.offset container.start
  pending := source.offset container.level.pending
  nodes := Node.inBytesAll source container.level.nodes

def Frame.ofGround (source : Source) (level : Level) : Frame where
  pending := source.offset level.pending
  nodes := Node.inBytesAll source level.nodes

def State.ofScan (source : Source) (scan : Scan) : State where
  pos := source.offset scan.pos
  frames := scan.containers.map (Frame.ofContainer source) ++ [Frame.ofGround source scan.ground]
  relevance := .ofNat scan.relevance
  stats := scan.stats

end Checked

/-- All nodes fit into the text, and the containers have been opened at places that the scan has come
to. -/
structure Scan.Fits (source : Source) (scan : Scan) : Prop where
  ground : Node.AllFit source.size scan.ground.nodes
  containers : ∀ container ∈ scan.containers,
    Node.AllFit source.size container.level.nodes ∧ container.start ≤ scan.pos
  pos_le : scan.pos ≤ source.size

namespace Scan.Fits
variable {source : Source} {scan : Scan}

theorem level (fits : scan.Fits source) : Node.AllFit source.size scan.level.nodes := by
  obtain ⟨pos, ground, containers, relevance, stats, events⟩ := scan
  cases containers with
  | nil => exact fits.ground
  | cons inner outer => exact (fits.containers inner List.mem_cons_self).1

theorem setLevel (fits : scan.Fits source) {level : Level} (fit : Node.AllFit source.size level.nodes) :
    (scan.setLevel level).Fits source := by
  obtain ⟨pos, ground, containers, relevance, stats, events⟩ := scan
  cases containers with
  | nil => exact ⟨fit, fits.containers, fits.pos_le⟩
  | cons inner outer =>
      obtain ⟨here, others⟩ := List.forall_mem_cons.mp fits.containers
      exact ⟨fits.ground, List.forall_mem_cons.mpr ⟨⟨fit, here.2⟩, others⟩, fits.pos_le⟩

theorem add (fits : scan.Fits source) {nodes : List Node}
    (pushable : ∀ node ∈ nodes, node.Pushable source.size) : (scan.add nodes).Fits source :=
  fits.setLevel (Node.pushAll_fits fits.level pushable)

theorem setPending (fits : scan.Fits source) (place : Nat) : (scan.setPending place).Fits source :=
  fits.setLevel fits.level

theorem count (fits : scan.Fits source) (yield : Yield) : (scan.count yield).Fits source :=
  ⟨fits.ground, fits.containers, fits.pos_le⟩

theorem moveTo (fits : scan.Fits source) {place : Nat} (forth : scan.pos ≤ place)
    (inside : place ≤ source.size) : ({ scan with pos := place } : Scan).Fits source :=
  ⟨fits.ground, fun container opened =>
    ⟨(fits.containers container opened).1, Nat.le_trans (fits.containers container opened).2 forth⟩, inside⟩

theorem passChar (fits : scan.Fits source) (more : scan.pos < source.size) :
    scan.passChar.Fits source :=
  have moved := fits.moveTo (Nat.le_succ scan.pos) more
  ⟨moved.ground, moved.containers, moved.pos_le⟩

end Scan.Fits

namespace Checked
variable {source : Source} {scan : Scan}

/-- The result is the state of the scan, and the scan fits. -/
structure Shows (source : Source) (result : Option State) (scan : Scan) : Prop where
  state : result = some (.ofScan source scan)
  fits : scan.Fits source

/-- What goes on from the state of a scan shows what it comes to. -/
theorem Shows.andThen {result : Option State} {go : State → Option State} {next : Scan}
    (shows : Shows source result scan) (goes : Shows source (go (.ofScan source scan)) next) :
    Shows source (result >>= go) next := by
  refine ⟨?_, goes.fits⟩
  rw [shows.state, Option.bind_eq_bind, Option.bind_some, goes.state]

theorem pos_ofScan (source : Source) (scan : Scan) :
    (State.ofScan source scan).pos = source.offset scan.pos := rfl

theorem add?_shows (fits : scan.Fits source) {nodes : List Node}
    (pushable : ∀ node ∈ nodes, node.Pushable source.size) :
    Shows source ((State.ofScan source scan).add? (Node.inBytesAll source nodes)) (scan.add nodes) := by
  refine ⟨?_, fits.add pushable⟩
  have pushed := Node.pushAll_inBytes source fits.level pushable
  obtain ⟨pos, ground, containers, relevance, stats, events⟩ := scan
  cases containers with
  | nil =>
      have same : Node.pushAll (Frame.ofGround source ground).nodes _ = _ := pushed
      simp only [State.ofScan, List.map_nil, List.nil_append, State.add?, List.head?_cons,
        Option.bind_eq_bind, Option.bind_some, State.setTop?, same]
      rfl
  | cons inner outer =>
      have same : Node.pushAll (Frame.ofContainer source inner).nodes _ = _ := pushed
      simp only [State.ofScan, List.map_cons, List.cons_append, State.add?, List.head?_cons,
        Option.bind_eq_bind, Option.bind_some, State.setTop?, same]
      rfl

theorem setPending?_ofScan (scan : Scan) (place : Nat) :
    (State.ofScan source scan).setPending? (source.offset place) =
      some (.ofScan source (scan.setPending place)) := by
  obtain ⟨pos, ground, containers, relevance, stats, events⟩ := scan
  cases containers <;> rfl

theorem setPending?_shows (fits : scan.Fits source) (place : Nat) :
    Shows source ((State.ofScan source scan).setPending? (source.offset place))
      (scan.setPending place) :=
  ⟨setPending?_ofScan scan place, fits.setPending place⟩

theorem advance?_shows (fits : scan.Fits source) {stop : Nat} (forth : scan.pos ≤ stop)
    (inside : stop ≤ source.size) :
    Shows source ((State.ofScan source scan).advance? (source.offset stop)) (scan.advance stop) :=
  setPending?_shows (fits.moveTo forth inside) stop

theorem wrap?_shows (fits : scan.Fits source) (scope : Option Scope) {start stop : Nat}
    {nodes : List Node} (ordered : start ≤ stop) (inside : stop ≤ source.size)
    (fit : Node.AllFit source.size nodes) :
    Shows source ((State.ofScan source scan).wrap? scope (source.offset start) (source.offset stop)
      (Node.inBytesAll source nodes)) (scan.wrap scope start stop nodes) := by
  cases scope with
  | none => exact add?_shows fits fun node member => (fit node member).pushable
  | some scope =>
      have marked : (Node.marked scope start stop nodes).Fits source.size := .marked ordered inside fit
      exact add?_shows fits (List.forall_mem_singleton.mpr marked.pushable)

theorem ofText_fit (source : Source) (table : Option WordTable) {start stop : Nat}
    (ordered : start ≤ stop) (inside : stop ≤ source.size) :
    Node.AllFit source.size (Yield.ofText source table start stop).nodes := by
  cases table with
  | none => exact List.forall_mem_singleton.mpr (.text ordered inside)
  | some table => exact (table.sort_fills source ordered).allFit inside

theorem sort?_ofScan (scan : Scan) (table : Option WordTable) {start stop : Nat}
    (ordered : start ≤ stop) (inside : stop ≤ source.size) :
    (State.ofScan source scan).sort? source table (source.offset start) (source.offset stop) =
      some (Node.inBytesAll source (Yield.ofText source table start stop).nodes,
        .ofScan source (scan.count (Yield.ofText source table start stop))) := by
  cases table with
  | none => rfl
  | some table =>
      simp only [State.sort?, sort?_offset table ordered inside, Option.bind_eq_bind, Option.bind_some,
        Yield.ofText, Node.inBytesAll_reverse, State.ofScan, Scan.count, UInt32.ofNat_add]
      rfl

theorem close?_shows (fits : scan.Fits source) {inner : OpenContainer} {outer : List OpenContainer}
    (opened : scan.containers = inner :: outer) :
    Shows source (State.ofScan source scan).close? scan.close := by
  obtain ⟨pos, ground, containers, relevance, stats, events⟩ := scan
  cases opened
  obtain ⟨here, others⟩ := List.forall_mem_cons.mp fits.containers
  let left : Scan := ⟨pos, ground, outer, relevance, stats,
    .closed inner.index inner.rule.scope inner.start pos :: events⟩
  have leftFits : left.Fits source := ⟨fits.ground, others, fits.pos_le⟩
  have wrapped := wrap?_shows leftFits inner.rule.scope here.2 fits.pos_le here.1.reverse
  -- There is always a frame around that of a container, if only that of the language.
  have closed : (State.ofScan source ⟨pos, ground, inner :: outer, relevance, stats, events⟩).close? =
      ((State.ofScan source left).wrap? inner.rule.scope (source.offset inner.start) (source.offset pos)
        (Node.inBytesAll source inner.level.nodes).reverse) >>=
          (·.setPending? (source.offset pos)) := by
    cases outer <;> rfl
  rw [Node.inBytesAll_reverse] at wrapped
  rw [closed]
  exact wrapped.andThen (setPending?_shows wrapped.fits pos)

/-! ## What is inside -/

/-- Every open container is a rule of the language. -/
def Owned (highlighter : Highlighter) (scan : Scan) : Prop :=
  ∀ container ∈ scan.containers,
    highlighter.rules[container.index]? = some (.container container.rule)

def Inside.ofScan (highlighter : Highlighter) (scan : Scan) : Inside where
  rules := highlighter.rulesAt scan
  words := highlighter.wordsAt scan
  closer := scan.containers.head?.map (·.rule.closer)
  illegal := highlighter.illegalAt scan

variable {highlighter : Highlighter}

theorem inside?_ofScan (owned : Owned highlighter scan) :
    inside? highlighter (.ofScan source scan) = some (.ofScan highlighter scan) := by
  obtain ⟨pos, ground, containers, relevance, stats, events⟩ := scan
  cases containers with
  | nil => rfl
  | cons inner outer =>
      have rule := owned inner List.mem_cons_self
      simp only [inside?, State.ofScan, List.map_cons, List.cons_append, List.head?_cons,
        Option.bind_eq_bind, Option.bind_some, Frame.ofContainer, rule]
      rfl

theorem Owned.pass (owned : Owned highlighter scan) (yield : Yield) (place : Nat) :
    Owned highlighter (scan.pass yield place) := by
  obtain ⟨pos, ground, containers, relevance, stats, events⟩ := scan
  cases containers with
  | nil => exact owned
  | cons inner outer => exact List.forall_mem_cons.mpr (List.forall_mem_cons.mp owned)

theorem Inside.ofScan_pass (highlighter : Highlighter) (scan : Scan) (yield : Yield) (place : Nat) :
    ofScan highlighter (scan.pass yield place) = ofScan highlighter scan := by
  obtain ⟨pos, ground, containers, relevance, stats, events⟩ := scan
  cases containers <;> rfl

theorem top_ofScan (source : Source) (scan : Scan) :
    ∃ frame, (State.ofScan source scan).frames.head? = some frame ∧
      frame.pending = source.offset scan.level.pending := by
  obtain ⟨pos, ground, containers, relevance, stats, events⟩ := scan
  cases containers with
  | nil => exact ⟨.ofGround source ground, rfl, rfl⟩
  | cons inner outer => exact ⟨.ofContainer source inner, rfl, rfl⟩

theorem flush?_shows (fits : scan.Fits source) (owned : Owned highlighter scan)
    (ordered : scan.level.pending ≤ scan.pos) :
    Shows source (flush? source highlighter (.ofScan source scan)) (highlighter.flush source scan) := by
  obtain ⟨frame, top, pending⟩ := top_ofScan source scan
  have sameOrder : source.offset scan.pos ≤ source.offset scan.level.pending ↔
      scan.pos ≤ scan.level.pending := source.offset_le_iff fits.pos_le
  rw [flush?, top, Option.bind_eq_bind, Option.bind_some, pending, pos_ofScan, Highlighter.flush]
  by_cases proper : scan.level.pending < scan.pos
  · have fit := ofText_fit source (highlighter.wordsAt scan) ordered fits.pos_le
    have sorted := sort?_ofScan scan (highlighter.wordsAt scan) ordered fits.pos_le
    rw [if_pos proper, if_neg (mt sameOrder.mp (Nat.not_le.mpr proper)), Scan.sort_eq,
      inside?_ofScan owned, Option.bind_eq_bind, Option.bind_some, Inside.ofScan, sorted,
      Option.bind_eq_bind, Option.bind_some]
    generalize Yield.ofText source (highlighter.wordsAt scan) scan.level.pending scan.pos = yield at fit ⊢
    have added := add?_shows (fits.count yield) fun node member => (fit node member).pushable
    exact added.andThen (setPending?_shows added.fits scan.pos)
  · rw [if_neg proper, if_pos (sameOrder.mpr (Nat.not_lt.mp proper))]
    exact ⟨rfl, fits⟩

end Checked

end Highlighting
