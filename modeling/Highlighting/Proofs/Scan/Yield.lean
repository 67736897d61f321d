import Highlighting.Highlight

/-! # What stretches of a source yield

A stretch of the source yields nodes and counts. A scan that passes a stretch takes over what it yields
and stands behind it with nothing pending. Passing two stretches is passing one. -/
set_option autoImplicit false
namespace Highlighting

namespace Stats

instance : Add Stats where
  add left right :=
    { ruleMatches := left.ruleMatches + right.ruleMatches
      keywordHits := left.keywordHits + right.keywordHits
      plainChars := left.plainChars + right.plainChars }

theorem add_def (left right : Stats) :
    left + right =
      { ruleMatches := left.ruleMatches + right.ruleMatches
        keywordHits := left.keywordHits + right.keywordHits
        plainChars := left.plainChars + right.plainChars } := rfl

@[simp] theorem add_none (stats : Stats) : stats + {} = stats := rfl

@[simp] theorem none_add (stats : Stats) : ({} : Stats) + stats = stats := by
  simp [add_def]

theorem add_assoc (a b c : Stats) : a + b + c = a + (b + c) := by
  simp [add_def, Nat.add_assoc]

end Stats

/-- The nodes of a stretch in order, and what was counted in it. -/
structure Yield where
  nodes : List Node := []
  relevance : Nat := 0
  stats : Stats := {}

namespace Yield

instance : Append Yield where
  append left right :=
    { nodes := left.nodes ++ right.nodes
      relevance := left.relevance + right.relevance
      stats := left.stats + right.stats }

theorem append_def (left right : Yield) :
    left ++ right =
      { nodes := left.nodes ++ right.nodes
        relevance := left.relevance + right.relevance
        stats := left.stats + right.stats } := rfl

@[simp] theorem append_empty (yield : Yield) : yield ++ {} = yield := by
  simp [append_def]

/-- Text that is sorted into words, or kept as it is where there is no table. -/
def ofText (source : Source) (table : Option WordTable) (start stop : Nat) : Yield :=
  match table with
  | none => { nodes := [.text start stop] }
  | some table =>
      let sorted := table.sort source start stop
      { nodes := sorted.nodes.reverse
        relevance := sorted.relevance
        stats := { keywordHits := sorted.hits } }

/-- Nodes inside a marked range, or the nodes alone where there is no scope. -/
def wrapped (scope : Option Scope) (start stop : Nat) (nodes : List Node) : List Node :=
  match scope with
  | some scope => [.marked scope start stop nodes]
  | none => nodes

/-- A rule that has matched, apart from its nodes. -/
def ofMatch (relevance : Nat) : Yield where
  relevance := relevance
  stats := { ruleMatches := 1 }

/-- So many characters that belong to no match. -/
def ofPlain (count : Nat) : Yield where
  stats := { plainChars := count }

def ofSingle (source : Source) (rule : SingleRule) (start stop : Nat) : Yield :=
  let sorted := ofText source rule.words start stop
  ofMatch rule.relevance ++ { sorted with nodes := wrapped rule.scope start stop sorted.nodes }

/-- The parts of a match, with the text between them, from `last` on. -/
def ofParts (source : Source) (table : Option WordTable) (stop : Nat) : Nat → List Part → Yield
  | last, [] => { nodes := [.text last stop] }
  | last, part :: rest =>
      if part.stop ≤ part.start then ofParts source table stop last rest
      else
        let here : Yield := match part.scope with
          | some scope => { nodes := [.leaf scope part.start part.stop] }
          | none => ofText source table part.start part.stop
        { nodes := [.text last part.start] } ++ here ++ ofParts source table stop part.stop rest

end Yield

namespace Scan

@[simp] theorem level_setLevel (scan : Scan) (level : Level) : (scan.setLevel level).level = level := by
  obtain ⟨pos, ground, containers, relevance, stats, events⟩ := scan
  cases containers <;> rfl

/-- Counts what a stretch yields. -/
def count (scan : Scan) (yield : Yield) : Scan :=
  { scan with
    relevance := scan.relevance + yield.relevance
    stats := scan.stats + yield.stats }

/-- Takes over what a stretch yields. -/
def gain (scan : Scan) (yield : Yield) : Scan :=
  (scan.count yield).add yield.nodes

/-- Takes over what the stretch up to `place` yields and stands there. -/
def pass (scan : Scan) (yield : Yield) (place : Nat) : Scan :=
  (scan.gain yield).advance place

/-- Replaces what has been noted so far. -/
def note (scan : Scan) (events : List ScanEvent) : Scan :=
  { scan with events }

@[simp] theorem note_pos (scan : Scan) (events : List ScanEvent) :
    (scan.note events).pos = scan.pos := rfl

@[simp] theorem note_level (scan : Scan) (events : List ScanEvent) :
    (scan.note events).level = scan.level := rfl

@[simp] theorem note_containers (scan : Scan) (events : List ScanEvent) :
    (scan.note events).containers = scan.containers := rfl

theorem pass_eq (scan : Scan) (yield : Yield) (place : Nat) :
    scan.pass yield place =
      { scan.count yield with pos := place }.setLevel
        { pending := place, nodes := Node.pushAll scan.level.nodes yield.nodes } := by
  obtain ⟨pos, ground, containers, relevance, stats, events⟩ := scan
  cases containers <;> rfl

section Fields
variable (scan : Scan) (yield : Yield) (place : Nat) (events : List ScanEvent)

@[simp] theorem pass_pos : (scan.pass yield place).pos = place := by
  simp only [pass_eq, setLevel]; split <;> rfl

@[simp] theorem pass_relevance :
    (scan.pass yield place).relevance = scan.relevance + yield.relevance := by
  simp only [pass_eq, setLevel]; split <;> rfl

@[simp] theorem pass_stats : (scan.pass yield place).stats = scan.stats + yield.stats := by
  simp only [pass_eq, setLevel]; split <;> rfl

@[simp] theorem pass_events : (scan.pass yield place).events = scan.events := by
  simp only [pass_eq, setLevel]; split <;> rfl

@[simp] theorem pass_level :
    (scan.pass yield place).level = ⟨place, Node.pushAll scan.level.nodes yield.nodes⟩ := by
  simp [pass_eq]

/-- Passing a stretch opens no container and closes none. -/
@[simp] theorem pass_depth :
    (scan.pass yield place).containers.length = scan.containers.length := by
  obtain ⟨pos, ground, containers, relevance, stats, before⟩ := scan
  cases containers <;> rfl

theorem pass_containers {inner : OpenContainer} {outer : List OpenContainer}
    (opened : scan.containers = inner :: outer) :
    (scan.pass yield place).containers =
      { inner with level := ⟨place, Node.pushAll inner.level.nodes yield.nodes⟩ } :: outer := by
  obtain ⟨pos, ground, containers, relevance, stats, before⟩ := scan
  cases opened
  rfl

theorem note_gain : (scan.note events).gain yield = (scan.gain yield).note events := by
  obtain ⟨pos, ground, containers, relevance, stats, before⟩ := scan
  cases containers <;> rfl

theorem note_advance : (scan.note events).advance place = (scan.advance place).note events := by
  obtain ⟨pos, ground, containers, relevance, stats, before⟩ := scan
  cases containers <;> rfl

theorem note_pass : (scan.note events).pass yield place = (scan.pass yield place).note events := by
  rw [pass, note_gain, note_advance, pass]

end Fields

theorem pushAll_append (siblings left right : List Node) :
    Node.pushAll (Node.pushAll siblings left) right = Node.pushAll siblings (left ++ right) := by
  simp [Node.pushAll]

theorem gain_gain (scan : Scan) (first second : Yield) :
    (scan.gain first).gain second = scan.gain (first ++ second) := by
  obtain ⟨pos, ground, containers, relevance, stats, events⟩ := scan
  cases containers <;>
    simp [gain, count, add, setLevel, level, Yield.append_def, pushAll_append, Nat.add_assoc,
      Stats.add_assoc]

theorem pass_pass (scan : Scan) (first second : Yield) (middle place : Nat) :
    (scan.pass first middle).pass second place = scan.pass (first ++ second) place := by
  have between : ((scan.gain first).advance middle).gain second =
      ((scan.gain first).gain second).advance middle := by
    obtain ⟨pos, ground, containers, relevance, stats, events⟩ := scan
    cases containers <;> rfl
  have advanced : ∀ other : Scan, (other.advance middle).advance place = other.advance place := by
    rintro ⟨pos, ground, containers, relevance, stats, events⟩
    cases containers <;> rfl
  rw [pass, pass, between, advanced, gain_gain, pass]

end Scan

end Highlighting
