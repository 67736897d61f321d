import Highlighting.Proofs.Scan.Sorting
import Highlighting.Proofs.Scan.Turns
import Highlighting.Proofs.Tree.Bytes

/-! # Scans cover their source

At each level of a scan the nodes fill the text from the start of the level to its pending text, and a
level starts where the text pending around it starts. Every turn keeps this, as long as the parts of the
matches it takes are in order. At the end nothing is pending and no container is open, so the nodes fill
the source. -/
set_option autoImplicit false
namespace Highlighting

namespace Part

def Proper (part : Part) : Prop :=
  part.start < part.stop

instance (part : Part) : Decidable part.Proper :=
  inferInstanceAs (Decidable (part.start < part.stop))

/-- The parts that are not empty follow each other, and they are all between `first` and `last`. -/
structure InOrder (first last : Nat) (parts : List Part) : Prop where
  inside : ∀ part ∈ parts, part.Proper → first ≤ part.start ∧ part.stop ≤ last
  ascending : (parts.filter (·.Proper)).Pairwise fun left right => left.stop ≤ right.start

theorem InOrder.nil (first last : Nat) : InOrder first last [] :=
  ⟨fun _ absurdity => absurd absurdity List.not_mem_nil, .nil⟩

variable {first last : Nat} {part : Part} {rest : List Part}

theorem inOrder_iff {parts : List Part} :
    InOrder first last parts ↔
      (∀ part ∈ parts, part.Proper → first ≤ part.start ∧ part.stop ≤ last) ∧
        (parts.filter (·.Proper)).Pairwise fun left right => left.stop ≤ right.start :=
  ⟨fun inOrder => ⟨inOrder.inside, inOrder.ascending⟩, fun both => ⟨both.1, both.2⟩⟩

instance (parts : List Part) : Decidable (InOrder first last parts) :=
  decidable_of_iff' _ inOrder_iff

theorem InOrder.of_empty (inOrder : InOrder first last (part :: rest)) (empty : ¬ part.Proper) :
    InOrder first last rest := by
  refine ⟨fun other member => inOrder.inside other (List.mem_cons_of_mem _ member), ?_⟩
  have ascending := inOrder.ascending
  rwa [List.filter_cons_of_neg (by simpa using empty)] at ascending

theorem InOrder.of_proper (inOrder : InOrder first last (part :: rest)) (proper : part.Proper) :
    first ≤ part.start ∧ part.stop ≤ last ∧ InOrder part.stop last rest := by
  have here := inOrder.inside part List.mem_cons_self proper
  have ascending := inOrder.ascending
  rw [List.filter_cons_of_pos (by simpa using proper), List.pairwise_cons] at ascending
  refine ⟨here.1, here.2, ?_, ascending.2⟩
  intro other member properOther
  have listed : other ∈ rest.filter (·.Proper) :=
    List.mem_filter.mpr ⟨member, by simpa using properOther⟩
  exact ⟨ascending.1 other listed, (inOrder.inside other (List.mem_cons_of_mem _ member) properOther).2⟩

end Part

namespace Found

/-- The parts that a match is cut into. Only a rule of parts has any. -/
def pieces : Found → List Part
  | .parts _ _ _ located => located
  | .single _ _ _ | .container _ _ _ => []

end Found

namespace Yield
variable (source : Source)

theorem ofText_fills (table : Option WordTable) {start stop : Nat} (proper : start < stop) :
    Node.Fills start stop (ofText source table start stop).nodes := by
  cases table with
  | none =>
      refine ⟨⟨rfl, rfl⟩, .singleton _, ?_⟩
      intro node member
      rw [List.mem_singleton.mp member]
      exact .text proper
  | some table => exact table.sort_fills source (Nat.le_of_lt proper)

theorem ofText_covers (table : Option WordTable) {start stop : Nat} (ordered : start ≤ stop) :
    Node.Covers start stop (ofText source table start stop).nodes := by
  cases table with
  | none => exact .text ordered
  | some table => exact (table.sort_fills source ordered).covers

theorem wrapped_covers (scope : Option Scope) {start stop : Nat} {nodes : List Node}
    (filled : Node.Fills start stop nodes) (proper : start < stop) :
    Node.Covers start stop (wrapped scope start stop nodes) := by
  cases scope with
  | none => exact filled.covers
  | some scope => exact (filled.marked proper scope).covers

theorem ofSingle_covers (rule : SingleRule) {start stop : Nat} (proper : start < stop) :
    Node.Covers start stop (ofSingle source rule start stop).nodes :=
  wrapped_covers rule.scope (ofText_fills source rule.words proper) proper

theorem ofParts_covers (table : Option WordTable) {stop : Nat} {parts : List Part} :
    ∀ {last : Nat}, last ≤ stop → Part.InOrder last stop parts →
      Node.Covers last stop (ofParts source table stop last parts).nodes := by
  induction parts with
  | nil => intro last ordered _; exact .text ordered
  | cons part rest ih =>
      intro last ordered inOrder
      unfold ofParts
      split
      · next empty => exact ih ordered (inOrder.of_empty (Nat.not_lt.mpr empty))
      · next nonempty =>
          have proper : part.Proper := Nat.not_le.mp nonempty
          obtain ⟨starts, stops, behind⟩ := inOrder.of_proper proper
          refine ((Node.Covers.text starts).append ?_).append (ih stops behind)
          cases part.scope with
          | some scope => exact (Node.leaf_sound proper scope).covers
          | none => exact ofText_covers source table (Nat.le_of_lt proper)

end Yield

/-- The level is filled from `first` to its pending text, which starts at `last`. -/
structure Level.Filled (first last : Nat) (level : Level) : Prop where
  pending_eq : level.pending = last
  fills : Node.Fills first last level.nodes.reverse

/-- Every level is filled up to its pending text, and where the pending text of one level starts, the
container inside it starts. The innermost one is filled up to `last`. -/
def Stacked (ground : Level) : List OpenContainer → Nat → Prop
  | [], last => ground.Filled 0 last
  | inner :: outer, last => inner.level.Filled inner.start last ∧ Stacked ground outer inner.start

namespace Scan

/-- The text behind a scan is in its nodes or pending, each character once. -/
structure Covered (scan : Scan) : Prop where
  pending_le : scan.level.pending ≤ scan.pos
  stacked : Stacked scan.ground scan.containers scan.level.pending
  proper : ∀ container ∈ scan.containers, container.start < scan.pos

variable {scan : Scan}

theorem covered_start : ({} : Scan).Covered :=
  ⟨Nat.le_refl 0, ⟨rfl, Node.Fills.nil 0⟩, fun _ absurdity => nomatch absurdity⟩

theorem Covered.note (covered : scan.Covered) (events : List ScanEvent) :
    (scan.note events).Covered :=
  ⟨covered.pending_le, covered.stacked, covered.proper⟩

theorem Covered.passChar (covered : scan.Covered) : scan.passChar.Covered :=
  ⟨Nat.le_succ_of_le covered.pending_le, covered.stacked, fun container opened =>
    Nat.lt_succ_of_lt (covered.proper container opened)⟩

theorem Covered.pass (covered : scan.Covered) {yield : Yield} {place : Nat} (forth : scan.pos ≤ place)
    (covers : Node.Covers scan.level.pending place yield.nodes) : (scan.pass yield place).Covered := by
  obtain ⟨pos, ground, containers, relevance, stats, events⟩ := scan
  obtain ⟨pending_le, stacked, proper⟩ := covered
  cases containers with
  | nil =>
      exact ⟨Nat.le_refl place, ⟨rfl, Node.fills_pushAll stacked.fills covers⟩,
        fun _ absurdity => nomatch absurdity⟩
  | cons inner outer =>
      refine ⟨Nat.le_refl place, ⟨⟨rfl, Node.fills_pushAll stacked.1.fills covers⟩, stacked.2⟩, ?_⟩
      intro container opened
      rcases List.mem_cons.mp opened with rfl | around
      · exact Nat.lt_of_lt_of_le (proper inner List.mem_cons_self) forth
      · exact Nat.lt_of_lt_of_le (proper container (List.mem_cons_of_mem _ around)) forth

theorem Covered.goInto (covered : scan.Covered) (index : Nat) (rule : ContainerRule) {stop : Nat}
    (proper : scan.pos < stop) (settled : scan.level.pending = scan.pos) :
    (scan.goInto index rule stop).Covered := by
  refine ⟨Nat.le_of_lt proper, ⟨⟨rfl, Node.Fills.nil scan.pos⟩, settled ▸ covered.stacked⟩, ?_⟩
  intro container opened
  rcases List.mem_cons.mp opened with rfl | around
  · exact proper
  · exact Nat.lt_trans (covered.proper container around) proper

theorem Covered.goOut (covered : scan.Covered) (settled : scan.level.pending = scan.pos)
    {inner : OpenContainer} {outer : List OpenContainer} (opened : scan.containers = inner :: outer) :
    (scan.goOut inner outer).Covered := by
  have stacked := covered.stacked
  rw [opened, settled] at stacked
  have proper := covered.proper
  rw [opened] at proper
  -- What is pending around the container starts where the container does, so nothing is between them.
  have around : ({ scan with containers := outer } : Scan).level.pending = inner.start := by
    cases outer with
    | nil => exact stacked.2.pending_eq
    | cons next rest => exact stacked.2.1.pending_eq
  have starts := proper inner List.mem_cons_self
  have left : ({ scan with containers := outer } : Scan).Covered := by
    refine ⟨?_, ?_, fun container member => proper container (List.mem_cons_of_mem _ member)⟩
    · rw [around]
      exact Nat.le_of_lt starts
    · rw [around]
      exact stacked.2
  refine left.pass (Nat.le_refl _) ?_
  rw [around]
  exact Yield.wrapped_covers inner.rule.scope stacked.1.fills starts

end Scan

namespace Highlighter
variable {highlighter : Highlighter} {source : Source} {scan : Scan}

theorem pendingYield_covers (highlighter : Highlighter) (source : Source) (covered : scan.Covered) :
    Node.Covers scan.level.pending scan.pos (highlighter.pendingYield source scan).nodes :=
  Yield.ofText_covers source _ covered.pending_le

theorem take_covered {found : Found} (covered : scan.Covered) (inside : scan.pos ≤ source.size)
    (first : highlighter.firstMatch? source scan.pos (highlighter.rulesAt scan) = some found)
    (inOrder : Part.InOrder scan.pos found.stop found.pieces) :
    (highlighter.take source scan found).Covered := by
  have bounds := firstMatch?_bounds inside first
  have before := pendingYield_covers highlighter source covered
  cases found with
  | single index rule stop =>
      rw [take_single highlighter source covered.pending_le]
      have here := Yield.ofSingle_covers source rule bounds.1
      exact (covered.pass (Nat.le_of_lt bounds.1) (before.append here)).note _
  | parts index rule stop parts =>
      rw [take_parts highlighter source covered.pending_le]
      have here := Yield.ofParts_covers source (highlighter.wordsAt scan)
        (Nat.le_of_lt bounds.1) inOrder
      exact (covered.pass (Nat.le_of_lt bounds.1) (before.append here)).note _
  | container index rule stop =>
      rw [take_container highlighter source covered.pending_le]
      have here : Node.Covers scan.pos scan.pos
          (highlighter.matchYield source scan (.container index rule stop)).nodes :=
        .nil scan.pos
      have both : Node.Covers scan.level.pending scan.pos
          (highlighter.pendingYield source scan ++
            highlighter.matchYield source scan (.container index rule stop)).nodes :=
        before.append here
      have passed := covered.pass (Nat.le_refl scan.pos) both
      refine (passed.goInto index rule ?_ ?_).note _
      · rw [Scan.pass_pos]
        exact bounds.1
      · rw [Scan.pass_level, Scan.pass_pos]

theorem close_covered {stop : Nat} (covered : scan.Covered) (forth : scan.pos ≤ stop)
    {inner : OpenContainer} {outer : List OpenContainer} (opened : scan.containers = inner :: outer) :
    (highlighter.flush source { scan with pos := stop }).close.Covered := by
  have ordered := Nat.le_trans covered.pending_le forth
  rw [closed_eq ordered opened]
  have passed := covered.pass forth (Yield.ofText_covers source inner.rule.words ordered)
  refine (passed.goOut ?_ (Scan.pass_containers _ _ _ opened)).note _
  rw [Scan.pass_level, Scan.pass_pos]

/-- Every match that the scan takes has its parts in order. -/
def TakesInOrder (highlighter : Highlighter) (source : Source) : Prop :=
  ∀ scan found, highlighter.Visits source scan →
    highlighter.firstMatch? source scan.pos (highlighter.rulesAt scan) = some found →
      Part.InOrder scan.pos found.stop found.pieces

theorem takesInOrder_iff :
    highlighter.TakesInOrder source ↔
      ∀ count < 2 * source.size, ∀ scan ∈ (highlighter.turns source count {}).toOption,
        scan.pos < source.size →
          ∀ found ∈ highlighter.firstMatch? source scan.pos (highlighter.rulesAt scan),
            Part.InOrder scan.pos found.stop found.pieces := by
  constructor
  · intro inOrder count _ scan reached inside found first
    cases turned : highlighter.turns source count {} with
    | error refusal =>
        rw [turned] at reached
        exact nomatch reached
    | ok last =>
        rw [turned] at reached
        cases reached
        exact inOrder scan found ⟨⟨count, turned⟩, inside⟩ first
  · intro inOrder scan found visits first
    obtain ⟨⟨count, turned⟩, inside⟩ := visits
    have early := early_of_visit turned inside
    have reached : scan ∈ (highlighter.turns source count {}).toOption := by
      rw [turned]
      rfl
    exact inOrder count early scan reached inside found first

instance : Decidable (highlighter.TakesInOrder source) :=
  decidable_of_iff' _ takesInOrder_iff

theorem step_covered {next : Scan} (inOrder : highlighter.TakesInOrder source)
    (visits : highlighter.Visits source scan) (covered : scan.Covered)
    (turned : highlighter.step source scan = .ok next) : next.Covered := by
  have inside := Nat.le_of_lt visits.inside
  rcases step_cases turned with ⟨found, first, rfl⟩ | ⟨stop, closes, rfl⟩ | rfl
  · exact take_covered covered inside first (inOrder scan found visits first)
  · obtain ⟨inner, outer, opened, _⟩ := closerStop?_opened closes
    exact close_covered covered (closerStop?_bounds inside closes).1 opened
  · exact covered.passChar

theorem Reaches.covered (inOrder : highlighter.TakesInOrder source)
    (reached : highlighter.Reaches source scan) : scan.Covered :=
  reached.induction Scan.covered_start (step_covered inOrder)

theorem closeAll_filled {count : Nat} :
    ∀ {scan : Scan}, scan.containers.length = count → scan.Covered → scan.level.pending = scan.pos →
      scan.closeAll.ground.Filled 0 scan.pos := by
  induction count with
  | zero =>
      intro scan depth covered settled
      have closed := List.eq_nil_of_length_eq_zero depth
      have stacked := covered.stacked
      rw [closed, settled] at stacked
      rw [Scan.closeAll_of_closed closed]
      exact stacked
  | succ count ih =>
      intro scan depth covered settled
      obtain ⟨inner, outer, opened⟩ := List.exists_cons_of_length_eq_add_one depth
      have closed := Scan.close_eq scan opened
      have left : scan.close.Covered := by
        rw [closed]
        exact (covered.goOut settled opened).note _
      have fewer : scan.close.containers.length = count := by
        rw [closed, Scan.note_containers, Scan.goOut_depth]
        rw [opened, List.length_cons] at depth
        exact Nat.succ.inj depth
      have filled := ih fewer left (scan.close_settled opened)
      rwa [scan.close_pos, ← Scan.closeAll_of_opened opened] at filled

theorem finish_filled (highlighter : Highlighter) (source : Source) (covered : scan.Covered) :
    (highlighter.finish source scan).ground.Filled 0 scan.pos := by
  rw [finish, flush_eq highlighter source covered.pending_le]
  have flushed := covered.pass (Nat.le_refl _) (pendingYield_covers highlighter source covered)
  have filled := closeAll_filled rfl flushed (by rw [Scan.pass_level, Scan.pass_pos])
  rwa [Scan.pass_pos] at filled

/-- A run that takes its matches in order fills the source. -/
theorem run_filled {done : Scan} (inOrder : highlighter.TakesInOrder source)
    (ran : highlighter.run source = .ok done) : done.ground.Filled 0 source.size := by
  obtain ⟨last, reached, ended, rfl⟩ := run_ok ran
  have filled := finish_filled highlighter source (reached.covered inOrder)
  rwa [ended] at filled

/-- A result has the nodes of a run that was not refused. -/
theorem highlight_ok {text : String} {result : Highlight}
    (highlighted : highlighter.highlight text = .ok result) :
    ∃ done, highlighter.run (.ofString text) = .ok done ∧ result.source = .ofString text ∧
      result.nodes = done.ground.nodes.reverse := by
  unfold highlight Highlighter.scan at highlighted
  split at highlighted
  · next done ran =>
      cases highlighted
      exact ⟨done, ran, rfl, rfl⟩
  · exact nomatch highlighted

theorem highlight_wellFormed {text : String} {result : Highlight}
    (inOrder : highlighter.TakesInOrder (.ofString text))
    (highlighted : highlighter.highlight text = .ok result) :
    result.source = .ofString text ∧ result.WellFormed := by
  obtain ⟨done, ran, source, nodes⟩ := highlight_ok highlighted
  refine ⟨source, ?_⟩
  rw [Highlight.WellFormed, nodes, source]
  exact (run_filled inOrder ran).fills

/-- A result whose matches have their parts in order is a tree of the whole text, at places as well as
at byte offsets, and its plain text is that text. -/
theorem highlight_covers (highlighter : Highlighter) (text : String) (result : Highlight)
    (inOrder : highlighter.TakesInOrder (.ofString text))
    (highlighted : highlighter.highlight text = .ok result) :
    result.source = .ofString text ∧ Node.Fills 0 result.source.size result.nodes ∧
      Node.Fills 0 text.utf8ByteSize (Node.inBytesAll result.source result.nodes) ∧
        result.plain = text := by
  obtain ⟨source, formed⟩ := highlight_wellFormed inOrder highlighted
  have bytes := Node.Fills.inBytes result.source formed (Nat.le_refl _)
  have whole := formed.plain_eq
  rw [Source.offset_zero, Source.offset_size, source, Source.toString_ofString] at bytes
  rw [source, Source.toString_ofString] at whole
  exact ⟨source, formed, source ▸ bytes, whole⟩

end Highlighter

namespace Tags

/-- Bindings such as `a=b` between angle brackets. -/
def language : Language where
  name := "tags"
  rules :=
    [.container { scope := some .metadata, opener := "<", closer := ">" }
      [.parts { parts := ["[a-z]", "=", "[a-z]"], scopes := [(1, .symbol), (3, .string)] }]]

theorem compiles : (Highlighter.ofLanguage language).toOption.isSome = true := by
  decide +kernel

def highlighter : Highlighter :=
  (Highlighter.ofLanguage language).toOption.get compiles

theorem binding_covered :
    ∃ result, highlighter.highlight "x<a=b>" = .ok result ∧ Node.Fills 0 6 result.nodes ∧
      result.plain = "x<a=b>" := by
  have inOrder : highlighter.TakesInOrder (.ofString "x<a=b>") := by
    decide +kernel
  have legal : (highlighter.highlight "x<a=b>").toOption.isSome = true := by
    decide +kernel
  cases highlighted : highlighter.highlight "x<a=b>" with
  | error illegal =>
      rw [highlighted] at legal
      exact nomatch legal
  | ok result =>
      obtain ⟨source, filled, _, plain⟩ :=
        Highlighter.highlight_covers highlighter "x<a=b>" result inOrder highlighted
      rw [source] at filled
      exact ⟨result, rfl, filled, plain⟩

end Tags

end Highlighting
