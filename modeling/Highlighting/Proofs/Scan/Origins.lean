import Highlighting.Proofs.Scan.Finding
import Highlighting.Proofs.Scan.Opened
import Highlighting.Proofs.Scan.Simulation
import Highlighting.Proofs.Scan.Tally

/-! # Where nodes come from

Every node of a result stems from a turn of the scan: it is text, a word of the level where it stands,
a match that was taken there or a part of one, or a container that opened there, and the nodes inside
the container stem from turns inside it. The levels of a scan hold such nodes only, and each turn keeps
this. -/
set_option autoImplicit false
namespace Highlighting

namespace Rule

/-- The words that a rule sorts its own text by. -/
def words? : Rule → Option WordTable
  | single rule => rule.words
  | parts _ => none
  | container rule => rule.words

/-- The scopes that a rule gives to its matches or to parts of them. -/
def ownScopes : Rule → List Scope
  | single rule => rule.scope.toList
  | parts rule => rule.parts.filterMap (·.2)
  | container rule => rule.scope.toList

end Rule

namespace Highlighter
variable (highlighter : Highlighter) (source : Source)

/-- The scan comes to stand at the place inside the container, or outside of all, and takes the match. -/
structure Takes (around : Option ContainerRule) (start : Nat) (found : Found) : Prop where
  visited : ∃ scan, highlighter.Visits source scan ∧ scan.pos = start ∧ scan.around = around
  first : highlighter.firstMatch? source start (highlighter.rulesIn around) = some found

/-- What a node can be inside the container, or outside of all. -/
inductive Stems : Option ContainerRule → Node → Prop where
  | text {around : Option ContainerRule} (start stop : Nat) : Stems around (.text start stop)
  | word {around : Option ContainerRule} {table : WordTable} {start stop : Nat} {node : Node}
      (words : highlighter.wordsIn around = some table)
      (member : node ∈ (table.sort source start stop).nodes) : Stems around node
  | single {around : Option ContainerRule} {index start stop : Nat} {rule : SingleRule} {node : Node}
      (taken : highlighter.Takes source around start (.single index rule stop))
      (member : node ∈ (Yield.ofSingle source rule start stop).nodes) : Stems around node
  | part {around : Option ContainerRule} {index start stop : Nat} {rule : PartsRule} {parts : List Part}
      {first last : Nat} {scope : Scope}
      (taken : highlighter.Takes source around start (.parts index rule stop parts))
      (member : ⟨first, last, some scope⟩ ∈ parts) (proper : first < last) :
      Stems around (.leaf scope first last)
  | container {around : Option ContainerRule} {index start opened stop : Nat} {rule : ContainerRule}
      {children : List Node} {node : Node}
      (taken : highlighter.Takes source around start (.container index rule opened))
      (reaches : opened ≤ stop) (inside : ∀ child ∈ children, Stems (some rule) child)
      (member : node ∈ Yield.wrapped rule.scope start stop children) : Stems around node

def AllStem (around : Option ContainerRule) (nodes : List Node) : Prop :=
  ∀ node ∈ nodes, highlighter.Stems source around node

variable {highlighter source} {around : Option ContainerRule}

theorem Stems.of_isText {node : Node} (isText : node.isText = true) :
    highlighter.Stems source around node := by
  cases node with
  | text start stop => exact .text start stop
  | marked scope start stop children => exact nomatch isText

theorem AllStem.pushAll {siblings nodes : List Node} (before : highlighter.AllStem source around siblings)
    (new : highlighter.AllStem source around nodes) :
    highlighter.AllStem source around (Node.pushAll siblings nodes) := by
  intro node member
  rcases Node.mem_pushAll member with earlier | later | isText
  · exact before node earlier
  · exact new node later
  · exact .of_isText isText

theorem AllStem.reverse {nodes : List Node} (all : highlighter.AllStem source around nodes) :
    highlighter.AllStem source around nodes.reverse :=
  fun node member => all node (List.mem_reverse.mp member)

theorem AllStem.append {left right : List Node} (inLeft : highlighter.AllStem source around left)
    (inRight : highlighter.AllStem source around right) :
    highlighter.AllStem source around (left ++ right) := by
  intro node member
  rcases List.mem_append.mp member with first | second
  · exact inLeft node first
  · exact inRight node second

/-! ## What a turn yields -/

theorem ofText_stems (start stop : Nat) :
    highlighter.AllStem source around
      (Yield.ofText source (highlighter.wordsIn around) start stop).nodes := by
  intro node member
  cases words : highlighter.wordsIn around with
  | none =>
      rw [words] at member
      rw [List.mem_singleton.mp member]
      exact .text start stop
  | some table =>
      rw [words] at member
      exact .word words (List.mem_reverse.mp member)

theorem ofParts_stems {index start stop : Nat} {rule : PartsRule} {parts : List Part}
    (taken : highlighter.Takes source around start (.parts index rule stop parts)) :
    ∀ {rest : List Part} {last : Nat}, rest ⊆ parts →
      highlighter.AllStem source around
        (Yield.ofParts source (highlighter.wordsIn around) stop last rest).nodes := by
  intro rest
  induction rest with
  | nil =>
      intro last _ node member
      rw [List.mem_singleton.mp member]
      exact .text last stop
  | cons part others ih =>
      intro last listed
      obtain ⟨here, behind⟩ := List.cons_subset.mp listed
      rw [Yield.ofParts]
      by_cases empty : part.stop ≤ part.start
      · rw [if_pos empty]
        exact ih behind
      · rw [if_neg empty]
        have proper : part.start < part.stop := Nat.not_le.mp empty
        have gap : highlighter.AllStem source around [.text last part.start] := by
          intro node member
          rw [List.mem_singleton.mp member]
          exact .text last part.start
        obtain ⟨first, last, scope⟩ := part
        cases scope with
        | none => exact (gap.append (ofText_stems first last)).append (ih behind)
        | some scope =>
            have marked : highlighter.AllStem source around [.leaf scope first last] := by
              intro node member
              rw [List.mem_singleton.mp member]
              exact .part taken here proper
            exact (gap.append marked).append (ih behind)

theorem foundYield_stems {start : Nat} {found : Found}
    (taken : highlighter.Takes source around start found) :
    highlighter.AllStem source around (highlighter.foundYield source around start found).nodes := by
  cases found with
  | single index rule stop => exact fun node member => .single taken member
  | parts index rule stop parts => exact ofParts_stems taken (List.Subset.refl parts)
  | container index rule stop => exact fun _ absurdity => absurd absurdity List.not_mem_nil

/-! ## Levels -/

/-- The innermost of some containers, or none outside of all. -/
def innermost (containers : List OpenContainer) : Option ContainerRule :=
  containers.head?.map (·.rule)

/-- Each container opened where it was taken, no later than at `place`, and holds what stems from inside
it. -/
def StackStems (highlighter : Highlighter) (source : Source) (place : Nat) : List OpenContainer → Prop
  | [] => True
  | inner :: outer =>
      ((∃ opened ≤ place, highlighter.Takes source (innermost outer) inner.start
          (.container inner.index inner.rule opened)) ∧
        highlighter.AllStem source (some inner.rule) inner.level.nodes) ∧
      highlighter.StackStems source place outer

/-- All levels of the scan hold what stems from them. -/
structure Stemmed (highlighter : Highlighter) (source : Source) (scan : Scan) : Prop where
  ground : highlighter.AllStem source none scan.ground.nodes
  stack : highlighter.StackStems source scan.pos scan.containers

variable {scan : Scan}

theorem StackStems.later {place later : Nat} (ordered : place ≤ later) {containers : List OpenContainer}
    (stack : highlighter.StackStems source place containers) :
    highlighter.StackStems source later containers := by
  induction containers with
  | nil => trivial
  | cons inner outer ih =>
      obtain ⟨⟨⟨opened, before, taken⟩, inside⟩, others⟩ := stack
      exact ⟨⟨⟨opened, Nat.le_trans before ordered, taken⟩, inside⟩, ih others⟩

theorem stemmed_start : highlighter.Stemmed source {} :=
  ⟨fun _ absurdity => absurd absurdity List.not_mem_nil, trivial⟩

theorem Stemmed.note (stemmed : highlighter.Stemmed source scan) (events : List ScanEvent) :
    highlighter.Stemmed source (scan.note events) :=
  ⟨stemmed.ground, stemmed.stack⟩

theorem Stemmed.passChar (stemmed : highlighter.Stemmed source scan) :
    highlighter.Stemmed source scan.passChar :=
  ⟨stemmed.ground, stemmed.stack.later (Nat.le_succ scan.pos)⟩

theorem Stemmed.pass (stemmed : highlighter.Stemmed source scan) {yield : Yield} {place : Nat}
    (forth : scan.pos ≤ place) (stems : highlighter.AllStem source scan.around yield.nodes) :
    highlighter.Stemmed source (scan.pass yield place) := by
  obtain ⟨pos, ground, containers, relevance, stats, events⟩ := scan
  cases containers with
  | nil => exact ⟨stemmed.ground.pushAll stems, trivial⟩
  | cons inner outer =>
      obtain ⟨⟨opened, inside⟩, others⟩ := stemmed.stack.later forth
      exact ⟨stemmed.ground, ⟨opened, inside.pushAll stems⟩, others⟩

theorem Stemmed.goInto (stemmed : highlighter.Stemmed source scan) {index stop : Nat}
    {rule : ContainerRule} (forth : scan.pos ≤ stop)
    (taken : highlighter.Takes source scan.around scan.pos (.container index rule stop)) :
    highlighter.Stemmed source (scan.goInto index rule stop) :=
  ⟨stemmed.ground, ⟨⟨stop, Nat.le_refl stop, taken⟩, fun _ absurdity => absurd absurdity List.not_mem_nil⟩,
    stemmed.stack.later forth⟩

theorem Stemmed.goOut (stemmed : highlighter.Stemmed source scan) {inner : OpenContainer}
    {outer : List OpenContainer} (opened : scan.containers = inner :: outer) :
    highlighter.Stemmed source (scan.goOut inner outer) := by
  have stack := stemmed.stack
  rw [opened] at stack
  obtain ⟨⟨⟨start, before, taken⟩, inside⟩, others⟩ := stack
  have left : highlighter.Stemmed source { scan with containers := outer } := ⟨stemmed.ground, others⟩
  exact left.pass (Nat.le_refl _) fun node member => .container taken before inside.reverse member

theorem Stemmed.close (stemmed : highlighter.Stemmed source scan) {inner : OpenContainer}
    {outer : List OpenContainer} (opened : scan.containers = inner :: outer) :
    highlighter.Stemmed source scan.close := by
  rw [Scan.close_eq scan opened]
  exact (stemmed.goOut opened).note _

theorem Stemmed.closeAll (stemmed : highlighter.Stemmed source scan) :
    highlighter.Stemmed source scan.closeAll := by
  apply Scan.closeAll_induction (motive := fun first last =>
    highlighter.Stemmed source first → highlighter.Stemmed source last) _ _ scan stemmed
  · exact fun _ _ stemmed => stemmed
  · exact fun first inner outer opened closed stemmed => closed (stemmed.close opened)

/-! ## Turns -/

theorem pendingYield_stems (highlighter : Highlighter) (source : Source) (scan : Scan) :
    highlighter.AllStem source scan.around (highlighter.pendingYield source scan).nodes := by
  rw [pendingYield, wordsAt_eq]
  exact ofText_stems _ _

theorem take_stemmed {found : Found} (visits : highlighter.Visits source scan)
    (first : highlighter.firstMatch? source scan.pos (highlighter.rulesAt scan) = some found)
    (stemmed : highlighter.Stemmed source scan) :
    highlighter.Stemmed source (highlighter.take source scan found) := by
  have ready := visits.reached.ready
  have bounds := firstMatch?_bounds ready.pos_le first
  rw [rulesAt_eq] at first
  have taken : highlighter.Takes source scan.around scan.pos found := ⟨⟨scan, visits, rfl, rfl⟩, first⟩
  have yields := (pendingYield_stems highlighter source scan).append (foundYield_stems taken)
  rw [← matchYield_eq] at yields
  cases found with
  | single index rule stop =>
      rw [take_single highlighter source ready.pending_le]
      exact (stemmed.pass (Nat.le_of_lt bounds.1) yields).note _
  | parts index rule stop parts =>
      rw [take_parts highlighter source ready.pending_le]
      exact (stemmed.pass (Nat.le_of_lt bounds.1) yields).note _
  | container index rule stop =>
      rw [take_container highlighter source ready.pending_le]
      refine ((stemmed.pass (Nat.le_refl _) yields).goInto ?_ ?_).note _
      · rw [Scan.pass_pos]
        exact Nat.le_of_lt bounds.1
      · rw [Scan.pass_around, Scan.pass_pos]
        exact taken

theorem step_stemmed {next : Scan} (visits : highlighter.Visits source scan)
    (stemmed : highlighter.Stemmed source scan) (turned : highlighter.step source scan = .ok next) :
    highlighter.Stemmed source next := by
  have ready := visits.reached.ready
  rcases step_cases turned with ⟨found, first, rfl⟩ | ⟨stop, closes, rfl⟩ | rfl
  · exact take_stemmed visits first stemmed
  · obtain ⟨inner, outer, opened, _⟩ := closerStop?_opened closes
    have forth := (closerStop?_bounds ready.pos_le closes).1
    have inside : scan.around = some inner.rule := by
      rw [Scan.around, opened]
      rfl
    have stems : highlighter.AllStem source scan.around
        (Yield.ofText source inner.rule.words scan.level.pending stop).nodes := by
      rw [inside]
      exact ofText_stems _ _
    rw [closed_eq (Nat.le_trans ready.pending_le forth) opened]
    exact ((stemmed.pass forth stems).goOut (Scan.pass_containers _ _ _ opened)).note _
  · exact stemmed.passChar

theorem Reaches.stemmed (reached : highlighter.Reaches source scan) : highlighter.Stemmed source scan :=
  reached.induction stemmed_start step_stemmed

theorem run_stems {done : Scan} (ran : highlighter.run source = .ok done) :
    highlighter.AllStem source none done.ground.nodes := by
  obtain ⟨last, reached, _, rfl⟩ := run_ok ran
  have stemmed := reached.stemmed
  have flushed : highlighter.Stemmed source (highlighter.flush source last) := by
    rw [flush_eq highlighter source reached.ready.pending_le]
    exact stemmed.pass (Nat.le_refl _) (pendingYield_stems highlighter source last)
  exact flushed.closeAll.ground

/-- Every node of a result stems from outside of all containers. -/
theorem highlight_stems {text : String} {result : Highlight}
    (highlighted : highlighter.highlight text = .ok result) :
    highlighter.AllStem (.ofString text) none result.nodes := by
  obtain ⟨done, ran, _, nodes⟩ := highlight_ok highlighted
  rw [nodes]
  exact (run_stems ran).reverse

/-! ## The marks of a result -/

/-- All word tables of a language: its own, and those of its rules. -/
def tables (highlighter : Highlighter) : List WordTable :=
  highlighter.words :: highlighter.rules.toList.filterMap (·.words?)

/-- The container is a rule of the language. -/
def Knows (highlighter : Highlighter) (around : Option ContainerRule) : Prop :=
  ∀ rule ∈ around, ∃ index : Nat, highlighter.rules[index]? = some (Rule.container rule)

theorem mem_tables_of_rule {rule : Rule} {table : WordTable} {index : Nat}
    (listed : highlighter.rules[index]? = some rule) (words : rule.words? = some table) :
    table ∈ highlighter.tables := by
  have member := Array.mem_toList_iff.mpr (Array.mem_of_getElem? listed)
  exact List.mem_cons_of_mem _ (List.mem_filterMap.mpr ⟨rule, member, words⟩)

theorem Knows.wordsIn (knows : highlighter.Knows around) {table : WordTable}
    (words : highlighter.wordsIn around = some table) : table ∈ highlighter.tables := by
  cases around with
  | none =>
      cases words
      exact List.mem_cons_self
  | some rule =>
      obtain ⟨index, listed⟩ := knows rule rfl
      exact mem_tables_of_rule listed words

theorem Takes.listed {start : Nat} {found : Found} (taken : highlighter.Takes source around start found) :
    found.index ∈ highlighter.rulesIn around ∧ highlighter.rules[found.index]? = some found.rule ∧
      found.rule.match? source start found.index = some found :=
  firstMatch?_listed taken.first

theorem Takes.part_scope {index start stop : Nat} {rule : PartsRule} {parts : List Part}
    (taken : highlighter.Takes source around start (.parts index rule stop parts)) {first last : Nat}
    {scope : Scope} (member : ⟨first, last, some scope⟩ ∈ parts) : scope ∈ (Rule.parts rule).ownScopes := by
  obtain ⟨m, _, _, same⟩ := Rule.match?_parts taken.listed.2.2
  cases same
  obtain ⟨⟨number, mine⟩, listed, located⟩ := List.mem_map.mp member
  have given : mine = some scope := by
    cases group : m.group? number <;> simp_all
  exact List.mem_filterMap.mpr ⟨_, listed, given⟩

/-- How a mark comes about: as a word, as a match or a part of one, or as a container. -/
inductive Origin (highlighter : Highlighter) (source : Source) : Marking → Prop where
  | word {table : WordTable} {limit : Nat} {marking : Marking} (listed : table ∈ highlighter.tables)
      (finds : table.Finds source limit marking) : Origin highlighter source marking
  | single {around : Option ContainerRule} {index start stop : Nat} {rule : SingleRule} {scope : Scope}
      (taken : highlighter.Takes source around start (.single index rule stop))
      (hasScope : rule.scope = some scope) : Origin highlighter source ⟨scope, start, stop⟩
  | part {around : Option ContainerRule} {index start stop : Nat} {rule : PartsRule} {parts : List Part}
      {first last : Nat} {scope : Scope}
      (taken : highlighter.Takes source around start (.parts index rule stop parts))
      (member : ⟨first, last, some scope⟩ ∈ parts) (proper : first < last) :
      Origin highlighter source ⟨scope, first, last⟩
  | container {around : Option ContainerRule} {index start opened stop : Nat} {rule : ContainerRule}
      {scope : Scope} (taken : highlighter.Takes source around start (.container index rule opened))
      (reaches : opened ≤ stop) (hasScope : rule.scope = some scope) :
      Origin highlighter source ⟨scope, start, stop⟩

/-- A mark is found by a table, or its scope is one that the rule of a match gives. -/
theorem Origin.word_or_rule {marking : Marking} (origin : highlighter.Origin source marking) :
    (∃ table ∈ highlighter.tables, ∃ limit, table.Finds source limit marking) ∨
      ∃ around start found, highlighter.Takes source around start found ∧
        marking.scope ∈ found.rule.ownScopes := by
  cases origin with
  | word listed finds => exact .inl ⟨_, listed, _, finds⟩
  | single taken hasScope => exact .inr ⟨_, _, _, taken, Option.mem_toList.mpr hasScope⟩
  | part taken member proper => exact .inr ⟨_, _, _, taken, taken.part_scope member⟩
  | container taken reaches hasScope => exact .inr ⟨_, _, _, taken, Option.mem_toList.mpr hasScope⟩

theorem mem_marksAll_of_mem {node : Node} {nodes : List Node} {marking : Marking} (member : node ∈ nodes)
    (marks : marking ∈ node.marks) : marking ∈ Node.marksAll nodes :=
  (Node.Occurs.here member).marks_subset marks

/-- The marks of nodes in a range that may have a scope are the mark of the range and their own. -/
theorem marks_of_wrapped {scope : Option Scope} {start stop : Nat} {nodes : List Node} {node : Node}
    (member : node ∈ Yield.wrapped scope start stop nodes) {marking : Marking}
    (marks : marking ∈ node.marks) :
    (scope = some marking.scope ∧ marking.start = start ∧ marking.stop = stop) ∨
      marking ∈ Node.marksAll nodes := by
  have among := mem_marksAll_of_mem member marks
  rw [Yield.marksAll_wrapped] at among
  rcases List.mem_append.mp among with whole | inside
  · obtain ⟨scope, hasScope, rfl⟩ := List.mem_map.mp whole
    exact .inl ⟨Option.mem_toList.mp hasScope, rfl, rfl⟩
  · exact .inr inside

theorem foundIn_finds {table : Option WordTable} {start stop : Nat} {marking : Marking}
    (found : marking ∈ Node.marksAll (Yield.ofText source table start stop).nodes) :
    ∃ words, table = some words ∧ words.Finds source stop marking := by
  cases table with
  | none => exact absurd found List.not_mem_nil
  | some words => exact ⟨words, rfl, words.sort_finds marking (Node.mem_marksAll_reverse.mp found)⟩

theorem Stems.origin {node : Node} (stems : highlighter.Stems source around node)
    (knows : highlighter.Knows around) :
    ∀ marking ∈ node.marks, highlighter.Origin source marking := by
  induction stems with
  | text start stop => exact fun _ absurdity => absurd absurdity List.not_mem_nil
  | @word around table start stop node words member =>
      intro marking marks
      exact .word (knows.wordsIn words) (table.sort_finds marking (mem_marksAll_of_mem member marks))
  | @single around index start stop rule node taken member =>
      intro marking marks
      rcases marks_of_wrapped member marks with ⟨hasScope, rfl, rfl⟩ | inside
      · exact .single taken hasScope
      · obtain ⟨table, words, finds⟩ := foundIn_finds inside
        exact .word (mem_tables_of_rule taken.listed.2.1 words) finds
  | part taken member proper =>
      intro marking marks
      rw [List.mem_singleton.mp marks]
      exact .part taken member proper
  | @container around index start opened stop rule children node taken reaches inside member ih =>
      intro marking marks
      rcases marks_of_wrapped member marks with ⟨hasScope, rfl, rfl⟩ | below
      · exact .container taken reaches hasScope
      · rw [Node.marksAll_eq] at below
        obtain ⟨child, listed, marks⟩ := List.mem_flatMap.mp below
        have known : highlighter.Knows (some rule) := by
          intro other same
          obtain rfl := Option.some.inj same
          exact ⟨index, taken.listed.2.1⟩
        exact ih child listed known marking marks

/-- Every mark of a result has an origin. -/
theorem highlight_origins {text : String} {result : Highlight}
    (highlighted : highlighter.highlight text = .ok result) :
    ∀ marking ∈ Node.marksAll result.nodes, highlighter.Origin (.ofString text) marking := by
  intro marking marks
  rw [Node.marksAll_eq] at marks
  obtain ⟨node, member, marks⟩ := List.mem_flatMap.mp marks
  exact (highlight_stems highlighted node member).origin (fun _ absurdity => nomatch absurdity) marking marks

end Highlighter

/-- The regions of a result are the marks of its tree. -/
theorem Highlight.region_marking {result : Highlight} {region : Region}
    (listed : region ∈ result.regions) :
    ∃ marking ∈ Node.marksAll result.nodes, region.scope = marking.scope ∧
      region.text = result.source.slice marking.start marking.stop ∧
      region.start = result.source.offset marking.start ∧
      region.stop = result.source.offset marking.stop := by
  rw [Highlight.regions_eq] at listed
  obtain ⟨range, member, rfl⟩ := List.mem_map.mp listed
  refine ⟨range.marking, ?_, rfl, rfl, rfl, rfl⟩
  rw [← Node.scopesAll_map_marking result.nodes 0]
  exact List.mem_map_of_mem member

end Highlighting
