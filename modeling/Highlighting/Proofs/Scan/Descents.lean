import Highlighting.Proofs.Scan.Alike
import Highlighting.Proofs.Scan.Coverage
import Highlighting.Proofs.Tree.Occurring

/-! # Steps of a descent

What a descent reads, step by step: a character of plain text, a match, a container, a closer, or the end
of the source. Each step is a rule that tells the nodes of a passage by those of the passages behind it
and in it, so that a passage can be followed along its text without looking for borders ahead. -/
set_option autoImplicit false
namespace Highlighting

namespace Node

/-- A node that is no text stays among siblings, whatever is pushed behind it. -/
theorem mem_push_of_marked {siblings : List Node} {node other : Node} (isMarked : node.isText = false)
    (member : node ∈ siblings ∨ node = other) : node ∈ push siblings other := by
  cases other with
  | marked scope start stop children =>
      rcases member with before | rfl
      · exact List.mem_cons_of_mem _ before
      · exact List.mem_cons_self
  | text start stop =>
      rcases member with before | rfl
      · simp only [push]
        split
        · exact before
        · split
          · split
            · rcases List.mem_cons.mp before with rfl | earlier
              · cases isMarked
              · exact List.mem_cons_of_mem _ earlier
            · exact List.mem_cons_of_mem _ before
          · exact List.mem_cons_of_mem _ before
      · cases isMarked

theorem mem_pushAll_of_marked {node : Node} (isMarked : node.isText = false) {nodes : List Node} :
    ∀ {siblings : List Node}, node ∈ siblings ∨ node ∈ nodes → node ∈ pushAll siblings nodes := by
  induction nodes with
  | nil =>
      rintro siblings (before | absurdity)
      · exact before
      · exact absurd absurdity List.not_mem_nil
  | cons other rest ih =>
      rintro siblings (before | member)
      · exact ih (.inl (mem_push_of_marked isMarked (.inl before)))
      · rcases List.mem_cons.mp member with same | later
        · exact ih (.inl (mem_push_of_marked isMarked (.inr same)))
        · exact ih (.inr later)

section Gathered
variable {kind : Type} {gather : List Node → List kind}
  (append : ∀ left right, gather (left ++ right) = gather left ++ gather right)
  (silent : ∀ start stop, gather [.text start stop] = [])
include append silent

theorem gather_reverse_push (siblings : List Node) (node : Node) :
    gather (push siblings node).reverse = gather siblings.reverse ++ gather [node] := by
  have last : ∀ (node : Node) (rest : List Node),
      gather (node :: rest).reverse = gather rest.reverse ++ gather [node] := by
    intro node rest
    rw [List.reverse_cons, append]
  cases node with
  | marked scope start stop children => exact last _ siblings
  | text start stop =>
      simp only [push, silent, List.append_nil]
      split
      · rfl
      · split
        · split
          · rw [last, last, silent, silent]
          · rw [last, silent, List.append_nil]
        · rw [last, silent, List.append_nil]

/-- What is gathered from nodes, and nothing from text, is the same when they are joined. -/
theorem gather_joined (nodes : List Node) : gather (joined nodes) = gather nodes := by
  have nothing : gather [] = [] := by
    have twice := append [] []
    simpa using twice
  have pushed : ∀ siblings, gather (pushAll siblings nodes).reverse =
      gather siblings.reverse ++ gather nodes := by
    induction nodes with
    | nil =>
        intro siblings
        rw [nothing, List.append_nil]
        rfl
    | cons node rest ih =>
        intro siblings
        have split := append [node] rest
        rw [List.singleton_append] at split
        rw [pushAll, List.foldl_cons, ← pushAll, ih, gather_reverse_push append silent, split,
          List.append_assoc]
  have whole := pushed []
  rwa [List.reverse_nil, nothing, List.nil_append] at whole

end Gathered

end Node

namespace Highlighter
variable {highlighter : Highlighter} {source : Source} {around : Option ContainerRule}
  {first place stop : Nat} {nodes : List Node}

/-- A descent from `place` on ends at `stop` with these nodes. -/
def Descends (highlighter : Highlighter) (source : Source) (around : Option ContainerRule)
    (first place stop : Nat) (nodes : List Node) : Prop :=
  ∃ passage, highlighter.descend source around first place = .ok passage ∧ passage.stop = stop ∧
    passage.yield.nodes = nodes

/-- The nodes of text between two places. -/
def textNodes (highlighter : Highlighter) (source : Source) (around : Option ContainerRule)
    (start stop : Nat) : List Node :=
  (Yield.ofText source (highlighter.wordsIn around) start stop).nodes

/-- Text without a character adds nothing to its siblings. -/
theorem pushAll_textNodes_self (siblings : List Node) (place : Nat) :
    Node.pushAll siblings (highlighter.textNodes source around place place) = siblings := by
  unfold textNodes
  cases highlighter.wordsIn around <;>
    simp [Yield.ofText, Node.pushAll, Node.push, WordTable.sort, WordTable.sortFrom, Sorting.finish]

/-- What a match at a place holds up to `middle`, where the text behind it starts. -/
def Holds (highlighter : Highlighter) (source : Source) (around : Option ContainerRule)
    (place middle : Nat) (found : Found) (nodes : List Node) : Prop :=
  match found.container? with
  | none => found.stop = middle ∧ (highlighter.foundYield source around place found).nodes = nodes
  | some rule =>
      ∃ inner, highlighter.Descends source (some rule) place found.stop middle inner ∧
        Yield.wrapped rule.scope place middle (Node.joined inner) = nodes

/-- What a descent comes to from its first border on. -/
def Follows (highlighter : Highlighter) (source : Source) (around : Option ContainerRule)
    (first stop : Nat) (nodes : List Node) : Option (Nat × Border) → Prop
  | none => source.size = stop ∧ highlighter.textNodes source around first source.size = nodes
  | some (_, .closer last) => last = stop ∧ highlighter.textNodes source around first last = nodes
  | some (_, .illegal _) => False
  | some (next, .inner found) =>
      ∃ middle held behind, highlighter.Holds source around next middle found held ∧
        highlighter.Descends source around middle middle stop behind ∧
        highlighter.textNodes source around first next ++ held ++ behind = nodes

theorem plainText_nodes (next : Nat) :
    (highlighter.plainText source around first place next stop).nodes =
      highlighter.textNodes source around first stop :=
  List.append_nil _

theorem foundYield_container {found : Found} {rule : ContainerRule}
    (opens : found.container? = some rule) :
    (highlighter.foundYield source around place found).nodes = [] := by
  cases found with
  | container index rule stop => rfl
  | single index rule stop => exact nomatch opens
  | parts index rule stop parts => exact nomatch opens

/-- What is behind a stretch of text is read by a descent of its own. -/
theorem descends_behind {middle : Nat} (before : Yield)
    (left_le : source.size - middle ≤ source.size - place) :
    (∃ passage, (do
        let rest ← highlighter.descend source around middle middle
        return rest.behind before left_le) = Except.ok passage ∧ passage.stop = stop ∧
          passage.yield.nodes = nodes) ↔
      ∃ behind, highlighter.Descends source around middle middle stop behind ∧
        before.nodes ++ behind = nodes := by
  constructor
  · rintro ⟨passage, descended, rfl, rfl⟩
    cases rest : highlighter.descend source around middle middle with
    | error illegal =>
        rw [rest] at descended
        exact nomatch descended
    | ok others =>
        rw [rest] at descended
        cases descended
        exact ⟨others.yield.nodes, ⟨others, rest, rfl, rfl⟩, rfl⟩
  · rintro ⟨behind, ⟨others, rest, rfl, rfl⟩, rfl⟩
    refine ⟨others.behind before left_le, ?_, rfl, rfl⟩
    rw [rest]
    rfl

/-- A descent is told by its first border. -/
theorem descends_iff :
    highlighter.Descends source around first place stop nodes ↔
      highlighter.Follows source around first stop nodes
        (highlighter.seek source around (source.size - place) place) := by
  cases sought : highlighter.seek source around (source.size - place) place with
  | none =>
      simp only [Descends, descend_of_none sought, Except.ok.injEq, exists_eq_left', plainText_nodes,
        Follows]
  | some border =>
      obtain ⟨next, found | last | last⟩ := border
      · cases opens : found.container? with
        | none =>
            rw [Descends, descend_of_flat opens sought, descends_behind]
            simp only [Follows, Holds, opens, and_assoc, exists_eq_left', exists_and_left, throughFound,
              Yield.append_def, plainText_nodes]
        | some rule =>
            rw [Descends, descend_of_container opens sought]
            simp only [Follows, Holds, opens]
            dsimp only [bind, Except.bind]
            cases entered : highlighter.descend source (some rule) next found.stop with
            | error illegal =>
                simp only [Descends, entered, reduceCtorEq, false_and, exists_false]
            | ok within =>
                refine (descends_behind (highlighter.throughFound source around first place next found ++
                  within.enclosed rule.scope next)
                    (Nat.le_trans within.left_le (left_of_inner sought))).trans ?_
                simp only [Descends, entered, Except.ok.injEq, and_assoc, exists_eq_left', exists_and_left,
                  throughFound, Yield.append_def, plainText_nodes, foundYield_container opens,
                  Passage.enclosed, List.append_nil]
      · simp only [Descends, descend_of_closer sought, Except.ok.injEq, exists_eq_left', plainText_nodes,
          Follows]
      · simp only [Descends, descend_of_illegal sought, reduceCtorEq, false_and, exists_false, Follows]

/-- Where the text goes on, the search for a border looks at the place and then behind it. -/
theorem seek_inside (inside : place < source.size) :
    highlighter.seek source around (source.size - place) place =
      match highlighter.border? source around place with
      | some border => some (place, border)
      | none => highlighter.seek source around (source.size - (place + 1)) (place + 1) := by
  obtain ⟨room, left⟩ : ∃ room, source.size - place = room + 1 :=
    Nat.exists_eq_add_one_of_ne_zero (by omega)
  have fewer : source.size - (place + 1) = room := by omega
  rw [left, fewer]
  rfl

namespace Descends

/-- A descent comes to one end only. -/
theorem unique {last : Nat} {others : List Node}
    (descends : highlighter.Descends source around first place stop nodes)
    (also : highlighter.Descends source around first place last others) :
    stop = last ∧ nodes = others := by
  obtain ⟨passage, descended, rfl, rfl⟩ := descends
  obtain ⟨other, again, rfl, rfl⟩ := also
  rw [descended] at again
  cases again
  exact ⟨rfl, rfl⟩

theorem stop_le (descends : highlighter.Descends source around first place stop nodes) :
    stop ≤ source.size := by
  obtain ⟨passage, _, rfl, _⟩ := descends
  exact passage.inside

theorem ends (ended : source.size ≤ place) :
    highlighter.Descends source around first place source.size
      (highlighter.textNodes source around first source.size) := by
  rw [descends_iff, Nat.sub_eq_zero_of_le ended]
  exact ⟨rfl, rfl⟩

section Inside
variable (inside : place < source.size)
include inside

theorem iff_of_border {border : Border}
    (stands : highlighter.border? source around place = some border) :
    highlighter.Descends source around first place stop nodes ↔
      highlighter.Follows source around first stop nodes (some (place, border)) := by
  rw [descends_iff, seek_inside inside, stands]

/-- A character of plain text is read with the text behind it. -/
theorem iff_of_plain (nothing : highlighter.border? source around place = none) :
    highlighter.Descends source around first place stop nodes ↔
      highlighter.Descends source around first (place + 1) stop nodes := by
  rw [descends_iff, descends_iff, seek_inside inside, nothing]

theorem closer (stands : highlighter.border? source around place = some (.closer stop)) :
    highlighter.Descends source around first place stop
      (highlighter.textNodes source around first stop) :=
  (iff_of_border inside stands).mpr ⟨rfl, rfl⟩

theorem flat {found : Found}
    (stands : highlighter.border? source around place = some (.inner found))
    (isFlat : found.container? = none)
    (rest : highlighter.Descends source around found.stop found.stop stop nodes) :
    highlighter.Descends source around first place stop
      (highlighter.textNodes source around first place ++
        (highlighter.foundYield source around place found).nodes ++ nodes) := by
  refine (iff_of_border inside stands).mpr ⟨found.stop, _, nodes, ?_, rest, rfl⟩
  rw [Holds, isFlat]
  exact ⟨rfl, rfl⟩

theorem container {index opened middle : Nat} {rule : ContainerRule} {inner : List Node}
    (stands : highlighter.border? source around place = some (.inner (.container index rule opened)))
    (within : highlighter.Descends source (some rule) place opened middle inner)
    (rest : highlighter.Descends source around middle middle stop nodes) :
    highlighter.Descends source around first place stop
      (highlighter.textNodes source around first place ++
        Yield.wrapped rule.scope place middle (Node.joined inner) ++ nodes) :=
  (iff_of_border inside stands).mpr ⟨middle, _, nodes, ⟨inner, within, rfl⟩, rest, rfl⟩

end Inside

end Descends

/-! ## Results -/

section Results
variable {text : String} {result : Highlight} {scan : Scan}

/-- A scan outside of all containers reads what the descent reads from there on. -/
theorem highlight_behind (highlighted : highlighter.highlight text = .ok result)
    (reached : highlighter.Reaches (.ofString text) scan) (bare : scan.containers = []) :
    ∃ stop nodes, highlighter.Descends (.ofString text) none scan.level.pending scan.pos stop nodes ∧
      result.nodes = (Node.pushAll scan.ground.nodes nodes).reverse := by
  obtain ⟨done, ran, source, same⟩ := highlight_ok highlighted
  have outside : scan.around = none := by
    rw [Scan.around, bare]
    rfl
  have comes : highlighter.outcome (.ofString text) scan = .ok done.bare := by
    rw [outcome, reached.resume_eq, ran]
    rfl
  rw [outcome_descend _ reached.ready rfl outside rfl rfl] at comes
  cases descended : highlighter.descend (.ofString text) none scan.level.pending scan.pos with
  | error illegal =>
      rw [descended] at comes
      cases comes
  | ok passage =>
      refine ⟨passage.stop, passage.yield.nodes, ⟨passage, descended, rfl, rfl⟩, ?_⟩
      have closed : (scan.pass passage.yield passage.stop).containers = [] := by
        rw [← List.length_eq_zero_iff, Scan.pass_depth, bare, List.length_nil]
      rw [descended] at comes
      dsimp only [Except.bind] at comes
      rw [leave, closed] at comes
      have grounds := congrArg Scan.ground (Except.ok.inj comes)
      have passed : (scan.pass passage.yield passage.stop).ground.nodes =
          Node.pushAll scan.ground.nodes passage.yield.nodes := by
        have level := congrArg Level.nodes (Scan.pass_level scan passage.yield passage.stop)
        rwa [Scan.level, closed, Scan.level, bare] at level
      rw [same, ← passed]
      exact congrArg (fun ground : Level => ground.nodes.reverse) grounds.symm

/-- What a descent reads from the start of a text is what the text is highlighted with. -/
theorem highlight_of_descent {passage : Passage (.ofString text) 0}
    (descended : highlighter.descend (.ofString text) none 0 0 = .ok passage) :
    ∃ result, highlighter.highlight text = .ok result ∧ result.source = .ofString text ∧
      result.nodes = Node.joined passage.yield.nodes ∧
        result.relevance = passage.yield.relevance % UInt32.size := by
  have comes : highlighter.outcome (.ofString text) {} =
      (highlighter.descend (.ofString text) none 0 0).bind fun passage =>
        highlighter.leave (.ofString text) (({} : Scan).pass passage.yield passage.stop) :=
    outcome_descend _ (Scan.ready_start _) rfl rfl rfl rfl
  have relevance : (({} : Scan).pass passage.yield passage.stop).relevance = passage.yield.relevance :=
    (Scan.pass_relevance _ _ _).trans (Nat.zero_add _)
  rw [highlight_eq_outcome, comes, descended]
  exact ⟨_, rfl, rfl, rfl, congrArg (· % UInt32.size) relevance⟩

/-- A text that a descent reads is highlighted. -/
theorem highlight_of_descends (descends : highlighter.Descends (.ofString text) none 0 0 stop nodes) :
    ∃ result, highlighter.highlight text = .ok result ∧ result.source = .ofString text ∧
      result.nodes = Node.joined nodes := by
  obtain ⟨passage, descended, rfl, rfl⟩ := descends
  obtain ⟨result, highlighted, source, same, _⟩ := highlight_of_descent descended
  exact ⟨result, highlighted, source, same⟩

/-- Where a match takes the whole text, there is nothing else. -/
theorem highlight_of_whole {found : Found} (inside : 0 < (Source.ofString text).size)
    (first : highlighter.firstMatch? (.ofString text) 0 highlighter.root = some found)
    (isFlat : found.container? = none) (whole : found.stop = (Source.ofString text).size) :
    let yield := highlighter.foundYield (.ofString text) none 0 found
    ∃ result, highlighter.highlight text = .ok result ∧ result.source = .ofString text ∧
      result.nodes = Node.joined yield.nodes ∧ result.relevance = yield.relevance % UInt32.size := by
  let source := Source.ofString text
  have whole : found.stop = source.size := whole
  have stands : highlighter.border? source none 0 = some (.inner found) := by
    rw [border?, rulesIn, first]
  have sought : highlighter.seek source none (source.size - 0) 0 = some (0, .inner found) := by
    rw [seek_inside inside, stands]
  have nothing : highlighter.seek source none (source.size - found.stop) found.stop = none := by
    rw [whole, Nat.sub_self]
    rfl
  -- The text before the match and the text behind it are empty.
  have silent (place : Nat) : (Yield.ofText source (some highlighter.words) place place).relevance = 0 := by
    have same := congrArg (·.relevance)
      (Scan.gain_ofText_empty {} source (some highlighter.words) place)
    exact (Nat.zero_add _).symm.trans same
  have descended : highlighter.descend source none 0 0 = _ := descend_of_flat isFlat sought
  rw [descend_of_none nothing] at descended
  obtain ⟨result, highlighted, same, nodes, relevance⟩ := highlight_of_descent descended
  refine ⟨result, highlighted, same, ?_, ?_⟩
  · rw [nodes]
    simp only [Passage.behind, throughFound, Yield.append_def, plainText_nodes, whole, Node.joined,
      ← Scan.pushAll_append, pushAll_textNodes_self]
    rfl
  · rw [relevance]
    simp only [Passage.behind, throughFound, Yield.append_def, plainText, whole, wordsIn, Yield.ofPlain,
      silent, Nat.add_zero, Nat.zero_add]
    rfl

/-- A container that a scan opens outside of all containers is in the result with what a descent reads
in it. -/
theorem highlight_opened {index opened : Nat} {rule : ContainerRule} {scope : Scope}
    (highlighted : highlighter.highlight text = .ok result)
    (visits : highlighter.Visits (.ofString text) scan) (bare : scan.containers = [])
    (first : highlighter.firstMatch? (.ofString text) scan.pos highlighter.root =
      some (.container index rule opened))
    (marks : rule.scope = some scope)
    (within : highlighter.Descends (.ofString text) (some rule) scan.pos opened stop nodes) :
    .marked scope scan.pos stop (Node.joined nodes) ∈ result.nodes := by
  obtain ⟨last, others, descends, same⟩ := highlight_behind highlighted visits.reached bare
  have stands : highlighter.border? (.ofString text) none scan.pos =
      some (.inner (.container index rule opened)) := by
    rw [border?, rulesIn, first]
  obtain ⟨middle, held, behind, ⟨inner, also, wrapped⟩, _, rfl⟩ :=
    (Descends.iff_of_border visits.inside stands).mp descends
  obtain ⟨rfl, rfl⟩ := within.unique also
  rw [marks] at wrapped
  have member : .marked scope scan.pos stop (Node.joined nodes) ∈ held := by
    rw [← wrapped]
    exact List.mem_singleton_self _
  rw [same, List.mem_reverse]
  exact Node.mem_pushAll_of_marked rfl
    (.inr (List.mem_append_left _ (List.mem_append_right _ member)))

end Results

end Highlighter

end Highlighting
