import Highlighting.Highlight
import Highlighting.Proofs.Text.Offsets
import Highlighting.Proofs.Tree.Tiling

/-! # The text of a tree

The leaves of siblings that fill a range hold the text of that range, each character once and in order.
So a result whose nodes fill its source is the same text when it is written as plain text. -/
set_option autoImplicit false
namespace Highlighting

/-- The characters of some leaves, one leaf behind the other. -/
def Leaf.chars (source : Source) (leaves : List Leaf) : List Char :=
  leaves.flatMap fun leaf => source.part leaf.start leaf.stop

namespace Node

theorem Tiles.le {first last : Nat} {nodes : List Node} (tiled : Tiles first last nodes)
    (proper : ∀ node ∈ nodes, node.start < node.stop) : first ≤ last := by
  induction nodes generalizing first with
  | nil => exact Nat.le_of_eq tiled
  | cons node rest ih =>
      obtain ⟨rfl, tiled⟩ := tiled
      have head := proper node List.mem_cons_self
      have tail := ih tiled fun other member => proper other (List.mem_cons_of_mem _ member)
      omega

theorem leavesAll_eq (around : Option Scope) (nodes : List Node) :
    leavesAll around nodes = nodes.flatMap (·.leaves around) := by
  induction nodes with
  | nil => rfl
  | cons node rest ih => rw [leavesAll, ih, List.flatMap_cons]

theorem scopesAll_eq (depth : Nat) (nodes : List Node) :
    scopesAll depth nodes = nodes.flatMap (·.scopes depth) := by
  induction nodes with
  | nil => rfl
  | cons node rest ih => rw [scopesAll, ih, List.flatMap_cons]

/-- Siblings whose leaves hold their own text hold the text of the range that they tile. -/
theorem leavesAll_chars (source : Source) {nodes : List Node} :
    ∀ {first last : Nat} (around : Option Scope), Tiles first last nodes →
      (∀ node ∈ nodes, node.start < node.stop) →
        (∀ node ∈ nodes, ∀ around,
          Leaf.chars source (node.leaves around) = source.part node.start node.stop) →
          Leaf.chars source (leavesAll around nodes) = source.part first last := by
  induction nodes with
  | nil =>
      intro first last around tiled _ _
      obtain rfl : first = last := tiled
      rw [Source.part_self]
      rfl
  | cons node rest ih =>
      intro first last around tiled proper texts
      obtain ⟨rfl, tiled⟩ := tiled
      have others : ∀ other ∈ rest, other.start < other.stop :=
        fun other member => proper other (List.mem_cons_of_mem _ member)
      have here := proper node List.mem_cons_self
      have split : Leaf.chars source (leavesAll around (node :: rest)) =
          Leaf.chars source (node.leaves around) ++ Leaf.chars source (leavesAll around rest) := by
        simp only [leavesAll, Leaf.chars, List.flatMap_append]
      rw [split, texts node List.mem_cons_self,
        ih around tiled others fun other member => texts other (List.mem_cons_of_mem _ member)]
      exact source.part_append (Nat.le_of_lt here) (tiled.le others)

theorem Sound.leaves_chars (source : Source) {node : Node} (sound : node.Sound) :
    ∀ around, Leaf.chars source (node.leaves around) = source.part node.start node.stop := by
  induction sound with
  | text proper =>
      intro around
      simp [leaves, Leaf.chars, start, stop]
  | marked proper tiled apart sound ih =>
      intro around
      exact leavesAll_chars source _ tiled (fun child member => (sound child member).start_lt_stop) ih

theorem Fills.chars (source : Source) {first last : Nat} {nodes : List Node}
    (filled : Fills first last nodes) (around : Option Scope) :
    Leaf.chars source (leavesAll around nodes) = source.part first last :=
  leavesAll_chars source around filled.tiled
    (fun node member => (filled.sound node member).start_lt_stop)
    (fun node member => (filled.sound node member).leaves_chars source)

end Node

namespace Highlight

/-- The nodes fill the source. -/
def WellFormed (highlight : Highlight) : Prop :=
  Node.Fills 0 highlight.source.size highlight.nodes

theorem tokens_eq (highlight : Highlight) :
    highlight.tokens = highlight.leaves.map fun leaf =>
      { scope := leaf.scope
        text := highlight.source.slice leaf.start leaf.stop
        start := highlight.source.offset leaf.start
        stop := highlight.source.offset leaf.stop
        span := highlight.source.span leaf.start leaf.stop } := by
  simp only [tokens, Cursor.spans_eq, List.map_map, List.zipWith_map_right, List.zipWith_self]
  rfl

theorem regions_eq (highlight : Highlight) :
    highlight.regions = highlight.scopes.map fun range =>
      { scope := range.scope
        text := highlight.source.slice range.start range.stop
        start := highlight.source.offset range.start
        stop := highlight.source.offset range.stop
        span := highlight.source.span range.start range.stop
        depth := range.depth } := by
  simp only [regions, Cursor.spans_eq, List.map_map, List.zipWith_map_right, List.zipWith_self]
  rfl

/-- There is a region for every marked range. -/
theorem region_of_scope {highlight : Highlight} {range : ScopedRange}
    (listed : range ∈ highlight.scopes) :
    ∃ region ∈ highlight.regions, region.scope = range.scope ∧
      region.start = highlight.source.offset range.start ∧
      region.text = highlight.source.slice range.start range.stop := by
  rw [regions_eq]
  exact ⟨_, List.mem_map_of_mem listed, rfl, rfl, rfl⟩

theorem plain_eq (highlight : Highlight) :
    highlight.plain = String.ofList (Leaf.chars highlight.source highlight.leaves) := by
  have joined : ∀ leaves : List Leaf,
      String.join (leaves.map fun leaf => highlight.source.slice leaf.start leaf.stop) =
        String.ofList (Leaf.chars highlight.source leaves) := by
    intro leaves
    induction leaves with
    | nil => rfl
    | cons leaf rest ih =>
        simp only [List.map_cons, String.join_cons, ih, Leaf.chars, List.flatMap_cons,
          String.ofList_append]
        rfl
  rw [plain, tokens_eq, List.map_map]
  exact joined highlight.leaves

theorem WellFormed.plain_eq {highlight : Highlight} (formed : highlight.WellFormed) :
    highlight.plain = highlight.source.toString := by
  rw [Highlight.plain_eq, leaves, Node.Fills.chars highlight.source formed, Source.part_whole]
  rfl

end Highlight

end Highlighting
