import Highlighting.Proofs.Tree.Leaves

/-! # Trees at byte offsets

A tree over places becomes a tree over bytes when the ends of its ranges are replaced by their offsets.
Offsets grow strictly, so what fills a range of places fills the range of its bytes. -/
set_option autoImplicit false
namespace Highlighting

mutual

/-- The node with the byte offsets of its ends. -/
def Node.inBytes (source : Source) : Node → Node
  | .text start stop => .text (source.offset start) (source.offset stop)
  | .marked scope start stop children =>
      .marked scope (source.offset start) (source.offset stop) (Node.inBytesAll source children)

def Node.inBytesAll (source : Source) : List Node → List Node
  | [] => []
  | node :: rest => node.inBytes source :: Node.inBytesAll source rest

end

namespace Node
variable (source : Source)

theorem inBytesAll_eq (nodes : List Node) : inBytesAll source nodes = nodes.map (·.inBytes source) := by
  induction nodes with
  | nil => rfl
  | cons node rest ih => rw [inBytesAll, ih, List.map_cons]

theorem inBytes_start (node : Node) : (node.inBytes source).start = source.offset node.start := by
  cases node <;> rfl

theorem inBytes_stop (node : Node) : (node.inBytes source).stop = source.offset node.stop := by
  cases node <;> rfl

theorem inBytes_isText (node : Node) : (node.inBytes source).isText = node.isText := by
  cases node <;> rfl

theorem Tiles.stop_le {first last : Nat} {nodes : List Node} (tiled : Tiles first last nodes)
    (proper : ∀ node ∈ nodes, node.start < node.stop) : ∀ node ∈ nodes, node.stop ≤ last := by
  induction nodes generalizing first with
  | nil => exact fun _ absurdity => nomatch absurdity
  | cons node rest ih =>
      obtain ⟨_, tiled⟩ := tiled
      have others : ∀ other ∈ rest, other.start < other.stop :=
        fun other member => proper other (List.mem_cons_of_mem _ member)
      intro other member
      rcases List.mem_cons.mp member with rfl | later
      · exact tiled.le others
      · exact ih tiled others other later

theorem Tiles.inBytes {first last : Nat} {nodes : List Node} (tiled : Tiles first last nodes) :
    Tiles (source.offset first) (source.offset last) (inBytesAll source nodes) := by
  induction nodes generalizing first with
  | nil => exact congrArg source.offset tiled
  | cons node rest ih =>
      obtain ⟨rfl, tiled⟩ := tiled
      refine ⟨inBytes_start source node, ?_⟩
      rw [inBytes_stop]
      exact ih tiled

theorem Apart.inBytes {nodes : List Node} (apart : Apart nodes) : Apart (inBytesAll source nodes) := by
  rw [inBytesAll_eq, Apart, List.isChain_map]
  simp only [inBytes_isText]
  exact apart

theorem Sound.inBytes {node : Node} (sound : node.Sound) :
    node.stop ≤ source.size → (node.inBytes source).Sound := by
  induction sound with
  | text proper =>
      intro inside
      exact .text (source.offset_lt proper inside)
  | marked proper tiled apart sound ih =>
      intro inside
      refine .marked (source.offset_lt proper inside) (tiled.inBytes source) (apart.inBytes source) ?_
      intro child member
      rw [inBytesAll_eq] at member
      obtain ⟨original, listed, rfl⟩ := List.mem_map.mp member
      have within := tiled.stop_le (fun other member => (sound other member).start_lt_stop) original listed
      exact ih original listed (Nat.le_trans within inside)

theorem Fills.inBytes {first last : Nat} {nodes : List Node} (filled : Fills first last nodes)
    (inside : last ≤ source.size) :
    Fills (source.offset first) (source.offset last) (inBytesAll source nodes) := by
  refine ⟨filled.tiled.inBytes source, filled.apart.inBytes source, ?_⟩
  intro node member
  rw [inBytesAll_eq] at member
  obtain ⟨original, listed, rfl⟩ := List.mem_map.mp member
  have within := filled.tiled.stop_le
    (fun other member => (filled.sound other member).start_lt_stop) original listed
  exact (filled.sound original listed).inBytes source (Nat.le_trans within inside)

end Node

end Highlighting
