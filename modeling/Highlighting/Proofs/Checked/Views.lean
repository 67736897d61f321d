import Highlighting.Proofs.Tree.Fitting

/-! # Views of a tree of bytes

Tokens, regions and HTML are read here off a tree whose ranges are byte offsets. Every text is cut out of
the source and every position is counted by a cursor over bytes. When the nodes fit, nothing goes wrong,
and the views are those of the tree over places. -/
set_option autoImplicit false
namespace Highlighting

def Highlight.inBytes (highlight : Highlight) : Highlight :=
  { highlight with nodes := Node.inBytesAll highlight.source highlight.nodes }

namespace Checked
variable (source : Source)

/-- The last boundary up to a byte. -/
def boundary? : Nat → Option Nat
  | 0 => if source.isBoundary 0 then some 0 else none
  | byte + 1 => if source.isBoundary (byte + 1) then some (byte + 1) else boundary? byte

/-- A cursor that has passed so many bytes. -/
structure ByteCursor where
  offset : Nat := 0
  position : Position := {}

namespace ByteCursor

/-- Moves to a byte, from the start of the source if the byte has been passed. -/
def moveTo? (cursor : ByteCursor) (byte : Nat) : Option ByteCursor := do
  let target ← boundary? source (min byte source.bytes)
  let first := if target < cursor.offset then {} else cursor
  let passed ← source.cut? first.offset target
  return ⟨target, first.position.behind passed⟩

def span? (cursor : ByteCursor) (first last : Nat) : Option (Span × ByteCursor) := do
  let atFirst ← cursor.moveTo? source first
  let atLast ← atFirst.moveTo? source last
  return (⟨atFirst.position, atLast.position⟩, atLast)

/-- The cursor that stands at a place. -/
def standing (place : Nat) : ByteCursor :=
  ⟨source.offset place, source.position place⟩

end ByteCursor

/-- The texts of some ranges with their spans, one after the other. -/
def pieces? (cursor : ByteCursor) : List (Nat × Nat) → Option (List (String × Span))
  | [] => some []
  | (first, last) :: rest => do
      let text ← source.cut? first last
      let (span, moved) ← cursor.span? source first last
      let others ← pieces? moved rest
      return (String.ofList text, span) :: others

def tokens? (highlight : Highlight) : Option (List Token) := do
  let leaves := highlight.leaves
  let pieces ← pieces? highlight.source {} (leaves.map fun leaf => (leaf.start, leaf.stop))
  return List.zipWith
    (fun leaf piece =>
      { scope := leaf.scope, text := piece.1, start := leaf.start, stop := leaf.stop, span := piece.2 })
    leaves pieces

def regions? (highlight : Highlight) : Option (List Region) := do
  let scopes := highlight.scopes
  let pieces ← pieces? highlight.source {} (scopes.map fun range => (range.start, range.stop))
  return List.zipWith
    (fun range piece =>
      { scope := range.scope, text := piece.1, start := range.start, stop := range.stop, span := piece.2,
        depth := range.depth })
    scopes pieces

mutual

def htmlOf? : Node → Option (List Char)
  | .text start stop => do
      let text ← source.cut? start stop
      return Html.escape text
  | .marked scope _ _ children => do
      let inner ← htmlOfAll? children
      return Html.openTag scope ++ inner ++ Html.closeTag

def htmlOfAll? : List Node → Option (List Char)
  | [] => some []
  | node :: rest => do
      let first ← htmlOf? node
      let others ← htmlOfAll? rest
      return first ++ others

end

def html? (highlight : Highlight) : Option String := do
  let written ← htmlOfAll? highlight.source highlight.nodes
  return String.ofList written

/-! ## Cursors -/

theorem boundary?_offset {place : Nat} (inside : place ≤ source.size) :
    boundary? source (source.offset place) = some (source.offset place) := by
  have boundary := source.isBoundary_offset inside
  generalize source.offset place = byte at boundary
  cases byte with
  | zero => rw [boundary?, if_pos boundary]
  | succ byte => rw [boundary?, if_pos boundary]

theorem moveTo?_offset {place later : Nat} (inside : place ≤ source.size)
    (laterInside : later ≤ source.size) :
    (ByteCursor.standing source place).moveTo? source (source.offset later) =
      some (.standing source later) := by
  have clamped : min (source.offset later) source.bytes = source.offset later :=
    Nat.min_eq_left (source.offset_le laterInside)
  rw [ByteCursor.moveTo?, clamped, boundary?_offset source laterInside]
  simp only [Option.bind_eq_bind, Option.bind_some]
  by_cases behind : source.offset later < (ByteCursor.standing source place).offset
  · rw [if_pos behind, source.cut?_start laterInside]
    rfl
  · have ordered : place ≤ later := (source.offset_le_iff inside).mp (Nat.not_lt.mp behind)
    have passed : source.cut? (ByteCursor.standing source place).offset (source.offset later) = _ :=
      source.cut?_offset ordered laterInside
    rw [if_neg behind, passed, Option.bind_some]
    exact congrArg (some <| ByteCursor.mk (source.offset later) ·)
      (Cursor.position_walk source ordered)

theorem span?_offset {place first last : Nat} (inside : place ≤ source.size)
    (ordered : first ≤ last) (within : last ≤ source.size) :
    (ByteCursor.standing source place).span? source (source.offset first) (source.offset last) =
      some (source.span first last, .standing source last) := by
  have firstInside := Nat.le_trans ordered within
  rw [ByteCursor.span?, moveTo?_offset source inside firstInside, Option.bind_eq_bind,
    Option.bind_some, moveTo?_offset source firstInside within]
  rfl

theorem pieces?_offset {ranges : List (Nat × Nat)} :
    ∀ {place : Nat}, place ≤ source.size →
      (∀ range ∈ ranges, range.1 ≤ range.2 ∧ range.2 ≤ source.size) →
        pieces? source (.standing source place)
            (ranges.map fun range => (source.offset range.1, source.offset range.2)) =
          some (ranges.map fun range =>
            (source.slice range.1 range.2, source.span range.1 range.2)) := by
  induction ranges with
  | nil => intro place _ _; rfl
  | cons range rest ih =>
      intro place inside fit
      obtain ⟨⟨ordered, within⟩, others⟩ := List.forall_mem_cons.mp fit
      rw [List.map_cons, pieces?, source.cut?_offset ordered within]
      simp only [Option.bind_eq_bind, Option.bind_some]
      rw [span?_offset source inside ordered within, Option.bind_some, ih within others]
      rfl

theorem standing_start : ByteCursor.standing source 0 = {} := by
  rw [ByteCursor.standing, source.offset_zero, Source.position, source.part_self]
  rfl

theorem pieces?_start {α : Type} (range : α → Nat × Nat) {items : List α}
    (fit : ∀ item ∈ items, (range item).1 ≤ (range item).2 ∧ (range item).2 ≤ source.size) :
    pieces? source {}
        (items.map fun item => (source.offset (range item).1, source.offset (range item).2)) =
      some (items.map fun item =>
        (source.slice (range item).1 (range item).2, source.span (range item).1 (range item).2)) := by
  have ranges := pieces?_offset source (Nat.zero_le _) (List.forall_mem_map.mpr fit)
  rwa [List.map_map, List.map_map, standing_start] at ranges

end Checked

/-! ## Trees that fit -/

namespace Node
variable {source : Source} {limit : Nat}

theorem Fits.leaves {node : Node} (fits : node.Fits limit) :
    ∀ around, ∀ leaf ∈ node.leaves around, leaf.start ≤ leaf.stop ∧ leaf.stop ≤ limit := by
  induction fits with
  | text ordered inside =>
      intro around leaf member
      obtain rfl := List.mem_singleton.mp member
      exact ⟨ordered, inside⟩
  | marked ordered inside fits ih =>
      intro around leaf member
      rw [Node.leaves, leavesAll_eq] at member
      obtain ⟨child, listed, below⟩ := List.mem_flatMap.mp member
      exact ih child listed _ leaf below

theorem Fits.scopes {node : Node} (fits : node.Fits limit) :
    ∀ depth, ∀ range ∈ node.scopes depth, range.start ≤ range.stop ∧ range.stop ≤ limit := by
  induction fits with
  | text ordered inside => exact fun _ => List.forall_mem_nil _
  | marked ordered inside fits ih =>
      intro depth range member
      rw [Node.scopes, scopesAll_eq] at member
      rcases List.mem_cons.mp member with rfl | later
      · exact ⟨ordered, inside⟩
      · obtain ⟨child, listed, below⟩ := List.mem_flatMap.mp later
        exact ih child listed _ range below

/-! ## Views of trees that fit -/

mutual

theorem leaves_inBytes (source : Source) :
    ∀ (node : Node) (around : Option Scope),
      (node.inBytes source).leaves around = (node.leaves around).map fun leaf =>
        ⟨leaf.scope, source.offset leaf.start, source.offset leaf.stop⟩
  | .text _ _, _ => rfl
  | .marked scope _ _ children, _ => leavesAll_inBytes source children (some scope)

theorem leavesAll_inBytes (source : Source) :
    ∀ (nodes : List Node) (around : Option Scope),
      leavesAll around (inBytesAll source nodes) = (leavesAll around nodes).map fun leaf =>
        ⟨leaf.scope, source.offset leaf.start, source.offset leaf.stop⟩
  | [], around => rfl
  | node :: rest, around => by
      rw [inBytesAll, leavesAll, leavesAll, List.map_append, leaves_inBytes source node,
        leavesAll_inBytes source rest]

end

mutual

theorem scopes_inBytes (source : Source) :
    ∀ (node : Node) (depth : Nat),
      (node.inBytes source).scopes depth = (node.scopes depth).map fun range =>
        ⟨range.scope, source.offset range.start, source.offset range.stop, range.depth⟩
  | .text start stop, depth => rfl
  | .marked scope start stop children, depth => by
      rw [inBytes, scopes, scopes, List.map_cons, scopesAll_inBytes source children]

theorem scopesAll_inBytes (source : Source) :
    ∀ (nodes : List Node) (depth : Nat),
      scopesAll depth (inBytesAll source nodes) = (scopesAll depth nodes).map fun range =>
        ⟨range.scope, source.offset range.start, source.offset range.stop, range.depth⟩
  | [], depth => rfl
  | node :: rest, depth => by
      rw [inBytesAll, scopesAll, scopesAll, List.map_append, scopes_inBytes source node,
        scopesAll_inBytes source rest]

end

end Node

namespace Checked

theorem htmlOfAll?_of_each (source : Source) {nodes : List Node}
    (each : ∀ node ∈ nodes, htmlOf? source (node.inBytes source) = some (Html.ofNode source node)) :
    htmlOfAll? source (Node.inBytesAll source nodes) = some (Html.ofNodes source nodes) := by
  induction nodes with
  | nil => rfl
  | cons node rest ih =>
      obtain ⟨here, others⟩ := List.forall_mem_cons.mp each
      rw [Node.inBytesAll, htmlOfAll?, here, ih others]
      rfl

theorem htmlOf?_inBytes (source : Source) {node : Node} (fits : node.Fits source.size) :
    htmlOf? source (node.inBytes source) = some (Html.ofNode source node) := by
  induction fits with
  | text ordered inside =>
      rw [Node.inBytes, htmlOf?, source.cut?_offset ordered inside]
      rfl
  | marked ordered inside fits ih =>
      rw [Node.inBytes, htmlOf?, htmlOfAll?_of_each source ih]
      rfl

variable {highlight : Highlight} (fit : Node.AllFit highlight.source.size highlight.nodes)
include fit

theorem tokens?_inBytes : tokens? highlight.inBytes = some highlight.tokens := by
  have ranges : ∀ leaf ∈ highlight.leaves,
      leaf.start ≤ leaf.stop ∧ leaf.stop ≤ highlight.source.size := by
    intro leaf listed
    rw [Highlight.leaves, Node.leavesAll_eq] at listed
    obtain ⟨node, among, below⟩ := List.mem_flatMap.mp listed
    exact (fit node among).leaves _ leaf below
  have read := pieces?_start highlight.source (fun leaf : Leaf => (leaf.start, leaf.stop)) ranges
  have leaves : highlight.inBytes.leaves = highlight.leaves.map _ :=
    Node.leavesAll_inBytes highlight.source highlight.nodes none
  rw [tokens?, leaves, List.map_map, highlight.tokens_eq]
  refine (congrArg (· >>= _) read).trans ?_
  simp only [Option.bind_eq_bind, Option.bind_some, List.zipWith_map, List.zipWith_self]
  rfl

theorem regions?_inBytes : regions? highlight.inBytes = some highlight.regions := by
  have ranges : ∀ range ∈ highlight.scopes,
      range.start ≤ range.stop ∧ range.stop ≤ highlight.source.size := by
    intro range listed
    rw [Highlight.scopes, Node.scopesAll_eq] at listed
    obtain ⟨node, among, below⟩ := List.mem_flatMap.mp listed
    exact (fit node among).scopes _ range below
  have read := pieces?_start highlight.source (fun range : ScopedRange => (range.start, range.stop)) ranges
  have scopes : highlight.inBytes.scopes = highlight.scopes.map _ :=
    Node.scopesAll_inBytes highlight.source highlight.nodes 0
  rw [regions?, scopes, List.map_map, highlight.regions_eq]
  refine (congrArg (· >>= _) read).trans ?_
  simp only [Option.bind_eq_bind, Option.bind_some, List.zipWith_map, List.zipWith_self]
  rfl

theorem html?_inBytes : html? highlight.inBytes = some highlight.html := by
  have written : htmlOfAll? highlight.inBytes.source highlight.inBytes.nodes = _ :=
    htmlOfAll?_of_each highlight.source fun node member =>
      htmlOf?_inBytes highlight.source (fit node member)
  rw [html?, written]
  rfl

end Checked

end Highlighting
