import Highlighting.Highlight
import Highlighting.Proofs.Html.Pieces
import Highlighting.Proofs.Tree.Leaves

/-! # Reading HTML back

The pieces of written HTML give the text and the tree back. Characters are text up to the next tag, and a
tag that closes a span ends the node that the last open one started. -/
set_option autoImplicit false
namespace Highlighting.Html

/-- What has been read: the characters and the siblings at this level, the latest first, and the spans
that are open with their siblings, the innermost first. -/
structure Reading where
  chars : List Char := []
  nodes : List Node := []
  opened : List (Scope × Nat × List Node) := []

namespace Reading

def take? (reading : Reading) : Piece → Option Reading
  | .char c =>
      let place := reading.chars.length
      some { reading with
        chars := c :: reading.chars
        nodes := Node.push reading.nodes (.text place (place + 1)) }
  | .opening scope =>
      some { reading with
        nodes := []
        opened := (scope, reading.chars.length, reading.nodes) :: reading.opened }
  | .closing =>
      match reading.opened with
      | [] => none
      | (scope, start, siblings) :: opened =>
          some { reading with
            nodes := .marked scope start reading.chars.length reading.nodes.reverse :: siblings
            opened }

def takeAll? (reading : Reading) (pieces : List Piece) : Option Reading :=
  pieces.foldlM take? reading

end Reading

/-- The text and the tree that have been written as HTML. -/
def decode? (html : String) : Option (Source × List Node) := do
  let pieces ← Piece.readAll html.toList.length html.toList
  let reading ← ({} : Reading).takeAll? pieces
  if reading.opened.isEmpty then
    some ({ chars := reading.chars.reverse.toArray }, reading.nodes.reverse)
  else none

namespace Reading

theorem takeAll?_append (reading : Reading) (left right : List Piece) :
    reading.takeAll? (left ++ right) = (reading.takeAll? left).bind (·.takeAll? right) :=
  List.foldlM_append ..

/-- The reading behind some more text, whose nodes are at this level. -/
def behind (reading : Reading) (text : List Char) (nodes : List Node) : Reading where
  chars := text.reverse ++ reading.chars
  nodes := Node.pushAll reading.nodes nodes
  opened := reading.opened

theorem behind_behind (reading : Reading) (first second : List Char) (left right : List Node) :
    (reading.behind first left).behind second right = reading.behind (first ++ second) (left ++ right) := by
  simp [behind, Node.pushAll]

theorem takeAll?_chars (text : List Char) :
    ∀ {reading : Reading} {start : Nat}, reading.chars.length = start →
      reading.takeAll? (text.map .char) =
        some (reading.behind text [.text start (start + text.length)]) := by
  induction text with
  | nil =>
      intro reading start here
      have nothing : Node.pushAll reading.nodes [.text start (start + 0)] = reading.nodes :=
        Node.push_empty reading.nodes start
      rw [behind, List.length_nil, nothing]
      rfl
  | cons c rest ih =>
      intro reading start here
      have taken : reading.take? (.char c) = some (reading.behind [c] [.text start (start + 1)]) := by
        rw [← here]
        rfl
      have next : (reading.behind [c] [.text start (start + 1)]).chars.length = start + 1 := by
        simp [behind, here]
      have joined : Node.pushAll reading.nodes
          [.text start (start + 1), .text (start + 1) (start + 1 + rest.length)] =
            Node.pushAll reading.nodes [.text start (start + (rest.length + 1))] := by
        have both := Node.push_text_text reading.nodes (Nat.lt_succ_self start)
          (Nat.le_add_right (start + 1) rest.length)
        rw [Nat.add_right_comm start 1] at both
        rw [Nat.add_right_comm start 1]
        exact both
      rw [takeAll?, List.map_cons, List.foldlM_cons, taken]
      refine (ih next).trans ?_
      rw [behind_behind, behind, behind, List.singleton_append, List.singleton_append, joined]
      rfl

/-- The reading inside a span that opens here. -/
def inside (reading : Reading) (scope : Scope) : Reading where
  chars := reading.chars
  opened := (scope, reading.chars.length, reading.nodes) :: reading.opened

theorem takeAll?_span (reading : Reading) (scope : Scope) {pieces : List Piece} {text : List Char}
    {children : List Node}
    (taken : (reading.inside scope).takeAll? pieces = some ((reading.inside scope).behind text children)) :
    reading.takeAll? ([.opening scope] ++ pieces ++ [.closing]) =
      some (reading.behind text
        [.marked scope reading.chars.length (reading.chars.length + text.length)
          (Node.pushAll [] children).reverse]) := by
  have opens : reading.takeAll? [.opening scope] = some (reading.inside scope) := rfl
  have stop : (text.reverse ++ reading.chars).length = reading.chars.length + text.length := by
    rw [List.length_append, List.length_reverse, Nat.add_comm]
  rw [takeAll?_append, takeAll?_append, opens, Option.bind_some, taken, Option.bind_some, behind, ← stop]
  rfl

/-- The pieces of siblings are read as these siblings, if that is so for each of them. -/
theorem takeAll?_nodes (source : Source) {nodes : List Node} :
    ∀ {first last : Nat} {reading : Reading}, Node.Tiles first last nodes →
      (∀ node ∈ nodes, node.start < node.stop) → reading.chars.length = first →
        last ≤ source.size →
        (∀ node ∈ nodes, node.stop ≤ source.size → ∀ {other : Reading}, other.chars.length = node.start →
          other.takeAll? (Piece.ofNode source node) =
            some (other.behind (source.part node.start node.stop) [node])) →
          reading.takeAll? (Piece.ofNodes source nodes) =
            some (reading.behind (source.part first last) nodes) := by
  induction nodes with
  | nil =>
      intro first last reading tiled _ _ _ _
      obtain rfl : first = last := tiled
      rw [Source.part_self]
      rfl
  | cons node rest ih =>
      intro first last reading tiled proper here inside each
      obtain ⟨rfl, tiled⟩ := tiled
      have others : ∀ other ∈ rest, other.start < other.stop :=
        fun other member => proper other (List.mem_cons_of_mem _ member)
      have ordered := tiled.le others
      have properHere := proper node List.mem_cons_self
      have taken := each node List.mem_cons_self (Nat.le_trans ordered inside) here
      have next : (reading.behind (source.part node.start node.stop) [node]).chars.length =
          node.stop := by
        rw [behind, List.length_append, List.length_reverse, here,
          source.part_length (Nat.le_trans ordered inside)]
        omega
      rw [Piece.ofNodes, takeAll?_append, taken, Option.bind_some,
        ih tiled others next inside fun other member => each other (List.mem_cons_of_mem _ member),
        behind_behind, source.part_append (Nat.le_of_lt properHere) ordered, List.singleton_append]

theorem takeAll?_node (source : Source) {node : Node} (sound : node.Sound) :
    node.stop ≤ source.size → ∀ {reading : Reading}, reading.chars.length = node.start →
      reading.takeAll? (Piece.ofNode source node) =
        some (reading.behind (source.part node.start node.stop) [node]) := by
  have length : ∀ {start stop : Nat}, start < stop → stop ≤ source.size →
      start + (source.part start stop).length = stop := by
    intro start stop proper inside
    rw [source.part_length inside]
    omega
  induction sound with
  | @text start stop proper =>
      intro inside reading here
      dsimp only [Node.start, Node.stop] at inside here ⊢
      rw [Piece.ofNode, takeAll?_chars _ here, length proper inside]
  | @marked scope start stop children proper tiled apart sound ih =>
      intro inside reading here
      dsimp only [Node.start, Node.stop] at inside here ⊢
      have properAll : ∀ child ∈ children, child.start < child.stop :=
        fun child member => (sound child member).start_lt_stop
      have taken : (reading.inside scope).takeAll? (Piece.ofNodes source children) =
          some ((reading.inside scope).behind (source.part start stop) children) :=
        takeAll?_nodes source tiled properAll here inside fun child member inside _ there =>
          ih child member inside there
      have restored : (Node.pushAll [] children).reverse = children := by
        have apartFirst : Node.Apart (List.reverse [] ++ children) := apart
        rw [Node.pushAll_of_apart properAll apartFirst, List.append_nil, List.reverse_reverse]
      rw [Piece.ofNode, takeAll?_span reading scope taken, restored, here, length proper inside]

end Reading

end Highlighting.Html

namespace Highlighting.Highlight

theorem html_toList (highlight : Highlight) :
    highlight.html.toList =
      Html.Piece.writtenAll (Html.Piece.ofNodes highlight.source highlight.nodes) := by
  rw [html, String.toList_ofList, Html.Piece.written_ofNodes]

theorem WellFormed.decode?_html {highlight : Highlight} (formed : highlight.WellFormed) :
    Html.decode? highlight.html = some (highlight.source, highlight.nodes) := by
  have proper : ∀ node ∈ highlight.nodes, node.start < node.stop :=
    fun node member => (formed.sound node member).start_lt_stop
  have taken : ({} : Html.Reading).takeAll? (Html.Piece.ofNodes highlight.source highlight.nodes) =
      some (({} : Html.Reading).behind (highlight.source.part 0 highlight.source.size)
        highlight.nodes) :=
    Html.Reading.takeAll?_nodes highlight.source formed.tiled proper rfl (Nat.le_refl _)
      fun node member inside _ here =>
        Html.Reading.takeAll?_node highlight.source (formed.sound node member) inside here
  have apart : Node.Apart (List.reverse [] ++ highlight.nodes) := formed.apart
  have nodes : (Node.pushAll [] highlight.nodes).reverse = highlight.nodes := by
    rw [Node.pushAll_of_apart proper apart, List.append_nil, List.reverse_reverse]
  have source : ({ chars := (highlight.source.part 0 highlight.source.size).toArray } : Source) =
      highlight.source := by
    refine Source.eq_of_chars ?_
    rw [Source.part_whole, Array.toArray_toList]
  rw [Html.decode?, html_toList, Html.Piece.readAll_written _ (Nat.le_refl _)]
  dsimp only [bind, Option.bind]
  rw [taken]
  simp only [Html.Reading.behind, List.append_nil, List.reverse_reverse, nodes, source,
    List.isEmpty_nil, if_true]

/-- The text and the tree of a result whose nodes fill its source can be read off its HTML. So results
with the same HTML are the same text with the same tree. The tags of the HTML are balanced, and every
sign that starts a tag belongs to one of them, so that no text can bring markup in. -/
theorem html_lossless :
    (∀ highlight : Highlight, highlight.WellFormed →
      Html.decode? highlight.html = some (highlight.source, highlight.nodes)) ∧
    (∀ left right : Highlight, left.WellFormed → right.WellFormed → left.html = right.html →
      left.source = right.source ∧ left.nodes = right.nodes) ∧
    ∀ highlight : Highlight, Html.Balanced highlight.html.toList ∧
      ∀ before after, highlight.html.toList = before ++ '<' :: after →
        ∃ tag ∈ Html.Piece.tags, tag <+: '<' :: after := by
  refine ⟨fun _ => WellFormed.decode?_html, ?_, ?_⟩
  · intro left right leftFormed rightFormed same
    have decoded := leftFormed.decode?_html
    rw [same, rightFormed.decode?_html] at decoded
    obtain ⟨source, nodes⟩ := Prod.mk.inj (Option.some.inj decoded)
    exact ⟨source.symm, nodes.symm⟩
  · intro highlight
    refine ⟨?_, ?_⟩
    · rw [html, String.toList_ofList]
      exact Html.ofNodes_balanced highlight.source highlight.nodes
    · intro before after split
      rw [html_toList] at split
      exact Html.Piece.tag_of_less _ split

/-- A closing tag and an entity as text, marked at two levels. -/
def sample : Highlight where
  language := "sample"
  source := .ofString "</span>&lt;é"
  nodes := [.marked .titleFunction 0 11 [.text 0 7, .marked .string 7 11 [.text 7 11]], .text 11 12]
  relevance := 0
  stats := {}

theorem sample_lossless :
    sample.WellFormed ∧ Html.decode? sample.html = some (sample.source, sample.nodes) := by
  have start : Node.Fills 0 0 (List.reverse []) := Node.Fills.nil 0
  have before : Node.Fills 0 7 (List.reverse [.text 0 7]) := Node.fills_text start (by decide)
  have inner : Node.Fills 0 11 [.text 0 7, .leaf .string 7 11] :=
    Node.fills_push before (Node.leaf_sound (by decide) .string).addable
  have outer : Node.Fills 0 11
      (List.reverse [.marked .titleFunction 0 11 [.text 0 7, .leaf .string 7 11]]) :=
    Node.fills_push start (inner.marked (by decide) .titleFunction).addable
  have formed : sample.WellFormed := Node.fills_text outer (by decide)
  exact ⟨formed, html_lossless.1 sample formed⟩

end Highlighting.Highlight
