import Mathlib.Data.List.Chain
import Highlighting.Tree

/-! # Trees without gaps

Siblings fill a range when they follow each other through it without a gap or an overlap, none of
them is empty, text never follows text, and the children of every marked node fill that node in turn.
Nodes that are pushed in order keep this, whether they are joined to the text before them or not. -/
set_option autoImplicit false
namespace Highlighting.Node

def isText : Node → Bool
  | text _ _ => true
  | marked _ _ _ _ => false

/-- The nodes follow each other from `first` to `last`. -/
def Tiles : Nat → Nat → List Node → Prop
  | first, last, [] => first = last
  | first, last, node :: rest => node.start = first ∧ Tiles node.stop last rest

/-- No text directly follows text. -/
def Apart (nodes : List Node) : Prop :=
  nodes.IsChain fun left right => ¬ (left.isText ∧ right.isText)

/-- No range in the node is empty, and the children of every marked node in it tile that node. -/
inductive Sound : Node → Prop where
  | text {start stop : Nat} (proper : start < stop) : Sound (.text start stop)
  | marked {scope : Scope} {start stop : Nat} {children : List Node} (proper : start < stop)
      (tiled : Tiles start stop children) (apart : Apart children)
      (sound : ∀ child ∈ children, Sound child) : Sound (.marked scope start stop children)

/-- Siblings that tile a range, with everything below them in order. -/
structure Fills (first last : Nat) (nodes : List Node) : Prop where
  tiled : Tiles first last nodes
  apart : Apart nodes
  sound : ∀ node ∈ nodes, node.Sound

/-- A node that may be pushed. Only text may be empty. -/
def Addable : Node → Prop
  | text start stop => start ≤ stop
  | marked scope start stop children => (marked scope start stop children).Sound

theorem tiles_append (middle : List Node) : ∀ (first last : Nat) (left : List Node),
    Tiles first last (left ++ middle) ↔ ∃ place, Tiles first place left ∧ Tiles place last middle := by
  intro first last left
  induction left generalizing first with
  | nil => simp [Tiles]
  | cons node rest ih =>
      simp only [List.cons_append, Tiles, ih]
      constructor
      · rintro ⟨starts, place, before, behind⟩
        exact ⟨place, ⟨starts, before⟩, behind⟩
      · rintro ⟨place, ⟨starts, before⟩, behind⟩
        exact ⟨starts, place, before, behind⟩

theorem Sound.start_lt_stop {node : Node} (sound : node.Sound) : node.start < node.stop := by
  cases sound <;> assumption

theorem Sound.addable {node : Node} (sound : node.Sound) : node.Addable := by
  cases sound with
  | text proper => exact Nat.le_of_lt proper
  | marked proper tiled apart sound => exact .marked proper tiled apart sound

theorem Fills.nil (place : Nat) : Fills place place [] :=
  ⟨rfl, .nil, fun _ absurdity => nomatch absurdity⟩

theorem Fills.marked {first last : Nat} {nodes : List Node} (filled : Fills first last nodes)
    (proper : first < last) (scope : Scope) : (marked scope first last nodes).Sound :=
  .marked proper filled.tiled filled.apart filled.sound

theorem leaf_sound {start stop : Nat} (proper : start < stop) (scope : Scope) :
    (leaf scope start stop).Sound := by
  refine .marked proper ⟨rfl, rfl⟩ (.singleton _) ?_
  intro child member
  rw [List.mem_singleton.mp member]
  exact .text proper

theorem fills_reverse_cons {first last : Nat} {node : Node} {siblings : List Node} :
    Fills first last (node :: siblings).reverse ↔
      Fills first node.start siblings.reverse ∧ node.stop = last ∧ node.Sound ∧
        ∀ before ∈ siblings.head?, ¬ (before.isText ∧ node.isText) := by
  have apart_iff : Apart (node :: siblings).reverse ↔
      Apart siblings.reverse ∧ ∀ before ∈ siblings.head?, ¬ (before.isText ∧ node.isText) := by
    simp only [Apart, List.isChain_reverse, List.isChain_cons]
    exact and_comm
  have tiles_iff : Tiles first last (node :: siblings).reverse ↔
      Tiles first node.start siblings.reverse ∧ node.stop = last := by
    rw [List.reverse_cons, tiles_append]
    constructor
    · rintro ⟨place, before, rfl, stops⟩
      exact ⟨before, stops⟩
    · rintro ⟨before, stops⟩
      exact ⟨node.start, before, rfl, stops⟩
  have sound_iff : (∀ other ∈ (node :: siblings).reverse, other.Sound) ↔
      (∀ other ∈ siblings.reverse, other.Sound) ∧ node.Sound := by
    simp only [List.mem_reverse, List.mem_cons, forall_eq_or_imp]
    exact and_comm
  constructor
  · rintro ⟨tiled, apart, sound⟩
    exact ⟨⟨(tiles_iff.mp tiled).1, (apart_iff.mp apart).1, (sound_iff.mp sound).1⟩,
      (tiles_iff.mp tiled).2, (sound_iff.mp sound).2, (apart_iff.mp apart).2⟩
  · rintro ⟨filled, stops, sound, apart⟩
    exact ⟨tiles_iff.mpr ⟨filled.tiled, stops⟩, apart_iff.mpr ⟨filled.apart, apart⟩,
      sound_iff.mpr ⟨filled.sound, sound⟩⟩

theorem fills_push {first : Nat} {siblings : List Node} {node : Node}
    (filled : Fills first node.start siblings.reverse) (addable : node.Addable) :
    Fills first node.stop (push siblings node).reverse := by
  cases node with
  | marked scope start stop children =>
      exact fills_reverse_cons.mpr ⟨filled, rfl, addable, fun before _ both => nomatch both.2⟩
  | text start stop =>
      simp only [push]
      by_cases proper : start < stop
      · rw [if_neg (Nat.not_le.mpr proper)]
        -- Only text that ends here is joined to.
        split
        · next before last rest =>
            obtain ⟨filled, ends, sound, apart⟩ := fills_reverse_cons.mp filled
            cases sound with
            | text nonempty =>
                change last = start at ends
                rw [if_pos ends]
                exact fills_reverse_cons.mpr ⟨filled, rfl, .text (by omega), apart⟩
        · next noText =>
            refine fills_reverse_cons.mpr ⟨filled, rfl, .text proper, ?_⟩
            intro before top both
            cases siblings with
            | nil => exact nomatch top
            | cons sibling rest =>
                obtain rfl : sibling = before := Option.some.inj top
                cases sibling with
                | text first last => exact noText first last rest rfl
                | marked => exact nomatch both.1
      · have empty : start = stop := Nat.le_antisymm addable (Nat.not_lt.mp proper)
        rw [if_pos (Nat.not_lt.mp proper)]
        exact empty ▸ filled

theorem fills_text {first last place : Nat} {siblings : List Node}
    (filled : Fills first last siblings.reverse) (ordered : last ≤ place) :
    Fills first place (push siblings (text last place)).reverse := by
  have addable : (text last place).Addable := ordered
  exact fills_push filled addable

/-- Nodes that may be pushed one after the other from `first` to `last`. -/
structure Covers (first last : Nat) (nodes : List Node) : Prop where
  tiled : Tiles first last nodes
  addable : ∀ node ∈ nodes, node.Addable

theorem Fills.covers {first last : Nat} {nodes : List Node} (filled : Fills first last nodes) :
    Covers first last nodes :=
  ⟨filled.tiled, fun node member => (filled.sound node member).addable⟩

theorem Covers.nil (place : Nat) : Covers place place [] :=
  (Fills.nil place).covers

theorem Covers.text {start stop : Nat} (ordered : start ≤ stop) :
    Covers start stop [.text start stop] := by
  refine ⟨⟨rfl, rfl⟩, ?_⟩
  intro node member
  rw [List.mem_singleton.mp member]
  exact ordered

theorem Sound.covers {node : Node} (sound : node.Sound) : Covers node.start node.stop [node] := by
  refine ⟨⟨rfl, rfl⟩, ?_⟩
  intro other member
  rw [List.mem_singleton.mp member]
  exact sound.addable

theorem Covers.append {first middle last : Nat} {left right : List Node}
    (before : Covers first middle left) (behind : Covers middle last right) :
    Covers first last (left ++ right) := by
  refine ⟨(tiles_append right first last left).mpr ⟨middle, before.tiled, behind.tiled⟩, ?_⟩
  intro node member
  rcases List.mem_append.mp member with inLeft | inRight
  · exact before.addable node inLeft
  · exact behind.addable node inRight

/-- Pushing nodes one after the other fills the range up to the end of the last one. -/
theorem fills_pushAll {first last : Nat} {nodes : List Node} :
    ∀ {middle : Nat} {siblings : List Node}, Fills first middle siblings.reverse →
      Covers middle last nodes → Fills first last (pushAll siblings nodes).reverse := by
  induction nodes with
  | nil =>
      intro middle siblings filled covers
      exact covers.tiled ▸ filled
  | cons node rest ih =>
      intro middle siblings filled covers
      obtain ⟨rfl, tiled⟩ := covers.tiled
      exact ih (fills_push filled (covers.addable node List.mem_cons_self))
        ⟨tiled, fun other member => covers.addable other (List.mem_cons_of_mem _ member)⟩

/-- A node that is not to be joined to the text before it becomes the next sibling. -/
theorem push_of_apart {siblings : List Node} {node : Node} (proper : node.start < node.stop)
    (apart : ∀ before ∈ siblings.head?, ¬ (before.isText ∧ node.isText)) :
    push siblings node = node :: siblings := by
  cases node with
  | marked scope start stop children => rfl
  | text start stop =>
      have nonempty : ¬ stop ≤ start := Nat.not_le.mpr proper
      simp only [push, if_neg nonempty]
      split
      · next first last rest => exact absurd ⟨rfl, rfl⟩ (apart (text first last) rfl)
      · rfl

theorem pushAll_of_apart {nodes : List Node} (proper : ∀ node ∈ nodes, node.start < node.stop) :
    ∀ {siblings : List Node}, Apart (siblings.reverse ++ nodes) →
      pushAll siblings nodes = nodes.reverse ++ siblings := by
  induction nodes with
  | nil => intro siblings _; rfl
  | cons node rest ih =>
      intro siblings apart
      have here : ∀ before ∈ siblings.head?, ¬ (before.isText ∧ node.isText) := by
        intro before last
        rw [Apart, List.isChain_append] at apart
        exact apart.2.2 before (by rwa [List.getLast?_reverse]) node rfl
      have pushed := push_of_apart (proper node List.mem_cons_self) here
      have apartBehind : Apart ((node :: siblings).reverse ++ rest) := by
        rwa [List.reverse_cons, List.append_assoc]
      rw [pushAll, List.foldl_cons, pushed, ← pushAll,
        ih (fun other member => proper other (List.mem_cons_of_mem _ member)) apartBehind]
      simp

theorem push_empty (siblings : List Node) (place : Nat) :
    push siblings (text place place) = siblings := by
  simp only [push, Nat.le_refl, if_true]

/-- Text that is pushed in two pieces is joined. -/
theorem push_text_text (siblings : List Node) {first middle last : Nat} (left : first < middle)
    (right : middle ≤ last) :
    push (push siblings (text first middle)) (text middle last) = push siblings (text first last) := by
  rcases Nat.eq_or_lt_of_le right with rfl | right
  · rw [push_empty]
  · have whole : ¬ last ≤ first := by omega
    cases siblings with
    | nil => simp [push, Nat.not_le.mpr left, Nat.not_le.mpr right, whole]
    | cons before rest =>
        cases before with
        | marked scope start stop children =>
            simp [push, Nat.not_le.mpr left, Nat.not_le.mpr right, whole]
        | text start stop =>
            by_cases joined : stop = first <;>
              simp [push, Nat.not_le.mpr left, Nat.not_le.mpr right, whole, joined]

end Highlighting.Node
