import Highlighting.Proofs.Tree.Marks

/-! # The nodes in a tree

A node occurs among siblings when it is one of them or occurs inside one. The marks of a tree are those
of the marked nodes that occur in it. -/
set_option autoImplicit false
namespace Highlighting.Node

/-- The scope of a marked node. -/
def scope? : Node → Option Scope
  | text _ _ => none
  | marked scope _ _ _ => some scope

/-- The node is one of the siblings or is somewhere inside them. -/
inductive Occurs (node : Node) : List Node → Prop where
  | here {siblings : List Node} (member : node ∈ siblings) : Occurs node siblings
  | inside {siblings children : List Node} {scope : Scope} {start stop : Nat}
      (member : marked scope start stop children ∈ siblings) (occurs : Occurs node children) :
      Occurs node siblings

theorem marksAll_eq (nodes : List Node) : marksAll nodes = nodes.flatMap (·.marks) := by
  induction nodes with
  | nil => rfl
  | cons node rest ih => rw [marksAll, ih, List.flatMap_cons]

theorem mem_marksAll_reverse {marking : Marking} {nodes : List Node} :
    marking ∈ marksAll nodes.reverse ↔ marking ∈ marksAll nodes :=
  (marksAll_reverse nodes).mem_iff

/-- The marks inside a node are marks of whatever it occurs in. -/
theorem Occurs.marks_subset {node : Node} {siblings : List Node} (occurs : node.Occurs siblings) :
    node.marks ⊆ marksAll siblings := by
  induction occurs with
  | here member =>
      intro marking marks
      rw [marksAll_eq]
      exact List.mem_flatMap.mpr ⟨node, member, marks⟩
  | inside member occurs ih =>
      intro marking marks
      rw [marksAll_eq]
      exact List.mem_flatMap.mpr ⟨_, member, List.mem_cons_of_mem _ (ih marks)⟩

/-- A node that is among siblings behind pushed ones was there before, was pushed, or is text. -/
theorem mem_push {siblings : List Node} {node other : Node} (member : other ∈ push siblings node) :
    other ∈ siblings ∨ other = node ∨ other.isText = true := by
  cases node with
  | marked scope start stop children => exact (List.mem_cons.mp member).symm.imp_right .inl
  | text start stop =>
      simp only [push] at member
      split at member
      · exact .inl member
      · split at member
        · split at member
          · rcases List.mem_cons.mp member with rfl | earlier
            · exact .inr (.inr rfl)
            · exact .inl (List.mem_cons_of_mem _ earlier)
          · exact (List.mem_cons.mp member).symm.imp_right .inl
        · exact (List.mem_cons.mp member).symm.imp_right .inl

theorem mem_pushAll {nodes : List Node} {other : Node} :
    ∀ {siblings : List Node}, other ∈ pushAll siblings nodes →
      other ∈ siblings ∨ other ∈ nodes ∨ other.isText = true := by
  induction nodes with
  | nil => exact fun member => .inl member
  | cons node rest ih =>
      intro siblings member
      rcases ih member with earlier | later | isText
      · rcases mem_push earlier with before | rfl | isText
        · exact .inl before
        · exact .inr (.inl List.mem_cons_self)
        · exact .inr (.inr isText)
      · exact .inr (.inl (List.mem_cons_of_mem _ later))
      · exact .inr (.inr isText)

/-- A node without any mark inside it. -/
inductive IsLeaf : Node → Prop where
  | text (start stop : Nat) : IsLeaf (.text start stop)
  | leaf (scope : Scope) (start stop : Nat) : IsLeaf (.leaf scope start stop)

theorem leaves_push {siblings : List Node} {node : Node} (leaves : ∀ other ∈ siblings, other.IsLeaf)
    (leaf : node.IsLeaf) : ∀ other ∈ push siblings node, other.IsLeaf := by
  intro other member
  rcases mem_push member with earlier | rfl | isText
  · exact leaves other earlier
  · exact leaf
  · cases other with
    | text start stop => exact .text start stop
    | marked scope start stop children => exact nomatch isText

theorem leaf_mem_iff {nodes : List Node} (leaves : ∀ node ∈ nodes, node.IsLeaf) {scope : Scope}
    {start stop : Nat} :
    leaf scope start stop ∈ nodes ↔ (⟨scope, start, stop⟩ : Marking) ∈ marksAll nodes := by
  rw [marksAll_eq, List.mem_flatMap]
  constructor
  · exact fun member => ⟨_, member, List.mem_cons_self⟩
  · rintro ⟨node, member, marks⟩
    cases leaves node member with
    | text => exact absurd marks List.not_mem_nil
    | leaf =>
        obtain ⟨rfl, rfl, rfl⟩ := Marking.mk.inj (List.mem_singleton.mp marks)
        exact member

/-- Siblings that fill a range without any mark are one piece of text. -/
theorem Fills.eq_text {first last : Nat} {nodes : List Node} (filled : Fills first last nodes)
    (proper : first < last) (unmarked : ∀ node ∈ nodes, node.scope? = none) :
    nodes = [text first last] := by
  have texts : ∀ node ∈ nodes, node.isText = true := by
    intro node member
    have plain := unmarked node member
    cases node with
    | text start stop => rfl
    | marked scope start stop children => exact nomatch plain
  cases nodes with
  | nil => exact absurd filled.tiled (Nat.ne_of_lt proper)
  | cons node rest =>
      cases rest with
      | nil =>
          cases node with
          | marked scope start stop children => exact nomatch texts _ List.mem_cons_self
          | text start stop =>
              obtain ⟨rfl, rfl⟩ := filled.tiled
              rfl
      | cons other others =>
          have apart := (List.isChain_cons_cons.mp filled.apart).1
          exact absurd ⟨texts node List.mem_cons_self, texts other (by simp)⟩ apart

end Highlighting.Node
