import Highlighting.Proofs.Tree.Leaves

/-! # The marks of a tree

The marks of a tree are its scoped ranges without their depths. Nodes that are pushed to their siblings
bring their marks along, whatever becomes of the text between them. So marks are neither lost nor
doubled when nodes are moved, and only their order changes. -/
set_option autoImplicit false
namespace Highlighting

/-- A scope on a range of places. -/
structure Marking where
  scope : Scope
  start : Nat
  stop : Nat
deriving DecidableEq, Repr

def ScopedRange.marking (range : ScopedRange) : Marking :=
  ⟨range.scope, range.start, range.stop⟩

/-- The mark on a range that may have a scope. -/
def Marking.ofScope (scope : Option Scope) (start stop : Nat) : List Marking :=
  scope.toList.map fun scope => ⟨scope, start, stop⟩

theorem Marking.length_ofScope (scope : Option Scope) (start stop : Nat) :
    (ofScope scope start stop).length = scope.isSome.toNat := by
  cases scope <;> rfl

namespace Node

mutual

def marks : Node → List Marking
  | text _ _ => []
  | marked scope start stop children => ⟨scope, start, stop⟩ :: marksAll children

def marksAll : List Node → List Marking
  | [] => []
  | node :: rest => node.marks ++ marksAll rest

end

mutual

/-- At whatever depth a tree is listed, its ranges have its marks. -/
theorem scopes_map_marking : ∀ (node : Node) (depth : Nat),
    (node.scopes depth).map (·.marking) = node.marks
  | text _ _, _ => rfl
  | marked _ _ _ children, depth =>
      congrArg (List.cons _) (scopesAll_map_marking children (depth + 1))

theorem scopesAll_map_marking : ∀ (nodes : List Node) (depth : Nat),
    (scopesAll depth nodes).map (·.marking) = marksAll nodes
  | [], _ => rfl
  | node :: rest, depth => by
      rw [scopesAll, List.map_append, scopes_map_marking node, scopesAll_map_marking rest, marksAll]

end

theorem marksAll_append (left right : List Node) :
    marksAll (left ++ right) = marksAll left ++ marksAll right := by
  induction left with
  | nil => rfl
  | cons node rest ih => rw [List.cons_append, marksAll, marksAll, ih, List.append_assoc]

theorem marksAll_reverse (nodes : List Node) : (marksAll nodes.reverse).Perm (marksAll nodes) := by
  induction nodes with
  | nil => exact .refl _
  | cons node rest ih =>
      rw [List.reverse_cons, marksAll_append, marksAll, marksAll, marksAll, List.append_nil]
      exact List.perm_append_comm.trans (ih.append_left node.marks)

theorem marksAll_push (siblings : List Node) (node : Node) :
    marksAll (push siblings node) = node.marks ++ marksAll siblings := by
  cases node with
  | marked scope start stop children => rfl
  | text start stop =>
      simp only [push, marks, List.nil_append]
      split
      · rfl
      · split
        · split <;> rfl
        · rfl

theorem marksAll_pushAll {nodes : List Node} :
    ∀ {siblings : List Node},
      (marksAll (pushAll siblings nodes)).Perm (marksAll siblings ++ marksAll nodes) := by
  induction nodes with
  | nil =>
      intro siblings
      rw [marksAll, List.append_nil]
      exact .refl _
  | cons node rest ih =>
      intro siblings
      rw [pushAll, List.foldl_cons, ← pushAll, marksAll]
      refine ih.trans ?_
      rw [marksAll_push, ← List.append_assoc]
      exact List.perm_append_comm.append_right (marksAll rest)

theorem marksAll_pushAll_append (siblings nodes others : List Node) :
    (marksAll (pushAll siblings nodes ++ others)).Perm (marksAll (siblings ++ others ++ nodes)) := by
  rw [marksAll_append, marksAll_append, marksAll_append, List.append_assoc]
  refine (marksAll_pushAll.append_right _).trans ?_
  rw [List.append_assoc]
  exact List.perm_append_comm.append_left _

end Node

end Highlighting
