import Highlighting.Proofs.Text.Cuts
import Highlighting.Proofs.Tree.Bytes

/-! # Nodes inside a text

A node fits into a text when each of its ranges is in order and inside the text. Text may be pushed whose
range is not in order, since it is left out then. Pushing nodes and going over to bytes can be done in
either order. -/
set_option autoImplicit false
namespace Highlighting.Node

inductive Fits (limit : Nat) : Node → Prop where
  | text {start stop : Nat} (ordered : start ≤ stop) (inside : stop ≤ limit) :
      Fits limit (.text start stop)
  | marked {scope : Scope} {start stop : Nat} {children : List Node} (ordered : start ≤ stop)
      (inside : stop ≤ limit) (fits : ∀ child ∈ children, Fits limit child) :
      Fits limit (.marked scope start stop children)

def AllFit (limit : Nat) (nodes : List Node) : Prop :=
  ∀ node ∈ nodes, node.Fits limit

/-- A node that may be pushed, where text may be out of order. -/
def Pushable (limit : Nat) : Node → Prop
  | text start stop => start ≤ limit ∧ stop ≤ limit
  | marked scope start stop children => (marked scope start stop children).Fits limit

variable {limit : Nat}

theorem allFit_nil : AllFit limit [] :=
  fun _ absurdity => nomatch absurdity

theorem AllFit.cons {node : Node} {rest : List Node} (fits : node.Fits limit)
    (others : AllFit limit rest) : AllFit limit (node :: rest) := by
  intro other member
  rcases List.mem_cons.mp member with rfl | later
  · exact fits
  · exact others other later

theorem AllFit.reverse {nodes : List Node} (fit : AllFit limit nodes) : AllFit limit nodes.reverse :=
  fun node member => fit node (List.mem_reverse.mp member)

theorem Fits.pushable {node : Node} (fits : node.Fits limit) : node.Pushable limit := by
  cases fits with
  | text ordered inside => exact ⟨Nat.le_trans ordered inside, inside⟩
  | marked ordered inside fits => exact .marked ordered inside fits

theorem Sound.fits {node : Node} (sound : node.Sound) : node.stop ≤ limit → node.Fits limit := by
  induction sound with
  | text proper =>
      intro inside
      exact .text (Nat.le_of_lt proper) inside
  | marked proper tiled apart sound ih =>
      intro inside
      refine .marked (Nat.le_of_lt proper) inside ?_
      intro child member
      have within := tiled.stop_le (fun other member => (sound other member).start_lt_stop) child member
      exact ih child member (Nat.le_trans within inside)

theorem Fills.allFit {first last : Nat} {nodes : List Node} (filled : Fills first last nodes)
    (inside : last ≤ limit) : AllFit limit nodes := by
  intro node member
  have within := filled.tiled.stop_le
    (fun other member => (filled.sound other member).start_lt_stop) node member
  exact (filled.sound node member).fits (Nat.le_trans within inside)

theorem leaf_fits {start stop : Nat} (ordered : start ≤ stop) (inside : stop ≤ limit) (scope : Scope) :
    (leaf scope start stop).Fits limit :=
  .marked ordered inside (AllFit.cons (.text ordered inside) allFit_nil)

theorem push_fits {siblings : List Node} {node : Node} (fit : AllFit limit siblings)
    (pushable : node.Pushable limit) : AllFit limit (push siblings node) := by
  cases node with
  | marked scope start stop children => exact AllFit.cons pushable fit
  | text start stop =>
      simp only [push]
      split
      · exact fit
      · next nonempty =>
          have here : (text start stop).Fits limit :=
            .text (Nat.le_of_lt (Nat.not_le.mp nonempty)) pushable.2
          split
          · next first last rest =>
              split
              · next joined =>
                  cases fit _ List.mem_cons_self with
                  | text ordered inside =>
                      have longer : first ≤ stop := by omega
                      exact AllFit.cons (.text longer pushable.2)
                        fun other member => fit other (List.mem_cons_of_mem _ member)
              · exact AllFit.cons here fit
          · exact AllFit.cons here fit

theorem pushAll_fits {nodes : List Node} :
    ∀ {siblings : List Node}, AllFit limit siblings → (∀ node ∈ nodes, node.Pushable limit) →
      AllFit limit (pushAll siblings nodes) := by
  induction nodes with
  | nil => intro siblings fit _; exact fit
  | cons node rest ih =>
      intro siblings fit pushable
      exact ih (push_fits fit (pushable node List.mem_cons_self))
        fun other member => pushable other (List.mem_cons_of_mem _ member)

section Bytes
variable (source : Source)

theorem push_inBytes {siblings : List Node} {node : Node} (fit : AllFit source.size siblings)
    (pushable : node.Pushable source.size) :
    push (inBytesAll source siblings) (node.inBytes source) =
      inBytesAll source (push siblings node) := by
  cases node with
  | marked scope start stop children => rfl
  | text start stop =>
      obtain ⟨startInside, stopInside⟩ := pushable
      simp only [inBytes, push, source.offset_le_iff stopInside]
      split
      · rfl
      · cases siblings with
        | nil => rfl
        | cons before rest =>
            cases before with
            | marked scope first last children => rfl
            | text first last =>
                cases fit _ List.mem_cons_self with
                | text ordered inside =>
                    have joined : source.offset last = source.offset start ↔ last = start :=
                      ⟨source.offset_injective inside startInside, congrArg source.offset⟩
                    simp only [inBytesAll, inBytes, joined]
                    split <;> rfl

theorem pushAll_inBytes {nodes : List Node} :
    ∀ {siblings : List Node}, AllFit source.size siblings →
      (∀ node ∈ nodes, node.Pushable source.size) →
        pushAll (inBytesAll source siblings) (inBytesAll source nodes) =
          inBytesAll source (pushAll siblings nodes) := by
  induction nodes with
  | nil => intro siblings _ _; rfl
  | cons node rest ih =>
      intro siblings fit pushable
      have here := pushable node List.mem_cons_self
      have others : ∀ other ∈ rest, other.Pushable source.size :=
        fun other member => pushable other (List.mem_cons_of_mem _ member)
      have pushed := push_inBytes source fit here
      rw [inBytesAll, pushAll, List.foldl_cons, ← pushAll, pushed, ih (push_fits fit here) others]
      rfl

theorem inBytesAll_reverse (nodes : List Node) :
    inBytesAll source nodes.reverse = (inBytesAll source nodes).reverse := by
  rw [inBytesAll_eq, inBytesAll_eq, List.map_reverse]

end Bytes

end Highlighting.Node
