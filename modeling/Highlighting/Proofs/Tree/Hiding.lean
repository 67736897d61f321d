import Highlighting.Proofs.Tree.Leaves

/-! # Hidden places

A place is hidden by the nodes whose scope is one of those that hide it, when it lies in their range.
Text that is joined to text hides nothing, so siblings hide what they hide one by one. -/
set_option autoImplicit false
namespace Highlighting.Node

/-- The place lies in a range, of the node or inside it, that has one of the scopes. -/
inductive Hides (hidden : List Scope) (place : Nat) : Node → Prop where
  | here {scope : Scope} {start stop : Nat} {children : List Node} (listed : scope ∈ hidden)
      (within : start ≤ place ∧ place < stop) : Hides hidden place (.marked scope start stop children)
  | inside {scope : Scope} {start stop : Nat} {children : List Node} {child : Node}
      (member : child ∈ children) (hides : Hides hidden place child) :
      Hides hidden place (.marked scope start stop children)

def AnyHides (hidden : List Scope) (place : Nat) (nodes : List Node) : Prop :=
  ∃ node ∈ nodes, node.Hides hidden place

variable {hidden : List Scope} {place : Nat}

theorem not_hides_text (start stop : Nat) : ¬ (text start stop).Hides hidden place :=
  fun absurdity => nomatch absurdity

theorem hides_marked {scope : Scope} {start stop : Nat} {children : List Node} :
    (marked scope start stop children).Hides hidden place ↔
      (scope ∈ hidden ∧ start ≤ place ∧ place < stop) ∨ AnyHides hidden place children := by
  constructor
  · intro hides
    cases hides with
    | here listed within => exact .inl ⟨listed, within⟩
    | inside member hides => exact .inr ⟨_, member, hides⟩
  · rintro (⟨listed, within⟩ | ⟨child, member, hides⟩)
    · exact .here listed within
    · exact .inside member hides

theorem anyHides_nil : ¬ AnyHides hidden place [] := by
  rintro ⟨node, member, _⟩
  exact nomatch member

theorem anyHides_cons {node : Node} {rest : List Node} :
    AnyHides hidden place (node :: rest) ↔
      node.Hides hidden place ∨ AnyHides hidden place rest := by
  simp only [AnyHides, List.mem_cons, exists_eq_or_imp]

theorem anyHides_append {left right : List Node} :
    AnyHides hidden place (left ++ right) ↔
      AnyHides hidden place left ∨ AnyHides hidden place right := by
  simp only [AnyHides, List.mem_append, or_and_right, exists_or]

theorem anyHides_reverse {nodes : List Node} :
    AnyHides hidden place nodes.reverse ↔ AnyHides hidden place nodes := by
  simp only [AnyHides, List.mem_reverse]

theorem anyHides_text (start stop : Nat) : ¬ AnyHides hidden place [text start stop] := by
  rw [anyHides_cons, not_or]
  exact ⟨not_hides_text start stop, anyHides_nil⟩

theorem anyHides_push {siblings : List Node} {node : Node} :
    AnyHides hidden place (push siblings node) ↔
      AnyHides hidden place siblings ∨ node.Hides hidden place := by
  cases node with
  | marked scope start stop children =>
      have pushed : push siblings (marked scope start stop children) =
          marked scope start stop children :: siblings := rfl
      rw [pushed, anyHides_cons, or_comm]
  | text start stop =>
      simp only [push, not_hides_text, or_false]
      split
      · rfl
      · split
        · next first last rest =>
            split <;> simp only [anyHides_cons, not_hides_text, false_or]
        · simp only [anyHides_cons, not_hides_text, false_or]

theorem anyHides_pushAll {nodes : List Node} :
    ∀ {siblings : List Node}, AnyHides hidden place (pushAll siblings nodes) ↔
      AnyHides hidden place siblings ∨ AnyHides hidden place nodes := by
  induction nodes with
  | nil => intro siblings; exact (or_iff_left anyHides_nil).symm
  | cons node rest ih =>
      intro siblings
      rw [pushAll, List.foldl_cons, ← pushAll, ih, anyHides_push, anyHides_cons, or_assoc]

/-! ## Hidden places lie inside -/

theorem Addable.le {node : Node} (addable : node.Addable) : node.start ≤ node.stop := by
  cases node with
  | text start stop => exact addable
  | marked scope start stop children => exact Nat.le_of_lt (Sound.start_lt_stop addable)

theorem Covers.within {first last : Nat} {nodes : List Node} (covers : Covers first last nodes) :
    first ≤ last ∧ ∀ node ∈ nodes, first ≤ node.start ∧ node.stop ≤ last := by
  induction nodes generalizing first with
  | nil => exact ⟨Nat.le_of_eq covers.tiled, fun _ absurdity => nomatch absurdity⟩
  | cons node rest ih =>
      obtain ⟨rfl, tiled⟩ := covers.tiled
      obtain ⟨ordered, others⟩ : node.stop ≤ last ∧
          ∀ other ∈ rest, node.stop ≤ other.start ∧ other.stop ≤ last :=
        ih ⟨tiled, fun other member => covers.addable other (List.mem_cons_of_mem _ member)⟩
      have proper := (covers.addable node List.mem_cons_self).le
      refine ⟨Nat.le_trans proper ordered, ?_⟩
      intro other member
      rcases List.mem_cons.mp member with rfl | later
      · exact ⟨Nat.le_refl _, ordered⟩
      · obtain ⟨starts, stops⟩ := others other later
        exact ⟨Nat.le_trans proper starts, stops⟩

theorem Hides.within {node : Node} (hides : node.Hides hidden place) (sound : node.Sound) :
    node.start ≤ place ∧ place < node.stop := by
  induction hides with
  | here listed within => exact within
  | @inside scope start stop children child member hides ih =>
      cases sound with
      | marked proper tiled apart sound =>
          have filled : Fills start stop children := ⟨tiled, apart, sound⟩
          obtain ⟨starts, stops⟩ := filled.covers.within.2 child member
          obtain ⟨behind, before⟩ := ih (sound child member)
          exact ⟨Nat.le_trans starts behind, Nat.lt_of_lt_of_le before stops⟩

theorem Covers.hidden_within {first last : Nat} {nodes : List Node} (covers : Covers first last nodes)
    (hides : AnyHides hidden place nodes) : first ≤ place ∧ place < last := by
  obtain ⟨node, member, hides⟩ := hides
  have addable := covers.addable node member
  cases node with
  | text start stop => exact absurd hides (not_hides_text start stop)
  | marked scope start stop children =>
      obtain ⟨starts, stops⟩ := covers.within.2 _ member
      obtain ⟨behind, before⟩ := hides.within addable
      exact ⟨Nat.le_trans starts behind, Nat.lt_of_lt_of_le before stops⟩

/-! ## Hidden places by their ranges -/

/-- Some of the ranges has one of the scopes and holds the place. -/
def RangeHides (hidden : List Scope) (place : Nat) (ranges : List ScopedRange) : Prop :=
  ∃ range ∈ ranges, range.scope ∈ hidden ∧ range.start ≤ place ∧ place < range.stop

mutual

theorem hides_iff_scopes (depth : Nat) :
    (node : Node) → (node.Hides hidden place ↔ RangeHides hidden place (node.scopes depth))
  | .text start stop => by
      simp only [not_hides_text, scopes, RangeHides, List.not_mem_nil, false_and, exists_false]
  | .marked scope start stop children => by
      rw [hides_marked, anyHides_iff_scopes (depth + 1) children]
      simp only [scopes, RangeHides, List.mem_cons, exists_eq_or_imp]

theorem anyHides_iff_scopes (depth : Nat) :
    (nodes : List Node) →
      (AnyHides hidden place nodes ↔ RangeHides hidden place (scopesAll depth nodes))
  | [] => by
      simp only [anyHides_nil, scopesAll, RangeHides, List.not_mem_nil, false_and, exists_false]
  | node :: rest => by
      rw [anyHides_cons, hides_iff_scopes depth node, anyHides_iff_scopes depth rest]
      simp only [scopesAll, RangeHides, List.mem_append, or_and_right, exists_or]

end

end Highlighting.Node
