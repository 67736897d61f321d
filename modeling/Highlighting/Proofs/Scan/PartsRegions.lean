import Highlighting.Proofs.Scan.Descents
import Highlighting.Proofs.Scan.WordStarts

/-! # Regions of parts

Of a match that is cut into parts, the parts with a scope are marked and the others are searched for words.
Where the first match of a source has parts and no word stands in them, the regions start with the parts
that have a scope. -/
set_option autoImplicit false
namespace Highlighting

namespace Part

/-- The ranges of the parts that have a scope. -/
def ranges (parts : List Part) : List ScopedRange :=
  parts.filterMap fun part => part.scope.map fun scope => ⟨scope, part.start, part.stop, 0⟩

theorem ranges_cons (part : Part) (rest : List Part) :
    ranges (part :: rest) =
      (part.scope.map fun scope => ⟨scope, part.start, part.stop, 0⟩).toList ++ ranges rest := by
  rw [ranges, List.filterMap_cons]
  cases part.scope <;> rfl

/-- The scopes and the texts of these parts. -/
def scopedTexts (source : Source) (parts : List Part) : List (Scope × String) :=
  (ranges parts).map fun range => (range.scope, source.slice range.start range.stop)

end Part

theorem Node.scopesAll_append (depth : Nat) (left right : List Node) :
    scopesAll depth (left ++ right) = scopesAll depth left ++ scopesAll depth right := by
  simp only [scopesAll_eq, List.flatMap_append]

theorem Node.scopesAll_joined (depth : Nat) (nodes : List Node) :
    scopesAll depth (joined nodes) = scopesAll depth nodes :=
  gather_joined (scopesAll_append depth) (fun _ _ => rfl) nodes

/-- Text in which the table takes nothing has no scopes. -/
theorem Yield.scopes_ofText {source : Source} {table : WordTable} {start stop depth : Nat}
    (nothing : ∀ first last, start ≤ first → first < stop → ¬ table.Takes source stop first last) :
    Node.scopesAll depth (ofText source (some table) start stop).nodes = [] := by
  rw [ofText, WordTable.sort_nothing nothing]
  exact Node.scopesAll_joined depth [.text start stop]

theorem Yield.scopes_ofParts {source : Source} {table : Option WordTable} {stop : Nat} {parts : List Part}
    (proper : ∀ part ∈ parts, part.start < part.stop)
    (silent : ∀ part ∈ parts, part.scope = none →
      Node.scopesAll 0 (ofText source table part.start part.stop).nodes = []) :
    ∀ last, Node.scopesAll 0 (ofParts source table stop last parts).nodes = Part.ranges parts := by
  induction parts with
  | nil => intro last; rfl
  | cons part rest ih =>
      intro last
      obtain ⟨here, others⟩ := List.forall_mem_cons.mp proper
      obtain ⟨quiet, silent⟩ := List.forall_mem_cons.mp silent
      have behind := ih others silent part.stop
      rw [ofParts, if_neg (Nat.not_le.mpr here)]
      simp only [append_def, Node.scopesAll_append, behind, Part.ranges_cons]
      refine congrArg (· ++ Part.ranges rest) ?_
      cases marked : part.scope with
      | some scope => rfl
      | none => exact congrArg ([] ++ ·) (quiet marked)

namespace Highlighter
variable {highlighter : Highlighter} {text : String} {result : Highlight} {index stop : Nat}
  {rule : PartsRule} {parts : List Part}
  (highlighted : highlighter.highlight text = .ok result) (inside : 0 < (Source.ofString text).size)
  (first : highlighter.firstMatch? (.ofString text) 0 highlighter.root = some (.parts index rule stop parts))
  (proper : ∀ part ∈ parts, part.start < part.stop)
  (silent : ∀ part ∈ parts, part.scope = none → ∀ first last, part.start ≤ first → first < part.stop →
    ¬ highlighter.words.Takes (.ofString text) part.stop first last)
include highlighted inside first proper silent

theorem scopes_of_parts : Part.ranges parts <+: result.scopes := by
  obtain ⟨_, nodes, descends, same⟩ := highlight_behind highlighted ⟨0, rfl⟩ rfl
  have stands : highlighter.border? (.ofString text) none 0 =
      some (.inner (.parts index rule stop parts)) := by
    rw [border?, rulesIn, first]
  obtain ⟨middle, held, behind, holds, _, rfl⟩ := (Descends.iff_of_border inside stands).mp descends
  obtain ⟨_, rfl⟩ : _ ∧
      (highlighter.foundYield (.ofString text) none 0 (.parts index rule stop parts)).nodes = held := holds
  have before : Node.scopesAll 0 (highlighter.textNodes (.ofString text) none 0 0) = [] :=
    Yield.scopes_ofText fun first last after before => absurd before (Nat.not_lt.mpr after)
  have marked : Node.scopesAll 0
      (highlighter.foundYield (.ofString text) none 0 (.parts index rule stop parts)).nodes =
        Part.ranges parts :=
    Yield.scopes_ofParts proper (fun part member noScope => Yield.scopes_ofText (silent part member noScope)) 0
  refine ⟨Node.scopesAll 0 behind, ?_⟩
  rw [Highlight.scopes, same]
  refine Eq.trans ?_ (Node.scopesAll_joined 0 _).symm
  rw [Node.scopesAll_append, Node.scopesAll_append, ← marked]
  exact congrArg (· ++ _ ++ Node.scopesAll 0 behind) before.symm

/-- Where the first match has parts, the first regions are those of its parts, if the table takes nothing
in the parts without a scope. -/
theorem regions_of_parts : Part.scopedTexts (.ofString text) parts <+:
    result.regions.map fun region => (region.scope, region.text) := by
  obtain ⟨_, _, source, _⟩ := highlight_ok highlighted
  rw [Highlight.regions_eq, List.map_map, source]
  exact (scopes_of_parts highlighted inside first proper silent).map _

end Highlighter

end Highlighting
