import Highlighting.Proofs.Scan.Coverage
import Highlighting.Proofs.Tree.Hiding

/-! # What a scan hides

A scan hides a place that its nodes hide, and a place behind the start of an open container that will.
What a turn adds lies at the place of the scan or behind it, as long as words have no scope that hides,
so that a turn changes nothing about the places that the scan has left. -/
set_option autoImplicit false
namespace Highlighting

/-- Text with the scope is hidden. -/
def Veils (hidden : List Scope) : Option Scope → Prop
  | none => False
  | some scope => scope ∈ hidden

instance (hidden : List Scope) : (scope : Option Scope) → Decidable (Veils hidden scope)
  | none => inferInstanceAs (Decidable False)
  | some scope => inferInstanceAs (Decidable (scope ∈ hidden))

namespace WordTable

/-- No word and no operator of the table gets one of the scopes. -/
structure Avoids (table : WordTable) (hidden : List Scope) : Prop where
  operator : Scope.operator ∉ hidden
  words : ∀ vocabulary ∈ table.vocabularies, vocabulary.1 ∉ hidden

variable {table : WordTable} {hidden : List Scope} {source : Source} {place : Nat}

theorem avoids_iff :
    table.Avoids hidden ↔
      Scope.operator ∉ hidden ∧ ∀ vocabulary ∈ table.vocabularies, vocabulary.1 ∉ hidden :=
  ⟨fun avoids => ⟨avoids.operator, avoids.words⟩, fun both => ⟨both.1, both.2⟩⟩

instance (table : WordTable) (hidden : List Scope) : Decidable (table.Avoids hidden) :=
  decidable_of_iff' _ avoids_iff

theorem Avoids.scope? (avoids : table.Avoids hidden) {word : String} {scope : Scope}
    (known : table.scope? word = some scope) : scope ∉ hidden := by
  obtain ⟨vocabulary, found, rfl⟩ := Option.map_eq_some_iff.mp known
  exact avoids.words vocabulary (List.mem_of_find?_eq_some found)

theorem Avoids.lookUp (avoids : table.Avoids hidden) {start stop : Nat} {scope : Scope}
    (known : (table.lookUp source start stop).1 = some scope) : scope ∉ hidden := by
  unfold WordTable.lookUp at known
  split at known
  · next other whole =>
      cases known
      exact avoids.scope? whole
  · split at known
    · exact avoids.scope? known
    · exact nomatch known

theorem mark_shows {sorting : Sorting} {scope : Scope} (listed : scope ∉ hidden) {start stop : Nat}
    (relevance : Nat) (shown : ¬ Node.AnyHides hidden place sorting.nodes) :
    ¬ Node.AnyHides hidden place (sorting.mark scope start stop relevance).nodes := by
  simp only [Sorting.mark, Node.leaf, Node.anyHides_push, Node.hides_marked, Node.not_hides_text,
    Node.anyHides_text, listed, shown, false_and, or_self, not_false_eq_true]

theorem sortFrom_shows (avoids : table.Avoids hidden) {stop : Nat} (room : Nat) :
    ∀ {first : Nat} {sorting : Sorting}, ¬ Node.AnyHides hidden place sorting.nodes →
      ¬ Node.AnyHides hidden place (table.sortFrom source stop room first sorting).nodes := by
  induction room with
  | zero => intro first sorting shown; exact shown
  | succ room ih =>
      intro first sorting shown
      unfold sortFrom
      split
      · exact shown
      · split
        · exact ih shown
        · split
          · next candidate found =>
              dsimp only
              split
              · next scope known => exact ih (mark_shows (avoids.lookUp known) _ shown)
              · exact ih shown
          · split
            · exact ih (mark_shows avoids.operator _ shown)
            · exact ih shown

end WordTable

namespace Yield
variable {hidden : List Scope} {place : Nat}

theorem ofText_shows {table : Option WordTable} (avoids : ∀ words ∈ table, words.Avoids hidden)
    (source : Source) (start stop : Nat) :
    ¬ Node.AnyHides hidden place (ofText source table start stop).nodes := by
  cases table with
  | none => exact Node.anyHides_text start stop
  | some words =>
      have fresh : ¬ Node.AnyHides hidden place ({ last := start } : Sorting).nodes :=
        Node.anyHides_nil
      simp only [ofText, WordTable.sort, Sorting.finish, Node.anyHides_reverse, Node.anyHides_push,
        Node.not_hides_text, or_false]
      exact WordTable.sortFrom_shows (avoids words rfl) (stop - start) fresh

end Yield

/-- The container has one of the scopes and holds the place, or its nodes hide it. -/
def OpenContainer.Hides (hidden : List Scope) (place : Nat) (container : OpenContainer) : Prop :=
  (Veils hidden container.rule.scope ∧ container.start ≤ place) ∨
    Node.AnyHides hidden place container.level.nodes

namespace Scan

def Hides (hidden : List Scope) (place : Nat) (scan : Scan) : Prop :=
  Node.AnyHides hidden place scan.ground.nodes ∨
    ∃ container ∈ scan.containers, container.Hides hidden place

variable {hidden : List Scope} {place : Nat} {scan : Scan}

theorem hides_note (events : List ScanEvent) :
    (scan.note events).Hides hidden place ↔ scan.Hides hidden place := Iff.rfl

theorem hides_opened {inner : OpenContainer} {outer : List OpenContainer}
    (opened : scan.containers = inner :: outer) :
    scan.Hides hidden place ↔
      inner.Hides hidden place ∨ ({ scan with containers := outer } : Scan).Hides hidden place := by
  simp only [Hides, opened, List.mem_cons, exists_eq_or_imp]
  exact or_left_comm

theorem hides_pass (yield : Yield) (stop : Nat) :
    (scan.pass yield stop).Hides hidden place ↔
      scan.Hides hidden place ∨ Node.AnyHides hidden place yield.nodes := by
  obtain ⟨pos, ground, containers, relevance, stats, events⟩ := scan
  have gained : ∀ level : Level,
      Node.AnyHides hidden place (Node.pushAll level.nodes yield.nodes) ↔
        Node.AnyHides hidden place level.nodes ∨ Node.AnyHides hidden place yield.nodes :=
    fun level => Node.anyHides_pushAll
  cases containers with
  | nil =>
      change Node.AnyHides hidden place (Node.pushAll ground.nodes yield.nodes) ∨ _ ↔ _
      rw [gained]
      exact or_right_comm
  | cons inner outer =>
      have opened := pass_containers ⟨pos, ground, inner :: outer, relevance, stats, events⟩ yield stop rfl
      have whole : (⟨pos, ground, inner :: outer, relevance, stats, events⟩ : Scan).containers =
          inner :: outer := rfl
      rw [hides_opened opened, hides_opened whole, OpenContainer.Hides, gained, OpenContainer.Hides,
        ← or_assoc, or_right_comm]
      rfl

theorem hides_goInto (index : Nat) (rule : ContainerRule) (stop : Nat) :
    (scan.goInto index rule stop).Hides hidden place ↔
      (Veils hidden rule.scope ∧ scan.pos ≤ place) ∨ scan.Hides hidden place := by
  rw [hides_opened rfl, OpenContainer.Hides, or_iff_left Node.anyHides_nil]
  rfl

theorem hides_wrapped {scope : Option Scope} {start stop : Nat} {nodes : List Node} :
    Node.AnyHides hidden place (Yield.wrapped scope start stop nodes) ↔
      (Veils hidden scope ∧ start ≤ place ∧ place < stop) ∨ Node.AnyHides hidden place nodes := by
  cases scope with
  | none => exact (or_iff_right (fun absurdity => absurdity.1)).symm
  | some scope =>
      rw [Yield.wrapped, Node.anyHides_cons, Node.hides_marked, or_iff_left Node.anyHides_nil]
      rfl

/-- A place behind the scan stays hidden, or open to view, when a container closes. -/
theorem hides_goOut {inner : OpenContainer} {outer : List OpenContainer} (before : place < scan.pos) :
    (scan.goOut inner outer).Hides hidden place ↔
      inner.Hides hidden place ∨ ({ scan with containers := outer } : Scan).Hides hidden place := by
  rw [goOut, hides_pass, hides_wrapped, Node.anyHides_reverse, OpenContainer.Hides,
    and_iff_left before, or_comm]

end Scan

end Highlighting
