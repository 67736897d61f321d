import Highlighting.Proofs.Scan.Turns

/-! # Open containers

A container that is open is a rule of the language and is listed where it opened: by the container
around it, or by the language itself. -/
set_option autoImplicit false
namespace Highlighting

namespace Found

def rule : Found → Rule
  | single _ rule _ => .single rule
  | parts _ rule _ _ => .parts rule
  | container _ rule _ => .container rule

end Found

theorem Rule.match?_found {rule : Rule} {source : Source} {place index : Nat} {found : Found}
    (matched : rule.match? source place index = some found) :
    found.index = index ∧ found.rule = rule := by
  cases rule with
  | single rule =>
      obtain ⟨stop, _, rfl⟩ := Option.map_eq_some_iff.mp matched
      exact ⟨rfl, rfl⟩
  | parts rule =>
      obtain ⟨m, _, _, rfl⟩ := match?_parts matched
      exact ⟨rfl, rfl⟩
  | container rule =>
      obtain ⟨stop, _, rfl⟩ := Option.map_eq_some_iff.mp matched
      exact ⟨rfl, rfl⟩

namespace Highlighter

theorem firstMatch?_listed {highlighter : Highlighter} {source : Source} {place : Nat} {found : Found}
    {indices : List Nat} (first : highlighter.firstMatch? source place indices = some found) :
    found.index ∈ indices ∧ highlighter.rules[found.index]? = some found.rule ∧
      found.rule.match? source place found.index = some found := by
  induction indices with
  | nil => exact nomatch first
  | cons index rest ih =>
      unfold firstMatch? at first
      split at first
      · next other tried =>
          cases first
          obtain ⟨rule, listed, matched⟩ := Option.bind_eq_some_iff.mp tried
          obtain ⟨rfl, rfl⟩ := Rule.match?_found matched
          exact ⟨List.mem_cons_self, listed, matched⟩
      · obtain ⟨member, listed, matched⟩ := ih first
        exact ⟨List.mem_cons_of_mem _ member, listed, matched⟩

/-- The rules that are tried inside the containers. -/
def listedIn (highlighter : Highlighter) : List OpenContainer → List Nat
  | [] => highlighter.root
  | inner :: _ => inner.rule.rules

theorem rulesAt_listedIn (highlighter : Highlighter) (scan : Scan) :
    highlighter.rulesAt scan = highlighter.listedIn scan.containers := by
  obtain ⟨pos, ground, containers, relevance, stats, events⟩ := scan
  cases containers <;> rfl

/-- Each container is a rule of the language that is listed in the containers around it. -/
def Nested (highlighter : Highlighter) : List OpenContainer → Prop
  | [] => True
  | inner :: outer =>
      (inner.index ∈ highlighter.listedIn outer ∧
        highlighter.rules[inner.index]? = some (.container inner.rule)) ∧ highlighter.Nested outer

variable {highlighter : Highlighter} {source : Source} {scan : Scan}

theorem Nested.mem_rules {containers : List OpenContainer} (nested : highlighter.Nested containers) :
    ∀ container ∈ containers,
      highlighter.rules[container.index]? = some (.container container.rule) := by
  induction containers with
  | nil => exact fun _ absurdity => nomatch absurdity
  | cons inner outer ih =>
      intro container opened
      rcases List.mem_cons.mp opened with rfl | around
      · exact nested.1.2
      · exact ih nested.2 container around

theorem Nested.outermost {containers : List OpenContainer} (nested : highlighter.Nested containers)
    (some : containers ≠ []) : ∃ container ∈ containers, container.index ∈ highlighter.root := by
  induction containers with
  | nil => exact absurd rfl some
  | cons inner outer ih =>
      cases outer with
      | nil => exact ⟨inner, List.mem_cons_self, nested.1.1⟩
      | cons next rest =>
          obtain ⟨container, opened, listed⟩ := ih nested.2 (List.cons_ne_nil next rest)
          exact ⟨container, List.mem_cons_of_mem _ opened, listed⟩

theorem listedIn_pass (highlighter : Highlighter) (scan : Scan) (yield : Yield) (place : Nat) :
    highlighter.listedIn (scan.pass yield place).containers =
      highlighter.listedIn scan.containers := by
  obtain ⟨pos, ground, containers, relevance, stats, events⟩ := scan
  cases containers <;> rfl

theorem Nested.pass (nested : highlighter.Nested scan.containers) (yield : Yield) (place : Nat) :
    highlighter.Nested (scan.pass yield place).containers := by
  obtain ⟨pos, ground, containers, relevance, stats, events⟩ := scan
  cases containers with
  | nil => exact nested
  | cons inner outer => exact nested

theorem take_nested {found : Found} (ready : scan.Ready source)
    (first : highlighter.firstMatch? source scan.pos (highlighter.rulesAt scan) = some found)
    (nested : highlighter.Nested scan.containers) :
    highlighter.Nested (highlighter.take source scan found).containers := by
  cases found with
  | single index rule stop =>
      rw [take_single highlighter source ready.pending_le]
      exact nested.pass _ stop
  | parts index rule stop parts =>
      rw [take_parts highlighter source ready.pending_le]
      exact nested.pass _ stop
  | container index rule stop =>
      obtain ⟨member, listed, _⟩ := firstMatch?_listed first
      rw [rulesAt_listedIn] at member
      rw [take_container highlighter source ready.pending_le]
      refine ⟨⟨?_, listed⟩, nested.pass _ scan.pos⟩
      rw [listedIn_pass]
      exact member

theorem close_nested {stop : Nat} (ordered : scan.level.pending ≤ stop)
    {inner : OpenContainer} {outer : List OpenContainer} (opened : scan.containers = inner :: outer)
    (nested : highlighter.Nested scan.containers) :
    highlighter.Nested (highlighter.flush source { scan with pos := stop }).close.containers := by
  rw [opened] at nested
  rw [closed_eq ordered opened]
  have around : ∀ other : Scan,
      highlighter.Nested ({ other with containers := outer } : Scan).containers :=
    fun _ => nested.2
  exact (around _).pass _ _

theorem step_nested {next : Scan} (visits : highlighter.Visits source scan)
    (nested : highlighter.Nested scan.containers) (turned : highlighter.step source scan = .ok next) :
    highlighter.Nested next.containers := by
  have ready := visits.reached.ready
  rcases step_cases turned with ⟨found, first, rfl⟩ | ⟨stop, closes, rfl⟩ | rfl
  · exact take_nested ready first nested
  · obtain ⟨inner, outer, opened, _⟩ := closerStop?_opened closes
    have forth := (closerStop?_bounds ready.pos_le closes).1
    exact close_nested (Nat.le_trans ready.pending_le forth) opened nested
  · exact nested

theorem Reaches.nested (reached : highlighter.Reaches source scan) :
    highlighter.Nested scan.containers := by
  have starts : highlighter.Nested ({} : Scan).containers := trivial
  exact reached.induction starts step_nested

end Highlighter

end Highlighting
