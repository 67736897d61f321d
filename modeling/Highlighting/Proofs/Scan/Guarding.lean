import Highlighting.Proofs.Pattern.Takes
import Highlighting.Proofs.Scan.Hiding
import Highlighting.Proofs.Scan.Opened

/-! # Guarded characters

A language guards a character when no rule outside of all containers starts with it, and a match of one
has it only if the whole match is hidden. What a turn hides lies at the place of the scan or behind it,
and stays hidden. -/
set_option autoImplicit false
namespace Highlighting

namespace Rule

/-- What a match starts with. -/
def opener : Rule → Program
  | single rule => rule.opener
  | parts rule => rule.pattern
  | container rule => rule.opener

/-- A match has the character only if everything that it takes is hidden. -/
def Bars (hidden : List Scope) (c : Char) : Rule → Prop
  | single rule => Veils hidden rule.scope ∨ (rule.fence = none ∧ rule.opener.Lacks c)
  | parts rule => rule.pattern.Lacks c
  | container rule => Veils hidden rule.scope

instance (hidden : List Scope) (c : Char) : (rule : Rule) → Decidable (rule.Bars hidden c)
  | single rule =>
      inferInstanceAs (Decidable (Veils hidden rule.scope ∨ (rule.fence = none ∧ rule.opener.Lacks c)))
  | parts rule => inferInstanceAs (Decidable (rule.pattern.Lacks c))
  | container rule => inferInstanceAs (Decidable (Veils hidden rule.scope))

/-- Nothing is illegal in a container, and its own words are in view. -/
def Plain (hidden : List Scope) : Rule → Prop
  | single _ | parts _ => True
  | container rule => rule.illegal = none ∧ ∀ table ∈ rule.words, table.Avoids hidden

instance (hidden : List Scope) : (rule : Rule) → Decidable (rule.Plain hidden)
  | single _ | parts _ => inferInstanceAs (Decidable True)
  | container rule =>
      inferInstanceAs (Decidable (rule.illegal = none ∧ ∀ table ∈ rule.words, table.Avoids hidden))

variable {source : Source} {place index : Nat} {found : Found} {c : Char}

theorem match?_eq_none {rule : Rule}
    (nothing : rule.opener.match? source.chars place source.size = none) :
    rule.match? source place index = none := by
  cases rule with
  | single rule =>
      have noMatch : rule.opener.match? source.chars place source.size = none := nothing
      have noText : rule.textStop? source place = none := by
        unfold SingleRule.textStop?
        split
        · rw [Fence.match?, noMatch]
        · rw [Program.stop?, noMatch]
          rfl
      rw [match?, SingleRule.stop?, noText]
      rfl
  | parts rule =>
      have noMatch : rule.pattern.match? source.chars place source.size = none := nothing
      rw [match?, noMatch]
  | container rule =>
      have noMatch : rule.opener.match? source.chars place source.size = none := nothing
      rw [match?, Program.stop?, noMatch]
      rfl

theorem match?_shuns {rule : Rule} (shuns : rule.opener.Shuns c) (here : source.chars[place]? = some c) :
    rule.match? source place index = none :=
  match?_eq_none (shuns.match?_eq_none here source.size)

/-- A rule matches where its opener does, and takes what the opener takes. -/
theorem match?_opener {rule : Rule} (inside : place ≤ source.size)
    (matched : rule.match? source place index = some found) :
    ∃ m, rule.opener.match? source.chars place source.size = some m ∧ m.stop ≤ found.stop := by
  cases rule with
  | single rule =>
      obtain ⟨stop, ends, rfl⟩ := Option.map_eq_some_iff.mp matched
      have text := (Option.filter_eq_some_iff.mp ends).1
      unfold SingleRule.textStop? at text
      split at text
      · next fence _ =>
          unfold Fence.match? at text
          split at text
          · next m opened =>
              have fits := (Program.match?_bounds inside opened).2
              have closed := Fence.stop?_bounds fence source (fence.marks source m)
                (Nat.le_of_eq (Nat.add_sub_cancel' fits)) text
              exact ⟨m, opened, Nat.le_of_lt closed.1⟩
          · exact nomatch text
      · obtain ⟨m, opened, rfl⟩ := Option.map_eq_some_iff.mp text
        exact ⟨m, opened, Nat.le_refl _⟩
  | parts rule =>
      obtain ⟨m, taken, _, rfl⟩ := match?_parts matched
      exact ⟨m, taken, Nat.le_refl _⟩
  | container rule =>
      obtain ⟨stop, ends, rfl⟩ := Option.map_eq_some_iff.mp matched
      have text := (Option.filter_eq_some_iff.mp ends).1
      obtain ⟨m, opened, rfl⟩ := Option.map_eq_some_iff.mp text
      exact ⟨m, opened, Nat.le_refl _⟩

end Rule

namespace Highlighter

/-- The root rules guard the character, and in containers all text is legal. -/
structure Guards (highlighter : Highlighter) (hidden : List Scope) (c : Char) : Prop where
  words : highlighter.words.Avoids hidden
  containers : ∀ rule ∈ highlighter.rules, rule.Plain hidden
  shuns : ∀ index ∈ highlighter.root, ∀ rule ∈ highlighter.rules[index]?, rule.opener.Shuns c
  bars : ∀ index ∈ highlighter.root, ∀ rule ∈ highlighter.rules[index]?, rule.Bars hidden c

variable {highlighter : Highlighter} {hidden : List Scope} {c : Char}

theorem guards_iff :
    highlighter.Guards hidden c ↔
      highlighter.words.Avoids hidden ∧ (∀ rule ∈ highlighter.rules, rule.Plain hidden) ∧
        (∀ index ∈ highlighter.root, ∀ rule ∈ highlighter.rules[index]?, rule.opener.Shuns c) ∧
          ∀ index ∈ highlighter.root, ∀ rule ∈ highlighter.rules[index]?, rule.Bars hidden c :=
  ⟨fun guards => ⟨guards.words, guards.containers, guards.shuns, guards.bars⟩,
    fun all => ⟨all.1, all.2.1, all.2.2.1, all.2.2.2⟩⟩

instance : Decidable (highlighter.Guards hidden c) :=
  decidable_of_iff' _ guards_iff

variable {source : Source} {scan next : Scan} {place : Nat}

theorem Guards.container (guards : highlighter.Guards hidden c)
    (nested : highlighter.Nested scan.containers) {container : OpenContainer}
    (opened : container ∈ scan.containers) :
    container.rule.illegal = none ∧ ∀ table ∈ container.rule.words, table.Avoids hidden :=
  guards.containers _ (Array.mem_of_getElem? (nested.mem_rules container opened))

theorem Guards.wordsAt (guards : highlighter.Guards hidden c)
    (nested : highlighter.Nested scan.containers) :
    ∀ table ∈ highlighter.wordsAt scan, table.Avoids hidden := by
  unfold Highlighter.wordsAt
  split
  · intro table isWords
    cases isWords
    exact guards.words
  · next inner outer opened =>
      have member : inner ∈ scan.containers := by
        rw [opened]
        exact List.mem_cons_self
      exact (guards.container nested member).2

/-- The rules outside of all containers have the character in what they hide only. -/
def Bars (highlighter : Highlighter) (hidden : List Scope) (c : Char) : Prop :=
  ∀ index ∈ highlighter.root, ∀ rule ∈ highlighter.rules[index]?, rule.Bars hidden c

instance : Decidable (highlighter.Bars hidden c) :=
  inferInstanceAs (Decidable (∀ index ∈ highlighter.root, ∀ rule ∈ highlighter.rules[index]?, _))

/-- A container that is open hides everything behind its start, or one around it does. -/
theorem opened_hides (bars : highlighter.Bars hidden c) (covered : scan.Covered)
    (nested : highlighter.Nested scan.containers) (opened : scan.containers ≠ [])
    (behind : scan.pos ≤ place) : scan.Hides hidden place := by
  obtain ⟨container, member, listed⟩ := nested.outermost opened
  have veiled : Veils hidden container.rule.scope :=
    bars _ listed _ (nested.mem_rules container member)
  have started := Nat.le_of_lt (covered.proper container member)
  exact .inr ⟨container, member, .inl ⟨veiled, Nat.le_trans started behind⟩⟩

/-! ## What a turn hides -/

/-- What a match hides where it is found, or from there on if it opens a container. -/
def MatchHides (highlighter : Highlighter) (source : Source) (hidden : List Scope) (place : Nat)
    (scan : Scan) : Found → Prop
  | .container _ rule _ => Veils hidden rule.scope ∧ scan.pos ≤ place
  | found => Node.AnyHides hidden place (highlighter.matchYield source scan found).nodes

theorem take_hides (ordered : scan.level.pending ≤ scan.pos) (found : Found) :
    (highlighter.take source scan found).Hides hidden place ↔
      scan.Hides hidden place ∨
        Node.AnyHides hidden place (highlighter.pendingYield source scan).nodes ∨
          highlighter.MatchHides source hidden place scan found := by
  cases found with
  | single index rule stop =>
      rw [take_single highlighter source ordered, Scan.hides_note, Scan.hides_pass, Yield.append_def,
        Node.anyHides_append]
      rfl
  | parts index rule stop parts =>
      rw [take_parts highlighter source ordered, Scan.hides_note, Scan.hides_pass, Yield.append_def,
        Node.anyHides_append]
      rfl
  | container index rule stop =>
      have nothing : ¬ Node.AnyHides hidden place
          (highlighter.matchYield source scan (.container index rule stop)).nodes :=
        Node.anyHides_nil
      rw [take_container highlighter source ordered, Scan.hides_note, Scan.hides_goInto,
        Scan.hides_pass, Scan.pass_pos, Yield.append_def, Node.anyHides_append, or_iff_left nothing,
        or_comm, or_assoc]
      rfl

theorem close_hides {stop : Nat} (ordered : scan.level.pending ≤ stop) (before : place < stop)
    {inner : OpenContainer} {outer : List OpenContainer} (opened : scan.containers = inner :: outer) :
    (highlighter.flush source { scan with pos := stop }).close.Hides hidden place ↔
      scan.Hides hidden place ∨
        Node.AnyHides hidden place
          (Yield.ofText source (highlighter.wordsAt scan) scan.level.pending stop).nodes := by
  have words : highlighter.wordsAt scan = inner.rule.words := by
    rw [Highlighter.wordsAt, opened]
  have behind : place <
      (scan.pass (.ofText source inner.rule.words scan.level.pending stop) stop).pos := by
    rw [Scan.pass_pos]
    exact before
  rw [closed_eq ordered opened, Scan.hides_note, Scan.hides_goOut behind, words,
    ← Scan.hides_pass (.ofText source inner.rule.words scan.level.pending stop) stop,
    Scan.hides_opened (Scan.pass_containers _ _ _ opened)]
  rfl

theorem MatchHides.behind {found : Found} (inside : scan.pos ≤ source.size)
    (first : highlighter.firstMatch? source scan.pos (highlighter.rulesAt scan) = some found)
    (inOrder : Part.InOrder scan.pos found.stop found.pieces)
    (hides : highlighter.MatchHides source hidden place scan found) : scan.pos ≤ place := by
  have bounds := firstMatch?_bounds inside first
  cases found with
  | single index rule stop => exact ((Yield.ofSingle_covers source rule bounds.1).hidden_within hides).1
  | parts index rule stop parts =>
      have covers : Node.Covers scan.pos stop
          (highlighter.matchYield source scan (.parts index rule stop parts)).nodes :=
        Yield.ofParts_covers source (highlighter.wordsAt scan) (Nat.le_of_lt bounds.1) inOrder
      exact (covers.hidden_within hides).1
  | container index rule stop => exact hides.2

/-- A match of a root rule that has the character hides it. -/
theorem match_hides (bars : highlighter.Bars hidden c) (bare : scan.containers = [])
    {found : Found}
    (first : highlighter.firstMatch? source scan.pos (highlighter.rulesAt scan) = some found)
    (within : scan.pos ≤ place ∧ place < found.stop) (here : source.chars[place]? = some c) :
    highlighter.MatchHides source hidden place scan found := by
  obtain ⟨member, listed, matched⟩ := firstMatch?_listed first
  rw [rulesAt_listedIn, bare] at member
  have barred := bars _ member _ listed
  cases found with
  | single index rule stop =>
      rcases barred with veiled | ⟨unfenced, lacks⟩
      · exact Scan.hides_wrapped.mpr (.inl ⟨veiled, within⟩)
      · obtain ⟨_, ends, same⟩ := Option.map_eq_some_iff.mp matched
        cases same
        have text := (Option.filter_eq_some_iff.mp ends).1
        rw [SingleRule.textStop?, unfenced] at text
        exact absurd here (lacks.stop? text place within.1 within.2)
  | parts index rule stop parts =>
      have lacks : rule.pattern.Lacks c := barred
      obtain ⟨m, taken, _, same⟩ := Rule.match?_parts matched
      cases same
      exact absurd here (lacks.match? taken place within.1 within.2)
  | container index rule stop => exact ⟨barred, within.1⟩

/-- A place that is hidden stays hidden, once the scan is behind it. -/
theorem step_hides (ready : scan.Ready source) (turned : highlighter.step source scan = .ok next)
    (before : place < next.pos) (hides : scan.Hides hidden place) : next.Hides hidden place := by
  rcases step_cases turned with ⟨found, first, rfl⟩ | ⟨stop, closes, rfl⟩ | rfl
  · exact (take_hides ready.pending_le found).mpr (.inl hides)
  · obtain ⟨inner, outer, opened, _⟩ := closerStop?_opened closes
    have ordered := Nat.le_trans ready.pending_le (closerStop?_bounds ready.pos_le closes).1
    have behind := before
    rw [closed_eq ordered opened, Scan.note_pos, Scan.goOut_pos, Scan.pass_pos] at behind
    exact (close_hides ordered behind opened).mpr (.inl hides)
  · exact hides

/-- A turn hides no place that the scan has left. -/
theorem hides_of_step (guards : highlighter.Guards hidden c)
    (inOrder : highlighter.TakesInOrder source) (visits : highlighter.Visits source scan)
    (turned : highlighter.step source scan = .ok next) (before : place < scan.pos)
    (hides : next.Hides hidden place) : scan.Hides hidden place := by
  have ready := visits.reached.ready
  have shown : ∀ start stop, ¬ Node.AnyHides hidden place
      (Yield.ofText source (highlighter.wordsAt scan) start stop).nodes :=
    Yield.ofText_shows (guards.wordsAt visits.reached.nested) source
  rcases step_cases turned with ⟨found, first, rfl⟩ | ⟨stop, closes, rfl⟩ | rfl
  · rcases (take_hides ready.pending_le found).mp hides with known | pending | taken
    · exact known
    · exact absurd pending (shown _ _)
    · have behind := taken.behind ready.pos_le first (inOrder scan found visits first)
      omega
  · obtain ⟨inner, outer, opened, _⟩ := closerStop?_opened closes
    have forth := (closerStop?_bounds ready.pos_le closes).1
    have ordered := Nat.le_trans ready.pending_le forth
    exact ((close_hides ordered (Nat.lt_of_lt_of_le before forth) opened).mp hides).resolve_right
      (shown _ _)
  · exact hides

end Highlighter

end Highlighting
