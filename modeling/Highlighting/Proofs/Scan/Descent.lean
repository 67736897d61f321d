import Highlighting.Proofs.Scan.Extent
import Highlighting.Proofs.Scan.Yield

/-! # Highlighting by recursive descent

The plain reading of a language: text is read up to the next border, which is a match of a rule,
the closer of the container around the text, or illegal text. The text before it is sorted in one piece
with the words of the container, its opener and its closer included. A container that opens is read by a
call of its own, and where the text ends, so does every call. -/
set_option autoImplicit false
namespace Highlighting

/-- The siblings as they stand in a tree: empty text is left out and text joined to the text before. -/
def Node.joined (nodes : List Node) : List Node :=
  (Node.pushAll [] nodes).reverse

/-- What ends a piece of plain text. -/
inductive Border where
  | inner (found : Found)
  | closer (stop : Nat)
  | illegal (stop : Nat)

/-- A stretch of the source from `place` on, and what it yields. It leaves no more than was left. -/
structure Passage (source : Source) (place : Nat) where
  stop : Nat
  inside : stop ≤ source.size
  left_le : source.size - stop ≤ source.size - place
  yield : Yield

namespace Passage
variable {source : Source} {place later : Nat}

/-- The passage with what comes before it. -/
def behind (passage : Passage source later) (yield : Yield)
    (left_le : source.size - later ≤ source.size - place) : Passage source place where
  stop := passage.stop
  inside := passage.inside
  left_le := Nat.le_trans passage.left_le left_le
  yield := yield ++ passage.yield

/-- What the passage yields inside a container that opened at `start`. -/
def enclosed (passage : Passage source place) (scope : Option Scope) (start : Nat) : Yield :=
  { passage.yield with
    nodes := Yield.wrapped scope start passage.stop (Node.joined passage.yield.nodes) }

end Passage

/-- The container that a match opens. -/
def Found.container? : Found → Option ContainerRule
  | .container _ rule _ => some rule
  | .single _ _ _ | .parts _ _ _ _ => none

namespace Highlighter
variable (highlighter : Highlighter) (source : Source)

/-! ## What a container has, or the language outside of all containers -/

def rulesIn : Option ContainerRule → List Nat
  | none => highlighter.root
  | some container => container.rules

def wordsIn : Option ContainerRule → Option WordTable
  | none => some highlighter.words
  | some container => container.words

def illegalIn : Option ContainerRule → Option Program
  | none => highlighter.illegal
  | some container => container.illegal

/-- What stands at a place: the first rule that matches, or else a closer, or else illegal text. -/
def border? (around : Option ContainerRule) (place : Nat) : Option Border :=
  match highlighter.firstMatch? source place (highlighter.rulesIn around) with
  | some found => some (.inner found)
  | none =>
      match around.bind (·.closer.stop? source.chars place source.size) with
      | some stop => some (.closer stop)
      | none =>
          if highlighter.ignoreIllegal then none
          else (((highlighter.illegalIn around).bind
            (·.stop? source.chars place source.size)).filter (place < ·)).map .illegal

/-- The first border from `place` on, where `room` characters are left. -/
def seek (around : Option ContainerRule) : Nat → Nat → Option (Nat × Border)
  | 0, _ => none
  | room + 1, place =>
      match highlighter.border? source around place with
      | some border => some (place, border)
      | none => seek around room (place + 1)

variable {highlighter source} {around : Option ContainerRule} {place next : Nat}

theorem seek_bounds {border : Border} :
    ∀ {room place : Nat}, highlighter.seek source around room place = some (next, border) →
      place ≤ next ∧ next < place + room ∧ highlighter.border? source around next = some border := by
  intro room
  induction room with
  | zero => intro place sought; exact nomatch sought
  | succ room ih =>
      intro place sought
      unfold seek at sought
      split at sought
      · next here =>
          cases sought
          exact ⟨Nat.le_refl next, by omega, here⟩
      · obtain ⟨forth, before, stands⟩ := ih sought
        exact ⟨by omega, by omega, stands⟩

theorem seek_plain {border : Border} :
    ∀ {room place : Nat}, highlighter.seek source around room place = some (next, border) →
      ∀ passed, place + passed < next → highlighter.border? source around (place + passed) = none := by
  intro room
  induction room with
  | zero => intro place sought; exact nomatch sought
  | succ room ih =>
      intro place sought passed before
      unfold seek at sought
      split at sought
      · cases sought
        omega
      · next here =>
          cases passed with
          | zero => exact here
          | succ passed =>
              have later := ih sought passed (by omega)
              rwa [Nat.add_right_comm, Nat.add_assoc] at later

theorem seek_none :
    ∀ {room place : Nat}, highlighter.seek source around room place = none →
      ∀ passed < room, highlighter.border? source around (place + passed) = none := by
  intro room
  induction room with
  | zero => intro place _ passed fewer; omega
  | succ room ih =>
      intro place sought passed fewer
      unfold seek at sought
      split at sought
      · exact nomatch sought
      · next here =>
          cases passed with
          | zero => exact here
          | succ passed =>
              have later := ih sought passed (by omega)
              rwa [Nat.add_right_comm, Nat.add_assoc] at later

theorem border?_inner {found : Found}
    (stands : highlighter.border? source around place = some (.inner found)) :
    highlighter.firstMatch? source place (highlighter.rulesIn around) = some found := by
  unfold border? at stands
  split at stands
  · next other first =>
      cases stands
      exact first
  · split at stands
    · cases stands
    · split at stands
      · cases stands
      · obtain ⟨_, _, absurdity⟩ := Option.map_eq_some_iff.mp stands
        cases absurdity

theorem border?_closer {stop : Nat}
    (stands : highlighter.border? source around place = some (.closer stop)) :
    highlighter.firstMatch? source place (highlighter.rulesIn around) = none ∧
      around.bind (·.closer.stop? source.chars place source.size) = some stop := by
  unfold border? at stands
  split at stands
  · cases stands
  · next noMatch =>
      split at stands
      · next other closes =>
          cases stands
          exact ⟨noMatch, closes⟩
      · split at stands
        · cases stands
        · obtain ⟨_, _, absurdity⟩ := Option.map_eq_some_iff.mp stands
          cases absurdity

theorem seek_inner {found : Found}
    (sought : highlighter.seek source around (source.size - place) place = some (next, .inner found)) :
    place ≤ next ∧ next < found.stop ∧ found.stop ≤ source.size := by
  obtain ⟨forth, before, stands⟩ := seek_bounds sought
  have bounds := firstMatch?_bounds (by omega) (border?_inner stands)
  exact ⟨forth, bounds⟩

theorem seek_closer {stop : Nat}
    (sought : highlighter.seek source around (source.size - place) place = some (next, .closer stop)) :
    place ≤ next ∧ next ≤ stop ∧ stop ≤ source.size := by
  obtain ⟨forth, before, stands⟩ := seek_bounds sought
  obtain ⟨container, _, closes⟩ := Option.bind_eq_some_iff.mp (border?_closer stands).2
  exact ⟨forth, Program.stop?_bounds (by omega) closes⟩

/-! ## Descent -/

/-- A piece of plain text from `first` on. The characters from `place` up to `next` belong to no
match. -/
def plainText (highlighter : Highlighter) (source : Source) (around : Option ContainerRule)
    (first place next stop : Nat) : Yield :=
  .ofText source (highlighter.wordsIn around) first stop ++ .ofPlain (next - place)

/-- What a match at a place yields, apart from what a container holds. -/
def foundYield (highlighter : Highlighter) (source : Source) (around : Option ContainerRule)
    (place : Nat) : Found → Yield
  | .single _ rule stop => .ofSingle source rule place stop
  | .parts _ rule stop parts =>
      .ofMatch rule.relevance ++ .ofParts source (highlighter.wordsIn around) stop place parts
  | .container _ rule _ => .ofMatch rule.relevance

/-- A piece of plain text and the match behind it. -/
def throughFound (highlighter : Highlighter) (source : Source) (around : Option ContainerRule)
    (first place next : Nat) (found : Found) : Yield :=
  highlighter.plainText source around first place next next ++
    highlighter.foundYield source around next found

/-- Reads from `place` to the end of the container around it, or of the source. The text that has
been read but not sorted starts at `first`. -/
def descend (highlighter : Highlighter) (source : Source) (around : Option ContainerRule)
    (first place : Nat) : Except IllegalText (Passage source place) :=
  match sought : highlighter.seek source around (source.size - place) place with
  | none =>
      .ok
        { stop := source.size
          inside := Nat.le_refl _
          left_le := by omega
          yield := highlighter.plainText source around first place source.size source.size }
  | some (next, .closer stop) =>
      .ok
        { stop
          inside := (seek_closer sought).2.2
          left_le := by have := seek_closer sought; omega
          yield := highlighter.plainText source around first place next stop }
  | some (next, .illegal stop) => .error (Refusal.illegalText ⟨next, stop, []⟩ source)
  | some (next, .inner found) =>
      let before := highlighter.throughFound source around first place next found
      match found.container? with
      | none => do
          let rest ← highlighter.descend source around found.stop found.stop
          return rest.behind before (by have := seek_inner sought; omega)
      | some container => do
          let inside ← highlighter.descend source (some container) next found.stop
          let rest ← highlighter.descend source around inside.stop inside.stop
          return rest.behind (before ++ inside.enclosed container.scope next)
            (by have := seek_inner sought; have := inside.left_le; omega)
termination_by source.size - place
decreasing_by
  all_goals have := seek_inner sought
  · omega
  · omega
  · have := inside.left_le
    omega

/-- The highlighting of a whole text. -/
def descent (highlighter : Highlighter) (text : String) : Except IllegalText Highlight := do
  let source := Source.ofString text
  let whole ← highlighter.descend source none 0 0
  return {
    language := highlighter.name
    source
    nodes := Node.joined whole.yield.nodes
    relevance := whole.yield.relevance % UInt32.size
    stats := whole.yield.stats }

end Highlighter

end Highlighting
