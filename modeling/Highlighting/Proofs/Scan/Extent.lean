import Highlighting.Pattern.Bounds
import Highlighting.Scan.Run

/-! # How far matches reach

A rule that matches takes at least one character and none beyond the end of the source. A closer takes
none beyond the end either, but it may be empty. -/
set_option autoImplicit false
namespace Highlighting

namespace Source

theorem holdsAt_le (source : Source) {chars : List Char} :
    ∀ {place : Nat}, place ≤ source.size → source.holdsAt chars place = true →
      place + chars.length ≤ source.size := by
  induction chars with
  | nil => intro place inside _; exact inside
  | cons c rest ih =>
      intro place inside held
      simp only [holdsAt, Bool.and_eq_true, beq_iff_eq] at held
      obtain ⟨found, _⟩ := Array.getElem?_eq_some_iff.mp held.1
      have behind : place + 1 + rest.length ≤ source.size := ih found held.2
      simp only [List.length_cons]
      omega

end Source

namespace Fence
variable (fence : Fence) (source : Source) (marks : List Char)

/-- Whether a closer stands at the place, with no further mark behind it. -/
def closesAt (place : Nat) : Bool :=
  source.holdsAt (fence.close :: marks) place &&
    source.chars[place + 1 + marks.length]? != some fence.mark

theorem stop?_zero (place : Nat) :
    fence.stop? source marks 0 place =
      if fence.closesAt source marks place then some (place + 1 + marks.length) else none := by
  rw [stop?.eq_def]
  rfl

theorem stop?_succ (room place : Nat) :
    fence.stop? source marks (room + 1) place =
      if fence.closesAt source marks place then some (place + 1 + marks.length)
      else fence.stop? source marks room (place + 1) := by
  rw [stop?.eq_def]
  rfl

theorem closesAt_le {place : Nat} (inside : place ≤ source.size)
    (closes : fence.closesAt source marks place = true) :
    place + 1 + marks.length ≤ source.size := by
  have held := source.holdsAt_le inside (Bool.and_eq_true_iff.mp closes).1
  simp only [List.length_cons] at held
  omega

theorem stop?_bounds : ∀ {room place stop : Nat}, place + room ≤ source.size →
    fence.stop? source marks room place = some stop → place < stop ∧ stop ≤ source.size := by
  intro room
  induction room with
  | zero =>
      intro place stop inside found
      rw [stop?_zero] at found
      obtain ⟨closes, here⟩ := Option.ite_none_right_eq_some.mp found
      have fits := closesAt_le fence source marks inside closes
      cases here
      exact ⟨by omega, fits⟩
  | succ room ih =>
      intro place stop inside found
      rw [stop?_succ] at found
      by_cases closes : fence.closesAt source marks place = true
      · rw [if_pos closes] at found
        have fits := closesAt_le fence source marks (by omega) closes
        cases found
        exact ⟨by omega, fits⟩
      · rw [if_neg closes] at found
        have later : place + 1 < stop ∧ stop ≤ source.size := ih (by omega) found
        exact ⟨by omega, later.2⟩

end Fence

theorem Program.match?_bounds {program : Program} {source : Source} {pos : Nat} {m : Match}
    (inside : pos ≤ source.size) (found : program.match? source.chars pos source.size = some m) :
    pos ≤ m.stop ∧ m.stop ≤ source.size := by
  have within := Program.match?_within found
  have most := within.stop_le
  rw [Nat.max_eq_right inside] at most
  exact ⟨within.start_le, most⟩

theorem Program.stop?_bounds {program : Program} {source : Source} {pos stop : Nat}
    (inside : pos ≤ source.size) (found : program.stop? source.chars pos source.size = some stop) :
    pos ≤ stop ∧ stop ≤ source.size := by
  have within := Program.stop?_within found
  rw [Nat.max_eq_right inside] at within
  exact within

theorem SingleRule.textStop?_bounds {rule : SingleRule} {source : Source} {pos stop : Nat}
    (inside : pos ≤ source.size) (found : rule.textStop? source pos = some stop) :
    pos ≤ stop ∧ stop ≤ source.size := by
  unfold textStop? at found
  split at found
  · unfold Fence.match? at found
    split at found
    · next m opened =>
        obtain ⟨least, most⟩ := Program.match?_bounds inside opened
        have closed := Fence.stop?_bounds _ _ _ (by omega) found
        exact ⟨by omega, closed.2⟩
    · exact nomatch found
  · exact Program.stop?_bounds inside found

theorem SingleRule.stop?_bounds {rule : SingleRule} {source : Source} {pos stop : Nat}
    (inside : pos ≤ source.size) (found : rule.stop? source pos = some stop) :
    pos < stop ∧ stop ≤ source.size := by
  obtain ⟨text, accepted⟩ := Option.filter_eq_some_iff.mp found
  simp only [accepts, Bool.and_eq_true, decide_eq_true_eq] at accepted
  exact ⟨accepted.1.1, (textStop?_bounds inside text).2⟩

/-- A rule of parts finds the match of its pattern, if that takes any text. -/
theorem Rule.match?_parts {rule : PartsRule} {source : Source} {pos index : Nat} {found : Found}
    (matched : (Rule.parts rule).match? source pos index = some found) :
    ∃ m, rule.pattern.match? source.chars pos source.size = some m ∧ pos < m.stop ∧
      found = .parts index rule m.stop (rule.locate m) := by
  unfold Rule.match? at matched
  cases taken : rule.pattern.match? source.chars pos source.size with
  | none =>
      simp only [taken] at matched
      cases matched
  | some m =>
      simp only [taken] at matched
      obtain ⟨proper, same⟩ := Option.ite_none_right_eq_some.mp matched
      exact ⟨m, rfl, proper, (Option.some.inj same).symm⟩

theorem Rule.match?_bounds {rule : Rule} {source : Source} {pos index : Nat} {found : Found}
    (inside : pos ≤ source.size) (matched : rule.match? source pos index = some found) :
    pos < found.stop ∧ found.stop ≤ source.size := by
  cases rule with
  | single rule =>
      obtain ⟨stop, ends, rfl⟩ := Option.map_eq_some_iff.mp matched
      exact SingleRule.stop?_bounds inside ends
  | parts rule =>
      obtain ⟨m, taken, proper, rfl⟩ := match?_parts matched
      exact ⟨proper, (Program.match?_bounds inside taken).2⟩
  | container rule =>
      obtain ⟨stop, ends, rfl⟩ := Option.map_eq_some_iff.mp matched
      obtain ⟨opens, proper⟩ := Option.filter_eq_some_iff.mp ends
      exact ⟨of_decide_eq_true proper, (Program.stop?_bounds inside opens).2⟩

namespace Highlighter
variable {highlighter : Highlighter} {source : Source}

theorem firstMatch?_bounds {pos : Nat} {found : Found} (inside : pos ≤ source.size) :
    ∀ {indices : List Nat}, highlighter.firstMatch? source pos indices = some found →
      pos < found.stop ∧ found.stop ≤ source.size := by
  intro indices
  induction indices with
  | nil => intro matched; exact nomatch matched
  | cons index rest ih =>
      intro matched
      unfold firstMatch? at matched
      split at matched
      · next other tried =>
          cases matched
          obtain ⟨rule, _, here⟩ := Option.bind_eq_some_iff.mp tried
          exact Rule.match?_bounds inside here
      · exact ih matched

theorem closerStop?_bounds {scan : Scan} {stop : Nat} (inside : scan.pos ≤ source.size)
    (closes : closerStop? source scan = some stop) : scan.pos ≤ stop ∧ stop ≤ source.size := by
  unfold closerStop? at closes
  split at closes
  · exact nomatch closes
  · exact Program.stop?_bounds inside closes

end Highlighter

end Highlighting
