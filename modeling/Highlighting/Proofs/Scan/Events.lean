import Highlighting.Proofs.Scan.Turns

/-! # Scans without their events

What happens in a scan is noted down, and nothing that a scan does depends on these notes. So a run
comes to the same from scans that differ in their events only. -/
set_option autoImplicit false
namespace Highlighting

namespace Scan

/-- A scan without its events. -/
def bare (scan : Scan) : Scan :=
  scan.note []

theorem bare_note (scan : Scan) (events : List ScanEvent) : (scan.note events).bare = scan.bare := rfl

theorem bare_pass (scan : Scan) (yield : Yield) (place : Nat) :
    (scan.bare.pass yield place).bare = (scan.pass yield place).bare := by
  rw [bare, bare, note_pass]
  rfl

theorem bare_close (scan : Scan) : scan.bare.close.bare = scan.close.bare := by
  cases opened : scan.containers with
  | nil => simp only [close, opened, bare, note]
  | cons inner outer =>
      have openedBare : scan.bare.containers = inner :: outer := opened
      rw [close_eq scan opened, close_eq scan.bare openedBare, bare_note, bare_note]
      exact bare_pass { scan with containers := outer } _ _

theorem bare_closeAll {count : Nat} :
    ∀ {scan : Scan}, scan.containers.length = count → scan.bare.closeAll.bare = scan.closeAll.bare := by
  induction count with
  | zero =>
      intro scan depth
      have closed := List.eq_nil_of_length_eq_zero depth
      have closedBare : scan.bare.containers = [] := closed
      rw [closeAll_of_closed closed, closeAll_of_closed closedBare]
      rfl
  | succ count ih =>
      intro scan depth
      obtain ⟨inner, outer, opened⟩ := List.exists_cons_of_length_eq_add_one depth
      have openedBare : scan.bare.containers = inner :: outer := opened
      have fewer : scan.close.containers.length = count := by
        rw [close_eq scan opened, note_containers, goOut_depth]
        rw [opened, List.length_cons] at depth
        exact Nat.succ.inj depth
      have fewerBare : scan.bare.close.containers.length = count :=
        (congrArg (·.containers.length) (bare_close scan)).trans fewer
      rw [closeAll_of_opened opened, closeAll_of_opened openedBare, ← ih fewerBare, bare_close, ih fewer]

end Scan

/-- What a run has come to, apart from its events. -/
def sight (source : Source) : Except Refusal Scan → Except IllegalText Scan
  | .ok scan => .ok scan.bare
  | .error refusal => .error (refusal.illegalText source)

theorem sight_cases {source : Source} {left right : Except Refusal Scan}
    (same : sight source left = sight source right) :
    (∃ first second, left = .ok first ∧ right = .ok second ∧ first.bare = second.bare) ∨
    ∃ first second, left = .error first ∧ right = .error second ∧
      first.illegalText source = second.illegalText source := by
  cases left with
  | ok first =>
      cases right with
      | ok second => exact .inl ⟨first, second, rfl, rfl, Except.ok.inj same⟩
      | error second => exact nomatch same
  | error first =>
      cases right with
      | ok second => exact nomatch same
      | error second => exact .inr ⟨first, second, rfl, rfl, Except.error.inj same⟩

namespace Highlighter
variable {highlighter : Highlighter} {source : Source} {scan : Scan}

theorem bare_flush (ordered : scan.level.pending ≤ scan.pos) :
    (highlighter.flush source scan.bare).bare = (highlighter.flush source scan).bare := by
  have orderedBare : scan.bare.level.pending ≤ scan.bare.pos := ordered
  rw [flush_eq highlighter source ordered, flush_eq highlighter source orderedBare]
  exact Scan.bare_pass scan _ scan.pos

theorem bare_take (ordered : scan.level.pending ≤ scan.pos) (found : Found) :
    (highlighter.take source scan.bare found).bare = (highlighter.take source scan found).bare := by
  have orderedBare : scan.bare.level.pending ≤ scan.bare.pos := ordered
  cases found with
  | single index rule stop =>
      rw [take_single highlighter source ordered, take_single highlighter source orderedBare]
      exact Scan.bare_pass scan _ stop
  | parts index rule stop parts =>
      rw [take_parts highlighter source ordered, take_parts highlighter source orderedBare]
      exact Scan.bare_pass scan _ stop
  | container index rule stop =>
      rw [take_container highlighter source ordered, take_container highlighter source orderedBare]
      simp only [Scan.bare_note]
      have passed := Scan.bare_pass scan (highlighter.pendingYield source scan ++
        highlighter.matchYield source scan (.container index rule stop)) scan.pos
      exact congrArg (·.goInto index rule stop) passed

theorem bare_finish (ordered : scan.level.pending ≤ scan.pos) :
    (highlighter.finish source scan.bare).bare = (highlighter.finish source scan).bare := by
  have flushed : (highlighter.flush source scan.bare).bare = (highlighter.flush source scan).bare :=
    bare_flush ordered
  rw [finish, finish, ← Scan.bare_closeAll rfl, flushed, Scan.bare_closeAll rfl]

theorem step_bare (ready : scan.Ready source) :
    sight source (highlighter.step source scan.bare) = sight source (highlighter.step source scan) := by
  cases first : highlighter.firstMatch? source scan.pos (highlighter.rulesAt scan) with
  | some found =>
      have firstBare :
          highlighter.firstMatch? source scan.bare.pos (highlighter.rulesAt scan.bare) = some found :=
        first
      rw [step_of_match first, step_of_match firstBare]
      exact congrArg Except.ok (bare_take ready.pending_le found)
  | none =>
      have firstBare :
          highlighter.firstMatch? source scan.bare.pos (highlighter.rulesAt scan.bare) = none :=
        first
      cases closes : closerStop? source scan with
      | some stop =>
          have closesBare : closerStop? source scan.bare = some stop := closes
          rw [step_of_closer first closes, step_of_closer firstBare closesBare]
          have ordered := Nat.le_trans ready.pending_le (closerStop?_bounds ready.pos_le closes).1
          have flushed : (highlighter.flush source { scan with pos := stop }.bare).bare =
              (highlighter.flush source { scan with pos := stop }).bare :=
            bare_flush ordered
          have closed := (Scan.bare_close _).symm.trans
            ((congrArg (·.close.bare) flushed).trans (Scan.bare_close _))
          exact congrArg Except.ok closed
      | none =>
          have closesBare : closerStop? source scan.bare = none := closes
          cases illegal : highlighter.illegalStop? source scan with
          | some stop =>
              have illegalBare : highlighter.illegalStop? source scan.bare = some stop := illegal
              rw [step_of_illegal first closes illegal, step_of_illegal firstBare closesBare illegalBare]
              rfl
          | none =>
              have illegalBare : highlighter.illegalStop? source scan.bare = none := illegal
              rw [step_of_plain first closes illegal, step_of_plain firstBare closesBare illegalBare]
              rfl

theorem turns_bare {count : Nat} :
    ∀ {left right : Scan}, left.Ready source → right.Ready source → left.bare = right.bare →
      sight source (highlighter.turns source count left) =
        sight source (highlighter.turns source count right) := by
  induction count with
  | zero =>
      intro left right _ _ alike
      exact congrArg Except.ok alike
  | succ count ih =>
      intro left right readyLeft readyRight alike
      have samePlace : left.pos = right.pos := congrArg (·.pos) alike
      by_cases inside : left.pos < source.size
      · have insideRight : right.pos < source.size := samePlace ▸ inside
        have turned : sight source (highlighter.step source left) =
            sight source (highlighter.step source right) := by
          rw [← step_bare readyLeft, alike, step_bare readyRight]
        rw [turns_succ count inside, turns_succ count insideRight]
        rcases sight_cases turned with
          ⟨nextLeft, nextRight, stepLeft, stepRight, alikeNext⟩ |
          ⟨first, second, stepLeft, stepRight, same⟩
        · rw [stepLeft, stepRight]
          exact ih (step_ready readyLeft inside stepLeft).1
            (step_ready readyRight insideRight stepRight).1 alikeNext
        · rw [stepLeft, stepRight]
          exact congrArg Except.error same
      · have ended := Nat.not_lt.mp inside
        rw [turns_of_end _ ended, turns_of_end _ (samePlace ▸ ended)]
        exact congrArg Except.ok alike

/-- What a run comes to from a scan on. -/
def outcome (highlighter : Highlighter) (source : Source) (scan : Scan) : Except IllegalText Scan :=
  sight source (highlighter.resume source scan)

theorem outcome_of_alike {left right : Scan} (readyLeft : left.Ready source)
    (readyRight : right.Ready source) (alike : left.bare = right.bare) :
    highlighter.outcome source left = highlighter.outcome source right := by
  have sameWeight : left.weight source = right.weight source := congrArg (·.weight source) alike
  have turned : sight source (highlighter.turns source (right.weight source) left) =
      sight source (highlighter.turns source (right.weight source) right) :=
    turns_bare readyLeft readyRight alike
  rw [outcome, outcome, resume, resume, sameWeight]
  rcases sight_cases turned with
    ⟨finalLeft, finalRight, endLeft, endRight, final⟩ | ⟨first, second, endLeft, endRight, same⟩
  · rw [endLeft, endRight]
    have finalReadyLeft := (turns_end readyLeft (Nat.le_of_eq sameWeight) endLeft).1
    have finalReadyRight := (turns_end readyRight (Nat.le_refl _) endRight).1
    refine congrArg Except.ok ?_
    rw [← bare_finish finalReadyLeft.pending_le, final, bare_finish finalReadyRight.pending_le]
  · rw [endLeft, endRight]
    exact congrArg Except.error same

theorem outcome_of_end (ended : source.size ≤ scan.pos) :
    highlighter.outcome source scan = .ok (highlighter.finish source scan).bare := by
  rw [outcome, resume_of_end ended]
  rfl

theorem outcome_of_step {next : Scan} (ready : scan.Ready source) (inside : scan.pos < source.size)
    (turned : highlighter.step source scan = .ok next) :
    highlighter.outcome source scan = highlighter.outcome source next := by
  rw [outcome, resume_of_step ready inside turned, outcome]

theorem outcome_of_refusal {refusal : Refusal} (inside : scan.pos < source.size)
    (turned : highlighter.step source scan = .error refusal) :
    highlighter.outcome source scan = .error (refusal.illegalText source) := by
  rw [outcome, resume_of_refusal inside turned]
  rfl

end Highlighter

end Highlighting
