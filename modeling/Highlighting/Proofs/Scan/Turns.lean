import Highlighting.Proofs.Scan.Extent
import Highlighting.Proofs.Scan.Operations

/-! # The turns of a scan

What one turn can do, and that every turn uses something up: twice the characters that are left, with
one for each open container, is less after a turn than before it. So a scan has turns enough to come to
the end of its source, and the whole run can be followed turn by turn. -/
set_option autoImplicit false
namespace Highlighting

namespace Scan

/-- The pending text is behind the scan, and the scan has not left the source. -/
structure Ready (source : Source) (scan : Scan) : Prop where
  pending_le : scan.level.pending ≤ scan.pos
  pos_le : scan.pos ≤ source.size

/-- What a scan has left to use up. -/
def weight (source : Source) (scan : Scan) : Nat :=
  2 * (source.size - scan.pos) + scan.containers.length

theorem ready_start (source : Source) : ({} : Scan).Ready source :=
  ⟨Nat.le_refl 0, Nat.zero_le _⟩

theorem Ready.note {source : Source} {scan : Scan} (ready : scan.Ready source)
    (events : List ScanEvent) : (scan.note events).Ready source :=
  ⟨ready.pending_le, ready.pos_le⟩

theorem ready_pass {source : Source} (scan : Scan) (yield : Yield) {place : Nat}
    (inside : place ≤ source.size) : (scan.pass yield place).Ready source := by
  have settled : (scan.pass yield place).level.pending = (scan.pass yield place).pos := by
    rw [pass_level, pass_pos]
  refine ⟨Nat.le_of_eq settled, ?_⟩
  rw [pass_pos]
  exact inside

theorem ready_goOut {source : Source} (scan : Scan) (inner : OpenContainer)
    (outer : List OpenContainer) (inside : scan.pos ≤ source.size) :
    (scan.goOut inner outer).Ready source :=
  ready_pass _ _ inside

theorem ready_goInto {source : Source} (scan : Scan) (index : Nat) (rule : ContainerRule) {stop : Nat}
    (forth : scan.pos ≤ stop) (inside : stop ≤ source.size) : (scan.goInto index rule stop).Ready source :=
  ⟨forth, inside⟩

end Scan

namespace Highlighter
variable {highlighter : Highlighter} {source : Source} {scan : Scan}

/-! ## One turn -/

theorem step_of_match {found : Found}
    (first : highlighter.firstMatch? source scan.pos (highlighter.rulesAt scan) = some found) :
    highlighter.step source scan = .ok (highlighter.take source scan found) := by
  simp only [step, first]

theorem step_of_closer {stop : Nat}
    (noMatch : highlighter.firstMatch? source scan.pos (highlighter.rulesAt scan) = none)
    (closes : closerStop? source scan = some stop) :
    highlighter.step source scan =
      .ok (highlighter.flush source { scan with pos := stop }).close := by
  simp only [step, noMatch, closes]

theorem step_of_illegal {stop : Nat}
    (noMatch : highlighter.firstMatch? source scan.pos (highlighter.rulesAt scan) = none)
    (noCloser : closerStop? source scan = none)
    (illegal : highlighter.illegalStop? source scan = some stop) :
    highlighter.step source scan =
      .error ⟨scan.pos, stop, .refused scan.pos stop :: scan.events⟩ := by
  simp only [step, noMatch, noCloser, illegal]

theorem step_of_plain
    (noMatch : highlighter.firstMatch? source scan.pos (highlighter.rulesAt scan) = none)
    (noCloser : closerStop? source scan = none)
    (legal : highlighter.illegalStop? source scan = none) :
    highlighter.step source scan = .ok scan.passChar := by
  simp only [step, noMatch, noCloser, legal]

/-- A turn that does not refuse takes a match, closes a container or passes a character. -/
theorem step_cases {next : Scan} (turned : highlighter.step source scan = .ok next) :
    (∃ found, highlighter.firstMatch? source scan.pos (highlighter.rulesAt scan) = some found ∧
      next = highlighter.take source scan found) ∨
    (∃ stop, closerStop? source scan = some stop ∧
      next = (highlighter.flush source { scan with pos := stop }).close) ∨
    next = scan.passChar := by
  unfold step at turned
  split at turned
  · next found first =>
      cases turned
      exact .inl ⟨found, first, rfl⟩
  · split at turned
    · next stop closes =>
        cases turned
        exact .inr (.inl ⟨stop, closes, rfl⟩)
    · split at turned
      · cases turned
      · cases turned
        exact .inr (.inr rfl)

theorem closerStop?_opened {stop : Nat} (closes : closerStop? source scan = some stop) :
    ∃ inner outer, scan.containers = inner :: outer ∧
      inner.rule.closer.stop? source.chars scan.pos source.size = some stop := by
  unfold closerStop? at closes
  split at closes
  · exact nomatch closes
  · next inner outer opened => exact ⟨inner, outer, opened, closes⟩

/-- The innermost container takes its pending text and its closer with it when it closes. -/
def closedInner (source : Source) (scan : Scan) (inner : OpenContainer) (stop : Nat) :
    OpenContainer :=
  { inner with
    level := ⟨stop, Node.pushAll inner.level.nodes
      (Yield.ofText source inner.rule.words scan.level.pending stop).nodes⟩ }

theorem closed_eq {stop : Nat} {inner : OpenContainer} {outer : List OpenContainer}
    (ordered : scan.level.pending ≤ stop) (opened : scan.containers = inner :: outer) :
    (highlighter.flush source { scan with pos := stop }).close =
      ((scan.pass (.ofText source inner.rule.words scan.level.pending stop) stop).goOut
        (closedInner source scan inner stop) outer).note
          (.closed inner.index inner.rule.scope inner.start stop :: scan.events) := by
  have words : highlighter.wordsAt scan = inner.rule.words := by
    rw [wordsAt, opened]
  rw [flush_moved highlighter source ordered, words,
    Scan.close_eq _ (Scan.pass_containers _ _ _ opened), Scan.pass_pos, Scan.pass_events]
  rfl

/-! ## Turns use up what is left -/

theorem take_ready {found : Found} (ready : scan.Ready source)
    (first : highlighter.firstMatch? source scan.pos (highlighter.rulesAt scan) = some found) :
    let next := highlighter.take source scan found
    next.Ready source ∧ next.weight source < scan.weight source := by
  have bounds := firstMatch?_bounds ready.pos_le first
  have inside := ready.pos_le
  cases found with
  | single index rule stop =>
      rw [take_single highlighter source ready.pending_le]
      refine ⟨(Scan.ready_pass _ _ bounds.2).note _, ?_⟩
      simp only [Scan.weight, Scan.note_pos, Scan.note_containers, Scan.pass_pos, Scan.pass_depth]
      simp only [Found.stop] at bounds
      omega
  | parts index rule stop parts =>
      rw [take_parts highlighter source ready.pending_le]
      refine ⟨(Scan.ready_pass _ _ bounds.2).note _, ?_⟩
      simp only [Scan.weight, Scan.note_pos, Scan.note_containers, Scan.pass_pos, Scan.pass_depth]
      simp only [Found.stop] at bounds
      omega
  | container index rule stop =>
      rw [take_container highlighter source ready.pending_le]
      simp only [Found.stop] at bounds
      refine ⟨⟨?_, bounds.2⟩, ?_⟩
      · simp only [Scan.note_level, Scan.note_pos, Scan.goInto_level, Scan.goInto_pos, Scan.pass_pos]
        omega
      · -- The open container weighs one, and what its opener takes weighs two at least.
        simp only [Scan.weight, Scan.note_pos, Scan.note_containers, Scan.goInto, List.length_cons,
          Scan.pass_depth]
        omega

theorem step_ready {next : Scan} (ready : scan.Ready source) (inside : scan.pos < source.size)
    (turned : highlighter.step source scan = .ok next) :
    next.Ready source ∧ next.weight source < scan.weight source := by
  rcases step_cases turned with ⟨found, first, rfl⟩ | ⟨stop, closes, rfl⟩ | rfl
  · exact take_ready ready first
  · obtain ⟨inner, outer, opened, _⟩ := closerStop?_opened closes
    have bounds := closerStop?_bounds ready.pos_le closes
    have pending := ready.pending_le
    rw [closed_eq (by omega) opened]
    refine ⟨(Scan.ready_goOut _ _ _ (by rw [Scan.pass_pos]; exact bounds.2)).note _, ?_⟩
    simp only [Scan.weight, Scan.note_pos, Scan.note_containers, Scan.goOut_pos, Scan.goOut_depth,
      Scan.pass_pos, opened, List.length_cons]
    omega
  · have pending := ready.pending_le
    refine ⟨⟨Nat.le_succ_of_le pending, inside⟩, ?_⟩
    simp only [Scan.weight, Scan.passChar]
    omega

/-! ## Following a run -/

theorem turns_succ (count : Nat) (inside : scan.pos < source.size) :
    highlighter.turns source (count + 1) scan =
      match highlighter.step source scan with
      | .ok next => highlighter.turns source count next
      | .error refusal => .error refusal := by
  rw [turns]
  exact if_pos inside

theorem turns_of_end (count : Nat) (ended : source.size ≤ scan.pos) :
    highlighter.turns source count scan = .ok scan := by
  cases count with
  | zero => rfl
  | succ count => rw [turns, if_neg (Nat.not_lt.mpr ended)]

theorem turns_last (count : Nat) :
    ∀ scan : Scan, highlighter.turns source (count + 1) scan =
      (highlighter.turns source count scan).bind (highlighter.turns source 1) := by
  induction count with
  | zero => intro scan; rfl
  | succ count ih =>
      intro scan
      by_cases inside : scan.pos < source.size
      · rw [turns_succ (count + 1) inside, turns_succ count inside]
        cases highlighter.step source scan with
        | error refusal => rfl
        | ok next => exact ih next
      · have ended := Nat.not_lt.mp inside
        rw [turns_of_end _ ended, turns_of_end _ ended]
        exact (turns_of_end 1 ended).symm

/-- The scan comes to stand there. -/
def Reaches (highlighter : Highlighter) (source : Source) (scan : Scan) : Prop :=
  ∃ count, highlighter.turns source count {} = .ok scan

/-- The scan comes to stand there with text left, so that it takes another turn. -/
structure Visits (highlighter : Highlighter) (source : Source) (scan : Scan) : Prop where
  reached : highlighter.Reaches source scan
  inside : scan.pos < source.size

theorem Reaches.induction {holds : Scan → Prop} (starts : holds {})
    (kept : ∀ {scan next : Scan}, highlighter.Visits source scan → holds scan →
      highlighter.step source scan = .ok next → holds next)
    (reached : highlighter.Reaches source scan) : holds scan := by
  obtain ⟨count, turned⟩ := reached
  induction count generalizing scan with
  | zero =>
      cases turned
      exact starts
  | succ count ih =>
      rw [turns_last] at turned
      cases before : highlighter.turns source count {} with
      | error refusal =>
          rw [before] at turned
          exact nomatch turned
      | ok last =>
          rw [before] at turned
          change highlighter.turns source 1 last = .ok scan at turned
          have reached : highlighter.Reaches source last := ⟨count, before⟩
          by_cases inside : last.pos < source.size
          · rw [turns_succ 0 inside] at turned
            split at turned
            · next next stepped =>
                cases turned
                exact kept ⟨reached, inside⟩ (ih before) stepped
            · exact nomatch turned
          · rw [turns_of_end _ (Nat.not_lt.mp inside)] at turned
            cases turned
            exact ih before

theorem Reaches.ready (reached : highlighter.Reaches source scan) : scan.Ready source :=
  reached.induction (Scan.ready_start source) fun visits ready stepped =>
    (step_ready ready visits.inside stepped).1

theorem Visits.next {next : Scan} (visits : highlighter.Visits source scan)
    (turned : highlighter.step source scan = .ok next) : highlighter.Reaches source next := by
  obtain ⟨⟨count, reached⟩, inside⟩ := visits
  refine ⟨count + 1, ?_⟩
  rw [turns_last, reached]
  change highlighter.turns source 1 scan = .ok next
  rw [turns_succ 0 inside, turned]
  rfl

theorem Reaches.later {count : Nat} :
    ∀ {scan last : Scan}, highlighter.Reaches source scan →
      highlighter.turns source count scan = .ok last → highlighter.Reaches source last := by
  induction count with
  | zero =>
      intro scan last reached turned
      cases turned
      exact reached
  | succ count ih =>
      intro scan last reached turned
      by_cases inside : scan.pos < source.size
      · rw [turns_succ count inside] at turned
        split at turned
        · next next stepped => exact ih (Visits.next ⟨reached, inside⟩ stepped) turned
        · exact nomatch turned
      · rw [turns_of_end _ (Nat.not_lt.mp inside)] at turned
        cases turned
        exact reached

/-- Turns that are no fewer than what is left lead to the end of the source or to a refusal. -/
theorem turns_end {count : Nat} :
    ∀ {scan final : Scan}, scan.Ready source → scan.weight source ≤ count →
      highlighter.turns source count scan = .ok final →
        final.Ready source ∧ final.pos = source.size := by
  induction count with
  | zero =>
      intro scan final ready enough turned
      cases turned
      refine ⟨ready, ?_⟩
      have inside := ready.pos_le
      simp only [Scan.weight] at enough
      omega
  | succ count ih =>
      intro scan final ready enough turned
      by_cases inside : scan.pos < source.size
      · rw [turns_succ count inside] at turned
        split at turned
        · next next stepped =>
            obtain ⟨readyNext, less⟩ := step_ready ready inside stepped
            exact ih readyNext (by omega) turned
        · exact nomatch turned
      · rw [turns_of_end _ (Nat.not_lt.mp inside)] at turned
        cases turned
        exact ⟨ready, Nat.le_antisymm ready.pos_le (Nat.not_lt.mp inside)⟩

/-- A scan with text left has not taken all the turns of a run. -/
theorem early_of_visit {count : Nat} (turned : highlighter.turns source count {} = .ok scan)
    (inside : scan.pos < source.size) : count < 2 * source.size := by
  rw [← Nat.not_le]
  intro late
  have ended := (turns_end (Scan.ready_start source) late turned).2
  omega

theorem turns_enough {first : Nat} :
    ∀ {second : Nat} {scan : Scan}, scan.Ready source → scan.weight source ≤ first →
      scan.weight source ≤ second →
        highlighter.turns source first scan = highlighter.turns source second scan := by
  induction first with
  | zero =>
      intro second scan ready enough _
      have ended : source.size ≤ scan.pos := by
        simp only [Scan.weight] at enough
        omega
      rw [turns_of_end _ ended, turns_of_end _ ended]
  | succ first ih =>
      intro second scan ready enough alsoEnough
      by_cases inside : scan.pos < source.size
      · obtain ⟨second, rfl⟩ : ∃ left, second = left + 1 :=
          Nat.exists_eq_add_one_of_ne_zero (by simp only [Scan.weight] at alsoEnough; omega)
        rw [turns_succ first inside, turns_succ second inside]
        cases stepped : highlighter.step source scan with
        | error refusal => rfl
        | ok next =>
            obtain ⟨readyNext, less⟩ := step_ready ready inside stepped
            exact ih readyNext (by omega) (by omega)
      · rw [turns_of_end _ (Nat.not_lt.mp inside), turns_of_end _ (Nat.not_lt.mp inside)]

/-- What is left to do at the end of the source. -/
def finish (highlighter : Highlighter) (source : Source) (scan : Scan) : Scan :=
  (highlighter.flush source scan).closeAll

/-- The rest of a run, from a scan on. -/
def resume (highlighter : Highlighter) (source : Source) (scan : Scan) : Except Refusal Scan :=
  (highlighter.turns source (scan.weight source) scan).map (highlighter.finish source)

theorem run_eq_resume (highlighter : Highlighter) (source : Source) :
    highlighter.run source = highlighter.resume source {} := by
  have weight : ({} : Scan).weight source = 2 * source.size := rfl
  rw [run, resume, weight]
  cases highlighter.turns source (2 * source.size) {} <;> rfl

theorem resume_of_end (ended : source.size ≤ scan.pos) :
    highlighter.resume source scan = .ok (highlighter.finish source scan) := by
  rw [resume, turns_of_end _ ended]
  rfl

theorem resume_of_step {next : Scan} (ready : scan.Ready source) (inside : scan.pos < source.size)
    (turned : highlighter.step source scan = .ok next) :
    highlighter.resume source scan = highlighter.resume source next := by
  obtain ⟨readyNext, less⟩ := step_ready ready inside turned
  obtain ⟨left, same⟩ : ∃ left, scan.weight source = left + 1 :=
    Nat.exists_eq_add_one_of_ne_zero (by omega)
  rw [resume, same, turns_succ left inside, turned]
  dsimp only
  have enough : next.weight source ≤ left := by omega
  rw [turns_enough readyNext enough (Nat.le_refl _), resume]

/-- From wherever a scan comes to, the rest of the run leads to the same end. -/
theorem Reaches.resume_eq (reached : highlighter.Reaches source scan) :
    highlighter.resume source scan = highlighter.run source := by
  refine @Reaches.induction highlighter source scan
    (fun other => highlighter.resume source other = highlighter.run source) ?_ ?_ reached
  · exact (highlighter.run_eq_resume source).symm
  intro earlier next visits same turned
  rw [← resume_of_step visits.reached.ready visits.inside turned, same]

theorem resume_of_refusal {refusal : Refusal} (inside : scan.pos < source.size)
    (turned : highlighter.step source scan = .error refusal) :
    highlighter.resume source scan = .error refusal := by
  obtain ⟨left, same⟩ : ∃ left, scan.weight source = left + 1 :=
    Nat.exists_eq_add_one_of_ne_zero (by simp only [Scan.weight]; omega)
  rw [resume, same, turns_succ left inside, turned]
  rfl

/-- Where the rest of a run is not refused, it finishes at the end of the source. -/
theorem resume_ok {done : Scan} (ready : scan.Ready source)
    (ran : highlighter.resume source scan = .ok done) :
    ∃ last, highlighter.turns source (scan.weight source) scan = .ok last ∧ last.pos = source.size ∧
      done = highlighter.finish source last := by
  unfold resume at ran
  cases turned : highlighter.turns source (scan.weight source) scan with
  | error refusal =>
      rw [turned] at ran
      exact nomatch ran
  | ok last =>
      rw [turned] at ran
      cases ran
      exact ⟨last, rfl, (turns_end ready (Nat.le_refl _) turned).2, rfl⟩

theorem run_ok {done : Scan} (ran : highlighter.run source = .ok done) :
    ∃ last, highlighter.Reaches source last ∧ last.pos = source.size ∧
      done = highlighter.finish source last := by
  rw [run_eq_resume] at ran
  obtain ⟨last, turned, ended, finished⟩ := resume_ok (Scan.ready_start source) ran
  exact ⟨last, ⟨_, turned⟩, ended, finished⟩

end Highlighter

end Highlighting
