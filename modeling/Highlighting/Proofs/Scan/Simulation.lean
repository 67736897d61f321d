import Highlighting.Proofs.Scan.Descent
import Highlighting.Proofs.Scan.Events

/-! # Scans descend

A scan keeps its open containers on a stack and its pending text at the levels, where a descent has
calls. Each call is followed here by the turns that do the same: from where the call begins, a scan comes
to what it comes to from the end of the call, with the container closed over what the call yields. -/
set_option autoImplicit false
namespace Highlighting

namespace Scan

/-- The container that a scan is in. -/
def around (scan : Scan) : Option ContainerRule :=
  scan.containers.head?.map (·.rule)

/-- Passes so many characters as plain text. -/
def skip (scan : Scan) (count : Nat) : Scan :=
  { scan with pos := scan.pos + count, stats := scan.stats + { plainChars := count } }

theorem passChar_skip (scan : Scan) (count : Nat) :
    scan.passChar.skip count = scan.skip (count + 1) := by
  simp [skip, passChar, Stats.add_def, Nat.add_assoc, Nat.add_comm 1 count]

theorem skip_pass (scan : Scan) (count place : Nat) (text yield : Yield) :
    (scan.skip count).pass (text ++ yield) place =
      scan.pass (text ++ .ofPlain count ++ yield) place := by
  have counted : scan.stats + { plainChars := count } + (text.stats + yield.stats) =
      scan.stats + (text.stats + { plainChars := count } + yield.stats) := by
    simp only [Stats.add_def, Stats.mk.injEq]
    omega
  obtain ⟨pos, ground, containers, relevance, stats, events⟩ := scan
  cases containers <;>
    simp [skip, pass, gain, Scan.count, add, setLevel, level, advance, setPending, Yield.append_def,
      Yield.ofPlain, counted]

theorem pass_around (scan : Scan) (yield : Yield) (place : Nat) :
    (scan.pass yield place).around = scan.around := by
  obtain ⟨pos, ground, containers, relevance, stats, events⟩ := scan
  cases containers <;> rfl

theorem Ready.skip {source : Source} {scan : Scan} (ready : scan.Ready source) {count : Nat}
    (inside : scan.pos + count ≤ source.size) : (scan.skip count).Ready source :=
  ⟨Nat.le_trans ready.pending_le (Nat.le_add_right _ _), inside⟩

theorem goInto_pass_close (scan : Scan) (index : Nat) (rule : ContainerRule) (opened place : Nat)
    (yield : Yield) :
    ((scan.goInto index rule opened).pass yield place).close =
      (scan.pass
        { yield with nodes := Yield.wrapped rule.scope scan.pos place (Node.joined yield.nodes) }
        place).note (.closed index rule.scope scan.pos place :: scan.events) := by
  have inside := pass_containers (scan.goInto index rule opened) yield place rfl
  rw [close_eq _ inside, pass_pos, pass_events]
  obtain ⟨pos, ground, containers, relevance, stats, events⟩ := scan
  cases containers <;> rfl

end Scan

namespace Highlighter
variable {highlighter : Highlighter} {source : Source} {scan : Scan}

/-! ## A scan at a border -/

theorem rulesAt_eq (scan : Scan) : highlighter.rulesAt scan = highlighter.rulesIn scan.around := by
  obtain ⟨pos, ground, containers, relevance, stats, events⟩ := scan
  cases containers <;> rfl

theorem wordsAt_eq (scan : Scan) : highlighter.wordsAt scan = highlighter.wordsIn scan.around := by
  obtain ⟨pos, ground, containers, relevance, stats, events⟩ := scan
  cases containers <;> rfl

theorem illegalAt_eq (scan : Scan) :
    highlighter.illegalAt scan = highlighter.illegalIn scan.around := by
  obtain ⟨pos, ground, containers, relevance, stats, events⟩ := scan
  cases containers <;> rfl

theorem closerStop?_eq (scan : Scan) :
    closerStop? source scan =
      scan.around.bind (·.closer.stop? source.chars scan.pos source.size) := by
  obtain ⟨pos, ground, containers, relevance, stats, events⟩ := scan
  cases containers <;> rfl

/-- The border at the place of a scan decides its next turn. -/
theorem step_eq (scan : Scan) :
    highlighter.step source scan =
      match highlighter.border? source scan.around scan.pos with
      | some (.inner found) => .ok (highlighter.take source scan found)
      | some (.closer stop) => .ok (highlighter.flush source { scan with pos := stop }).close
      | some (.illegal stop) => .error ⟨scan.pos, stop, .refused scan.pos stop :: scan.events⟩
      | none => .ok scan.passChar := by
  rw [step, border?, rulesAt_eq, closerStop?_eq, illegalStop?, illegalAt_eq]
  cases highlighter.firstMatch? source scan.pos (highlighter.rulesIn scan.around) with
  | some found => rfl
  | none =>
      cases scan.around.bind (·.closer.stop? source.chars scan.pos source.size) with
      | some stop => rfl
      | none =>
          cases highlighter.ignoreIllegal with
          | true => rfl
          | false =>
              dsimp only
              cases ((highlighter.illegalIn scan.around).bind
                (·.stop? source.chars scan.pos source.size)).filter (scan.pos < ·) <;> rfl

theorem outcome_skip {count : Nat} :
    ∀ {scan : Scan}, scan.Ready source → scan.pos + count ≤ source.size →
      (∀ passed < count, highlighter.border? source scan.around (scan.pos + passed) = none) →
        highlighter.outcome source scan = highlighter.outcome source (scan.skip count) := by
  induction count with
  | zero => intro scan _ _ _; rfl
  | succ count ih =>
      intro scan ready inside plain
      have before : scan.pos < source.size := by omega
      have turned : highlighter.step source scan = .ok scan.passChar := by
        have here := plain 0 (Nat.succ_pos count)
        rw [Nat.add_zero] at here
        rw [step_eq, here]
      have readyNext := (step_ready ready before turned).1
      have behind : scan.passChar.pos + count ≤ source.size := by
        simp only [Scan.passChar]
        omega
      rw [outcome_of_step ready before turned, ih readyNext behind ?_, Scan.passChar_skip]
      intro passed fewer
      have later := plain (passed + 1) (Nat.succ_lt_succ fewer)
      rwa [Nat.add_comm passed 1, ← Nat.add_assoc] at later

theorem matchYield_eq (scan : Scan) (found : Found) :
    highlighter.matchYield source scan found =
      highlighter.foundYield source scan.around scan.pos found := by
  cases found with
  | single index rule stop => rfl
  | parts index rule stop parts => rw [matchYield, foundYield, wordsAt_eq]
  | container index rule stop => rfl

/-! ## The end of a level -/

/-- What a scan comes to when the level that it is in ends there. -/
def leave (highlighter : Highlighter) (source : Source) (scan : Scan) : Except IllegalText Scan :=
  match scan.containers with
  | [] => .ok scan.bare
  | _ :: _ => highlighter.outcome source scan.close

theorem leave_of_opened {inner : OpenContainer} {outer : List OpenContainer}
    (opened : scan.containers = inner :: outer) :
    highlighter.leave source scan = highlighter.outcome source scan.close := by
  rw [leave, opened]

theorem leave_of_end (ended : source.size ≤ scan.pos) :
    highlighter.leave source scan = .ok scan.closeAll.bare := by
  cases opened : scan.containers with
  | nil => rw [leave, opened, Scan.closeAll_of_closed opened]
  | cons inner outer =>
      have settled := scan.close_settled opened
      have nothing : highlighter.flush source scan.close = scan.close := by
        rw [flush, if_neg (by omega)]
      rw [leave_of_opened opened, outcome_of_end (scan.close_pos.symm ▸ ended), finish, nothing,
        ← Scan.closeAll_of_opened opened]

theorem skip_pass_plainText (highlighter : Highlighter) (source : Source) (scan : Scan)
    (next stop place : Nat) (yield : Yield) :
    (scan.skip (next - scan.pos)).pass
        (.ofText source (highlighter.wordsAt scan) scan.level.pending stop ++ yield) place =
      scan.pass (highlighter.plainText source scan.around scan.level.pending scan.pos next stop ++ yield)
        place := by
  rw [Scan.skip_pass, plainText, wordsAt_eq]

/-- A scan has come from `scan` to its first border and has passed plain text only. -/
structure AtBorder (highlighter : Highlighter) (source : Source) (scan reached : Scan) (next : Nat)
    (border : Border) : Prop where
  skipped : reached = scan.skip (next - scan.pos)
  place : reached.pos = next
  around : reached.around = scan.around
  inside : reached.pos < source.size
  ready : reached.Ready source
  comes : highlighter.outcome source scan = highlighter.outcome source reached
  stands : highlighter.border? source reached.around reached.pos = some border

theorem AtBorder.yield {reached : Scan} {next : Nat} {found : Found}
    (atBorder : highlighter.AtBorder source scan reached next (.inner found)) (place : Nat) :
    reached.pass (highlighter.pendingYield source reached ++ highlighter.matchYield source reached found)
        place =
      scan.pass (highlighter.throughFound source scan.around scan.level.pending scan.pos next found)
        place := by
  have passed := skip_pass_plainText highlighter source scan next next place
    (highlighter.foundYield source scan.around next found)
  rw [← atBorder.skipped] at passed
  rw [throughFound, ← passed, matchYield_eq, atBorder.around, pendingYield, atBorder.place,
    atBorder.skipped]
  rfl

theorem AtBorder.taken {reached : Scan} {next : Nat} {found : Found}
    (atBorder : highlighter.AtBorder source scan reached next (.inner found)) :
    highlighter.outcome source scan =
      highlighter.outcome source (highlighter.take source reached found) ∧
        (highlighter.take source reached found).Ready source := by
  have turned : highlighter.step source reached = .ok (highlighter.take source reached found) := by
    rw [step_eq, atBorder.stands]
  refine ⟨?_, (step_ready atBorder.ready atBorder.inside turned).1⟩
  rw [atBorder.comes, outcome_of_step atBorder.ready atBorder.inside turned]

section Borders
variable (ready : scan.Ready source)
include ready

theorem exists_atBorder {next : Nat} {border : Border}
    (sought : highlighter.seek source scan.around (source.size - scan.pos) scan.pos =
      some (next, border)) :
    ∃ reached, highlighter.AtBorder source scan reached next border := by
  obtain ⟨forth, nearer, stands⟩ := seek_bounds sought
  have inside := ready.pos_le
  have there : scan.pos + (next - scan.pos) = next := by omega
  have within : scan.pos + (next - scan.pos) ≤ source.size := by omega
  have plain : ∀ passed < next - scan.pos,
      highlighter.border? source scan.around (scan.pos + passed) = none := by
    intro passed fewer
    exact seek_plain sought passed (by omega)
  have before : scan.pos + (next - scan.pos) < source.size := by omega
  refine ⟨scan.skip (next - scan.pos), rfl, there, rfl, before, ready.skip within,
    outcome_skip ready within plain, ?_⟩
  rw [Scan.skip, there]
  exact stands

theorem outcome_to_end
    (sought : highlighter.seek source scan.around (source.size - scan.pos) scan.pos = none) :
    highlighter.outcome source scan =
      highlighter.leave source
        (scan.pass (highlighter.plainText source scan.around scan.level.pending scan.pos source.size
          source.size) source.size) := by
  have inside := ready.pos_le
  have whole : scan.pos + (source.size - scan.pos) = source.size := by omega
  have skipped := ready.skip (Nat.le_of_eq whole)
  have flushed : highlighter.flush source (scan.skip (source.size - scan.pos)) =
      scan.pass (highlighter.plainText source scan.around scan.level.pending scan.pos source.size
        source.size) source.size := by
    rw [flush_eq highlighter source skipped.pending_le]
    have passed := skip_pass_plainText highlighter source scan source.size source.size source.size {}
    rw [Yield.append_empty, Yield.append_empty] at passed
    have there : (scan.skip (source.size - scan.pos)).pos = source.size := whole
    rw [pendingYield, there]
    exact passed
  rw [outcome_skip ready (Nat.le_of_eq whole) (seek_none sought),
    outcome_of_end (Nat.le_of_eq whole.symm), finish, flushed, leave_of_end]
  exact Nat.le_of_eq (Scan.pass_pos _ _ _).symm

theorem outcome_to_closer {next stop : Nat}
    (sought : highlighter.seek source scan.around (source.size - scan.pos) scan.pos =
      some (next, .closer stop)) :
    highlighter.outcome source scan =
      highlighter.leave source
        (scan.pass (highlighter.plainText source scan.around scan.level.pending scan.pos next stop)
          stop) := by
  obtain ⟨reached, atBorder⟩ := exists_atBorder ready sought
  have ordered : reached.level.pending ≤ stop := by
    have forth := (seek_closer sought).2.1
    have pending := atBorder.ready.pending_le
    have place := atBorder.place
    omega
  have flushed : highlighter.flush source { reached with pos := stop } =
      scan.pass (highlighter.plainText source scan.around scan.level.pending scan.pos next stop)
        stop := by
    have passed := skip_pass_plainText highlighter source scan next stop stop {}
    rw [Yield.append_empty, Yield.append_empty, ← atBorder.skipped] at passed
    rw [flush_moved highlighter source ordered, ← passed, atBorder.skipped]
    rfl
  have turned : highlighter.step source reached =
      .ok (scan.pass (highlighter.plainText source scan.around scan.level.pending scan.pos next stop)
        stop).close := by
    rw [step_eq, atBorder.stands, ← flushed]
  -- Only a container has a closer, so that the scan is in one.
  obtain ⟨container, opened, _⟩ := Option.bind_eq_some_iff.mp (border?_closer atBorder.stands).2
  obtain ⟨inner, outer, containers⟩ : ∃ inner outer, scan.containers = inner :: outer := by
    refine List.exists_cons_of_ne_nil ?_
    intro closed
    rw [atBorder.around, Scan.around, closed] at opened
    exact nomatch opened
  rw [atBorder.comes, outcome_of_step atBorder.ready atBorder.inside turned,
    leave_of_opened (Scan.pass_containers _ _ _ containers)]

theorem outcome_to_illegal {next stop : Nat}
    (sought : highlighter.seek source scan.around (source.size - scan.pos) scan.pos =
      some (next, .illegal stop)) :
    highlighter.outcome source scan = .error (Refusal.illegalText ⟨next, stop, []⟩ source) := by
  obtain ⟨reached, atBorder⟩ := exists_atBorder ready sought
  have turned : highlighter.step source reached =
      .error ⟨next, stop, .refused next stop :: reached.events⟩ := by
    rw [step_eq, atBorder.stands, atBorder.place]
  rw [atBorder.comes, outcome_of_refusal atBorder.inside turned]
  rfl

theorem outcome_to_flat {next : Nat} {found : Found}
    (sought : highlighter.seek source scan.around (source.size - scan.pos) scan.pos =
      some (next, .inner found))
    (flat : found.container? = none) :
    highlighter.outcome source scan =
      highlighter.outcome source
        (scan.pass (highlighter.throughFound source scan.around scan.level.pending scan.pos next found)
          found.stop) := by
  obtain ⟨reached, atBorder⟩ := exists_atBorder ready sought
  have yield := atBorder.yield found.stop
  have pending := atBorder.ready.pending_le
  obtain ⟨comes, readyNext⟩ := atBorder.taken
  rw [comes]
  refine outcome_of_alike readyNext (Scan.ready_pass _ _ (seek_inner sought).2.2) ?_
  rw [← yield]
  cases found with
  | container index rule stop => exact nomatch flat
  | single index rule stop =>
      rw [take_single highlighter source pending, Scan.bare_note]
      rfl
  | parts index rule stop parts =>
      rw [take_parts highlighter source pending, Scan.bare_note]
      rfl

theorem outcome_to_container {next index stop : Nat} {rule : ContainerRule}
    (sought : highlighter.seek source scan.around (source.size - scan.pos) scan.pos =
      some (next, .inner (.container index rule stop))) :
    highlighter.outcome source scan =
      highlighter.outcome source
        ((scan.pass (highlighter.throughFound source scan.around scan.level.pending scan.pos next
          (.container index rule stop)) next).goInto index rule stop) := by
  obtain ⟨reached, atBorder⟩ := exists_atBorder ready sought
  have bounds := seek_inner sought
  obtain ⟨comes, readyNext⟩ := atBorder.taken
  rw [comes]
  refine outcome_of_alike readyNext (Scan.ready_goInto _ index rule ?_ bounds.2.2) ?_
  · rw [Scan.pass_pos]
    exact Nat.le_of_lt bounds.2.1
  · rw [take_container highlighter source atBorder.ready.pending_le, Scan.bare_note,
      ← atBorder.yield next, atBorder.place]

end Borders

/-! ## Calls -/

/-- A scan at the start of a level with so much of the source left comes to what it comes to from the
end of the level, once it has passed what the descent yields. -/
def Followed (highlighter : Highlighter) (source : Source) (left : Nat) : Prop :=
  ∀ {scan : Scan} {around : Option ContainerRule} {first place : Nat}, scan.Ready source →
    source.size - place = left → scan.around = around → scan.level.pending = first →
      scan.pos = place →
        highlighter.outcome source scan =
          (highlighter.descend source around first place).bind fun passage =>
            highlighter.leave source (scan.pass passage.yield passage.stop)

section Calls
variable {left : Nat} (followed : ∀ fewer < left, highlighter.Followed source fewer)
include followed

theorem followed_rest (scan : Scan) (done : Yield) {stop : Nat} (within : stop ≤ source.size)
    (fewer : source.size - stop < left) :
    highlighter.outcome source (scan.pass done stop) =
      (highlighter.descend source scan.around stop stop).bind fun rest =>
        highlighter.leave source (scan.pass (done ++ rest.yield) rest.stop) := by
  have settled := congrArg Level.pending (Scan.pass_level scan done stop)
  rw [followed _ fewer (Scan.ready_pass scan done within) rfl (Scan.pass_around scan done stop) settled
    (Scan.pass_pos scan done stop)]
  simp only [Scan.pass_pass]

theorem followed_inside (scan : Scan) (index : Nat) (rule : ContainerRule) {stop : Nat}
    (forth : scan.pos ≤ stop) (within : stop ≤ source.size) (fewer : source.size - stop < left) :
    highlighter.outcome source (scan.goInto index rule stop) =
      (highlighter.descend source (some rule) scan.pos stop).bind fun inside =>
        highlighter.outcome source (scan.pass (inside.enclosed rule.scope scan.pos) inside.stop) := by
  have entered := Scan.ready_goInto scan index rule forth within
  have around : (scan.goInto index rule stop).around = some rule := rfl
  rw [followed _ fewer entered rfl around rfl rfl]
  refine congrArg (Except.bind _) ?_
  funext inside
  have closed := Scan.goInto_pass_close scan index rule stop inside.stop inside.yield
  have readyBehind := Scan.ready_pass scan (inside.enclosed rule.scope scan.pos) inside.inside
  rw [leave_of_opened (Scan.pass_containers _ _ _ rfl), closed]
  exact outcome_of_alike (readyBehind.note _) readyBehind (Scan.bare_note _ _)

theorem followed_step : highlighter.Followed source left := by
  intro scan around first place ready rest inside pending there
  subst inside pending there
  rw [descend]
  split
  · next sought => exact outcome_to_end ready sought
  · next next stop sought => exact outcome_to_closer ready sought
  · next next stop sought => exact outcome_to_illegal ready sought
  · next next found sought =>
      have bounds := seek_inner sought
      have fewer : source.size - found.stop < left := by omega
      cases found with
      | single index rule stop =>
          rw [outcome_to_flat ready sought rfl, followed_rest followed _ _ bounds.2.2 fewer]
          dsimp only [Found.container?, Found.stop]
          cases highlighter.descend source scan.around stop stop <;> rfl
      | parts index rule stop parts =>
          rw [outcome_to_flat ready sought rfl, followed_rest followed _ _ bounds.2.2 fewer]
          dsimp only [Found.container?, Found.stop]
          cases highlighter.descend source scan.around stop stop <;> rfl
      | container index rule stop =>
          -- Two calls follow, one for the inside of the container and one for what is behind its closer.
          rw [outcome_to_container ready sought]
          dsimp only [Found.container?, Found.stop] at bounds fewer ⊢
          generalize highlighter.throughFound source scan.around scan.level.pending scan.pos next
            (.container index rule stop) = before
          have start : (scan.pass before next).pos = next := Scan.pass_pos scan before next
          have forth : (scan.pass before next).pos ≤ stop := by
            rw [start]
            exact Nat.le_of_lt bounds.2.1
          rw [followed_inside followed _ index rule forth bounds.2.2 fewer, start]
          cases highlighter.descend source (some rule) next stop with
          | error illegal => rfl
          | ok inside =>
              have fewerBehind : source.size - inside.stop < left :=
                Nat.lt_of_le_of_lt inside.left_le fewer
              dsimp only [bind, Except.bind]
              rw [Scan.pass_pass, followed_rest followed _ _ inside.inside fewerBehind]
              cases highlighter.descend source scan.around inside.stop inside.stop <;> rfl

end Calls

theorem outcome_descend (left : Nat) : highlighter.Followed source left := by
  induction left using Nat.strongRecOn with
  | ind left followed => exact followed_step followed

theorem highlight_eq_outcome (highlighter : Highlighter) (text : String) :
    highlighter.highlight text =
      (highlighter.outcome (.ofString text) {}).map fun done =>
        { language := highlighter.name
          source := .ofString text
          nodes := done.ground.nodes.reverse
          relevance := done.relevance % UInt32.size
          stats := done.stats } := by
  rw [highlight, Highlighter.scan, run_eq_resume, outcome]
  cases highlighter.resume (.ofString text) {} <;> rfl

/-- A highlighter comes to what the recursive descent comes to, be it a result or illegal text. -/
theorem highlight_eq_descent (highlighter : Highlighter) (text : String) :
    highlighter.highlight text = highlighter.descent text := by
  have ready := Scan.ready_start (.ofString text)
  have descended : highlighter.outcome (.ofString text) {} =
      (highlighter.descend (.ofString text) none 0 0).bind fun passage =>
        highlighter.leave (.ofString text) (({} : Scan).pass passage.yield passage.stop) :=
    outcome_descend _ ready rfl rfl rfl rfl
  rw [highlight_eq_outcome, descended, descent]
  dsimp only [bind, Except.bind]
  cases highlighter.descend (.ofString text) none 0 0 with
  | error illegal => rfl
  | ok whole =>
      have relevance : (({} : Scan).pass whole.yield whole.stop).bare.relevance = whole.yield.relevance := by
        exact (Scan.pass_relevance _ _ _).trans (Nat.zero_add _)
      have stats : (({} : Scan).pass whole.yield whole.stop).bare.stats = whole.yield.stats := by
        exact (Scan.pass_stats _ _ _).trans (Stats.none_add _)
      refine congrArg Except.ok ?_
      dsimp only
      rw [relevance, stats]
      rfl

end Highlighter

end Highlighting
