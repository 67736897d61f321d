import Highlighting.Proofs.Text.Offsets
import Highlighting.Proofs.Scan.Turns

/-! # Illegal text

A scan that ignores illegal text passes it as plain text and goes on. One that does not takes the same
turns up to the first illegal text that nothing takes, and ends there. So ignoring illegal text removes
errors and changes no result. -/
set_option autoImplicit false
namespace Highlighting

/-- The lexeme is not empty and stands in the text at the offset, and the span is where it starts and
ends, whether the positions are counted from the start of the text or asked for by their offsets. -/
structure IllegalText.StandsIn (illegal : IllegalText) (text : String) : Prop where
  nonempty : illegal.lexeme ≠ ""
  split : ∃ before after, text = before ++ illegal.lexeme ++ after ∧
    before.utf8ByteSize = illegal.offset ∧
    illegal.span = ⟨.behind {} before.toList, .behind {} (before ++ illegal.lexeme).toList⟩
  span : illegal.span = ((Cursor.start (.ofString text)).byteSpan illegal.offset
    (illegal.offset + illegal.lexeme.utf8ByteSize)).1

namespace Highlighter

/-- The same language, with illegal text as plain text or not. -/
def ignoring (highlighter : Highlighter) (ignore : Bool) : Highlighter :=
  { highlighter with ignoreIllegal := ignore }

theorem ignoring_self (highlighter : Highlighter) :
    highlighter.ignoring highlighter.ignoreIllegal = highlighter := rfl

/-- Text that is illegal up to `stop` stands at the scan, and neither a rule nor a closer takes it. -/
structure Offends (highlighter : Highlighter) (source : Source) (scan : Scan) (stop : Nat) : Prop where
  noMatch : highlighter.firstMatch? source scan.pos (highlighter.rulesAt scan) = none
  noCloser : closerStop? source scan = none
  illegal : (highlighter.illegalAt scan).bind (·.stop? source.chars scan.pos source.size) = some stop
  proper : scan.pos < stop

variable {highlighter : Highlighter} {source : Source} {scan : Scan} {stop : Nat}

theorem Offends.bounds (offends : highlighter.Offends source scan stop) :
    scan.pos < source.size ∧ stop ≤ source.size := by
  obtain ⟨pattern, _, ends⟩ := Option.bind_eq_some_iff.mp offends.illegal
  have within := (Program.stop?_within ends).2
  have proper := offends.proper
  omega

/-! ## One turn -/

theorem firstMatch?_ignoring (ignore : Bool) (place : Nat) (indices : List Nat) :
    (highlighter.ignoring ignore).firstMatch? source place indices =
      highlighter.firstMatch? source place indices := by
  induction indices with
  | nil => rfl
  | cons index rest ih =>
      rw [firstMatch?, firstMatch?, ih]
      rfl

theorem illegalStop?_lenient (scan : Scan) :
    (highlighter.ignoring true).illegalStop? source scan = none := rfl

theorem illegalStop?_strict (scan : Scan) :
    (highlighter.ignoring false).illegalStop? source scan =
      ((highlighter.illegalAt scan).bind (·.stop? source.chars scan.pos source.size)).filter
        (scan.pos < ·) := rfl

theorem step_of_offence (offends : highlighter.Offends source scan stop) :
    (highlighter.ignoring true).step source scan = .ok scan.passChar ∧
      (highlighter.ignoring false).step source scan =
        .error ⟨scan.pos, stop, .refused scan.pos stop :: scan.events⟩ := by
  have noMatch : ∀ ignore, (highlighter.ignoring ignore).firstMatch? source scan.pos
      ((highlighter.ignoring ignore).rulesAt scan) = none := by
    intro ignore
    rw [firstMatch?_ignoring]
    exact offends.noMatch
  have illegal : (highlighter.ignoring false).illegalStop? source scan = some stop := by
    rw [illegalStop?_strict, offends.illegal]
    exact if_pos (decide_eq_true offends.proper)
  exact ⟨step_of_plain (noMatch true) offends.noCloser (illegalStop?_lenient scan),
    step_of_illegal (noMatch false) offends.noCloser illegal⟩

theorem step_of_legal (legal : ∀ stop, ¬ highlighter.Offends source scan stop) :
    ∃ next, (highlighter.ignoring true).step source scan = .ok next ∧
      (highlighter.ignoring false).step source scan = .ok next := by
  have sameMatch : ∀ ignore, (highlighter.ignoring ignore).firstMatch? source scan.pos
      ((highlighter.ignoring ignore).rulesAt scan) =
        highlighter.firstMatch? source scan.pos (highlighter.rulesAt scan) :=
    fun ignore => firstMatch?_ignoring ignore scan.pos (highlighter.rulesAt scan)
  cases first : highlighter.firstMatch? source scan.pos (highlighter.rulesAt scan) with
  | some found =>
      exact ⟨_, step_of_match ((sameMatch true).trans first), step_of_match ((sameMatch false).trans first)⟩
  | none =>
      cases closes : closerStop? source scan with
      | some stop =>
          exact ⟨_, step_of_closer ((sameMatch true).trans first) closes,
            step_of_closer ((sameMatch false).trans first) closes⟩
      | none =>
          have legalHere : (highlighter.ignoring false).illegalStop? source scan = none := by
            rw [illegalStop?_strict, Option.filter_eq_none_iff]
            intro stop illegal proper
            exact legal stop ⟨first, closes, illegal, of_decide_eq_true proper⟩
          exact ⟨_, step_of_plain ((sameMatch true).trans first) closes (illegalStop?_lenient scan),
            step_of_plain ((sameMatch false).trans first) closes legalHere⟩

/-! ## Turns in step -/

/-- In its first turns a scan that ignores illegal text comes by none. -/
def LegalBefore (highlighter : Highlighter) (source : Source) (count : Nat) (start : Scan) : Prop :=
  ∀ earlier < count, ∀ other stop,
    (highlighter.ignoring true).turns source earlier start = .ok other →
      ¬ highlighter.Offends source other stop

/-- After `count` turns, and not before, a scan that ignores illegal text stands at some. -/
structure FirstOffence (highlighter : Highlighter) (source : Source) (count : Nat)
    (start offender : Scan) (stop : Nat) : Prop where
  turned : (highlighter.ignoring true).turns source count start = .ok offender
  offends : highlighter.Offends source offender stop
  legalBefore : highlighter.LegalBefore source count start

theorem LegalBefore.succ {count : Nat} {next : Scan} (inside : scan.pos < source.size)
    (legal : ∀ stop, ¬ highlighter.Offends source scan stop)
    (stepped : (highlighter.ignoring true).step source scan = .ok next)
    (later : highlighter.LegalBefore source count next) :
    highlighter.LegalBefore source (count + 1) scan := by
  intro earlier before other stop turned
  cases earlier with
  | zero =>
      cases turned
      exact legal stop
  | succ earlier =>
      rw [turns_succ earlier inside, stepped] at turned
      exact later earlier (Nat.lt_of_succ_lt_succ before) other stop turned

theorem turns_lenient (count : Nat) :
    ∀ start : Scan, ∃ final, (highlighter.ignoring true).turns source count start = .ok final := by
  induction count with
  | zero => intro start; exact ⟨start, rfl⟩
  | succ count ih =>
      intro start
      by_cases inside : start.pos < source.size
      · rw [turns_succ count inside]
        by_cases offends : ∃ stop, highlighter.Offends source start stop
        · obtain ⟨stop, offends⟩ := offends
          rw [(step_of_offence offends).1]
          exact ih start.passChar
        · obtain ⟨next, lenient, _⟩ := step_of_legal fun stop here => offends ⟨stop, here⟩
          rw [lenient]
          exact ih next
      · exact ⟨start, turns_of_end _ (Nat.not_lt.mp inside)⟩

theorem turns_in_step (highlighter : Highlighter) (source : Source) (count : Nat) :
    ∀ start : Scan,
      ((highlighter.ignoring false).turns source count start =
          (highlighter.ignoring true).turns source count start ∧
        highlighter.LegalBefore source count start) ∨
      ∃ earlier < count, ∃ offender stop,
        highlighter.FirstOffence source earlier start offender stop ∧
          (highlighter.ignoring false).turns source count start =
            .error ⟨offender.pos, stop, .refused offender.pos stop :: offender.events⟩ := by
  induction count with
  | zero => intro start; exact .inl ⟨rfl, fun _ absurdity => nomatch absurdity⟩
  | succ count ih =>
      intro start
      by_cases inside : start.pos < source.size
      · -- Where nothing offends, both scans turn to the same next one, which stays their common start.
        by_cases offends : ∃ stop, highlighter.Offends source start stop
        · obtain ⟨stop, offends⟩ := offends
          refine .inr ⟨0, Nat.succ_pos count, start, stop, ⟨rfl, offends, ?_⟩, ?_⟩
          · intro earlier absurdity
            exact nomatch absurdity
          · rw [turns_succ count inside, (step_of_offence offends).2]
        · have legal : ∀ stop, ¬ highlighter.Offends source start stop :=
            fun stop here => offends ⟨stop, here⟩
          obtain ⟨next, lenient, strict⟩ := step_of_legal legal
          rw [turns_succ count inside, turns_succ count inside, strict, lenient]
          rcases ih next with ⟨same, later⟩ | ⟨earlier, before, offender, stop, offence, refused⟩
          · exact .inl ⟨same, later.succ inside legal lenient⟩
          · have turned : (highlighter.ignoring true).turns source (earlier + 1) start = .ok offender := by
              rw [turns_succ earlier inside, lenient]
              exact offence.turned
            exact .inr ⟨earlier + 1, Nat.succ_lt_succ before, offender, stop,
              ⟨turned, offence.offends, offence.legalBefore.succ inside legal lenient⟩, refused⟩
      · have ended := Nat.not_lt.mp inside
        refine .inl ⟨by rw [turns_of_end _ ended, turns_of_end _ ended], ?_⟩
        intro earlier _ other stop turned offends
        rw [turns_of_end _ ended] at turned
        cases turned
        exact inside offends.bounds.1

/-! ## Whole runs -/

theorem run_lenient (highlighter : Highlighter) (source : Source) :
    ∃ done, (highlighter.ignoring true).run source = .ok done := by
  obtain ⟨final, turned⟩ : ∃ final,
      (highlighter.ignoring true).turns source (2 * source.size) {} = .ok final :=
    turns_lenient _ {}
  exact ⟨_, by rw [run, turned]⟩

/-- Both runs are the same and come by no illegal text, or one ends at the first. -/
theorem run_in_step (highlighter : Highlighter) (source : Source) :
    ((highlighter.ignoring false).run source = (highlighter.ignoring true).run source ∧
      ∀ scan stop, (highlighter.ignoring true).Visits source scan →
        ¬ highlighter.Offends source scan stop) ∨
    ∃ count offender stop, highlighter.FirstOffence source count {} offender stop ∧
      (highlighter.ignoring false).run source =
        .error ⟨offender.pos, stop, .refused offender.pos stop :: offender.events⟩ := by
  rcases turns_in_step highlighter source (2 * source.size) {} with
    ⟨same, legal⟩ | ⟨count, _, offender, stop, offence, refused⟩
  · refine .inl ⟨?_, ?_⟩
    · rw [run, run, same]
      rfl
    · intro scan stop visits offends
      obtain ⟨⟨count, turned⟩, inside⟩ := visits
      exact legal count (early_of_visit turned inside) scan stop turned offends
  · exact .inr ⟨count, offender, stop, offence, by rw [run, refused]⟩

theorem highlight_of_run {text : String} {done : Scan}
    (ran : highlighter.run (.ofString text) = .ok done) :
    highlighter.highlight text =
      .ok
        { language := highlighter.name
          source := .ofString text
          nodes := done.ground.nodes.reverse
          relevance := done.relevance % UInt32.size
          stats := done.stats } := by
  rw [highlight, Highlighter.scan, ran]

theorem highlight_lenient (highlighter : Highlighter) (text : String) :
    ∃ result, (highlighter.ignoring true).highlight text = .ok result := by
  obtain ⟨done, ran⟩ := run_lenient highlighter (.ofString text)
  exact ⟨_, highlight_of_run ran⟩

theorem highlight_of_refusal {text : String} {refusal : Refusal}
    (ran : highlighter.run (.ofString text) = .error refusal) :
    highlighter.highlight text = .error (refusal.illegalText (.ofString text)) := by
  rw [highlight, Highlighter.scan, ran]

theorem illegalText_standsIn {text : String} {refusal : Refusal}
    (proper : refusal.start < refusal.stop) (inside : refusal.stop ≤ (Source.ofString text).size) :
    (refusal.illegalText (.ofString text)).StandsIn text := by
  let source := Source.ofString text
  have ordered := Nat.le_of_lt proper
  have start := source.offset_add_slice (Nat.zero_le refusal.start)
  rw [Source.offset_zero, Nat.zero_add] at start
  have stop := source.offset_add_slice ordered
  have whole := source.slice_between ordered inside
  rw [Source.toString_ofString] at whole
  refine ⟨source.slice_ne_empty proper inside, ?_, ?_⟩
  · exact ⟨source.slice 0 refusal.start, source.slice refusal.stop source.size, whole.symm, start,
      source.span_eq ordered⟩
  · rw [Refusal.illegalText]
    dsimp only
    rw [stop, Cursor.byteSpan_fst _ ordered inside]

/-- Ignoring illegal text only removes errors. It never fails, and it changes no result. Where it is not
ignored, the error tells where the text stands that nothing takes, and this is the first such place to
which the scan that ignores it comes. -/
theorem illegal_only_refuses (highlighter : Highlighter) (text : String) :
    (∃ result, (highlighter.ignoring true).highlight text = .ok result) ∧
    (∀ result, (highlighter.ignoring false).highlight text = .ok result →
      (highlighter.ignoring true).highlight text = .ok result) ∧
    ((∃ illegal, (highlighter.ignoring false).highlight text = .error illegal) ↔
      ∃ scan stop, (highlighter.ignoring true).Visits (.ofString text) scan ∧
        highlighter.Offends (.ofString text) scan stop) ∧
    ∀ illegal, (highlighter.ignoring false).highlight text = .error illegal →
      illegal.StandsIn text ∧
      ∃ count scan stop, highlighter.FirstOffence (.ofString text) count {} scan stop ∧
        illegal.offset = (Source.ofString text).offset scan.pos := by
  obtain ⟨done, lenient⟩ := run_lenient highlighter (.ofString text)
  have lenientResult := highlight_of_run lenient
  rcases run_in_step highlighter (.ofString text) with
    ⟨same, legal⟩ | ⟨count, offender, stop, offence, refused⟩
  · have strictResult := highlight_of_run (same.trans lenient)
    have noError : ∀ illegal, (highlighter.ignoring false).highlight text ≠ .error illegal := by
      intro illegal failed
      rw [strictResult] at failed
      exact nomatch failed
    refine ⟨⟨_, lenientResult⟩, ?_, ⟨?_, ?_⟩, fun illegal failed => absurd failed (noError illegal)⟩
    · intro result highlighted
      rw [lenientResult, ← highlighted, strictResult]
      rfl
    · rintro ⟨illegal, failed⟩
      exact absurd failed (noError illegal)
    · rintro ⟨scan, stop, visits, offends⟩
      exact absurd offends (legal scan stop visits)
  · have strictResult := highlight_of_refusal refused
    have bounds := offence.offends.bounds
    refine ⟨⟨_, lenientResult⟩, ?_, ⟨?_, ?_⟩, ?_⟩
    · intro result highlighted
      rw [strictResult] at highlighted
      exact nomatch highlighted
    · intro _
      exact ⟨offender, stop, ⟨⟨count, offence.turned⟩, bounds.1⟩, offence.offends⟩
    · intro _
      exact ⟨_, strictResult⟩
    · intro illegal failed
      rw [strictResult] at failed
      cases failed
      exact ⟨illegalText_standsIn offence.offends.proper bounds.2, count, offender, stop, offence, rfl⟩

end Highlighter

end Highlighting
