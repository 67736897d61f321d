import Highlighting.Proofs.Pattern.Literal
import Highlighting.Proofs.Scan.Guarding
import Highlighting.Proofs.Scan.Halting
import Highlighting.Proofs.Scan.Illegal

/-! # Places in the open

Where a guarded character stands, the scan hides the place or comes to it outside of all containers and
passes it as plain text. So a marker of illegal text that starts with one is found where it stands in the
open when illegal text is ignored, and nowhere else. -/
set_option autoImplicit false
namespace Highlighting

namespace Highlighter
variable {highlighter : Highlighter} {source : Source} {hidden : List Scope} {c : Char}
variable {scan next : Scan} {place : Nat}

/-! ## Hidden or in the open -/

/-- Where the character stands behind the scan, the place is hidden or was come to in the open. -/
def Accounted (highlighter : Highlighter) (source : Source) (hidden : List Scope) (c : Char)
    (scan : Scan) : Prop :=
  ∀ place < scan.pos, source.chars[place]? = some c →
    scan.Hides hidden place ∨
      ∃ visited, highlighter.Visits source visited ∧ visited.pos = place ∧ visited.containers = []

theorem step_accounted (guards : highlighter.Guards hidden c)
    (inOrder : highlighter.TakesInOrder source) (visits : highlighter.Visits source scan)
    (accounted : highlighter.Accounted source hidden c scan)
    (turned : highlighter.step source scan = .ok next) :
    highlighter.Accounted source hidden c next := by
  intro place before here
  have ready := visits.reached.ready
  by_cases left : place < scan.pos
  · rcases accounted place left here with hides | visited
    · exact .inl (step_hides ready turned before hides)
    · exact .inr visited
  · have behind := Nat.not_lt.mp left
    by_cases bare : scan.containers = []
    · rcases step_cases turned with ⟨found, first, rfl⟩ | ⟨stop, closes, rfl⟩ | rfl
      · rw [take_pos ready] at before
        have taken := match_hides guards.bars bare first ⟨behind, before⟩ here
        exact .inl ((take_hides ready.pending_le found).mpr (.inr (.inr taken)))
      · obtain ⟨inner, outer, opened, _⟩ := closerStop?_opened closes
        rw [bare] at opened
        exact nomatch opened
      · have same : scan.pos = place := Nat.le_antisymm behind (Nat.le_of_lt_succ before)
        exact .inr ⟨scan, visits, same, bare⟩
    · have hides : scan.Hides hidden place :=
        opened_hides guards.bars (visits.reached.covered inOrder) visits.reached.nested bare behind
      exact .inl (step_hides ready turned before hides)

theorem Reaches.accounted (guards : highlighter.Guards hidden c)
    (inOrder : highlighter.TakesInOrder source) (reached : highlighter.Reaches source scan) :
    highlighter.Accounted source hidden c scan :=
  reached.induction (fun _ absurdity => nomatch absurdity) (step_accounted guards inOrder)

theorem hides_of_turns (guards : highlighter.Guards hidden c)
    (inOrder : highlighter.TakesInOrder source) {count : Nat} :
    ∀ {scan last : Scan}, highlighter.Reaches source scan → place < scan.pos →
      highlighter.turns source count scan = .ok last → last.Hides hidden place →
        scan.Hides hidden place := by
  induction count with
  | zero =>
      intro scan last _ _ turned hides
      cases turned
      exact hides
  | succ count ih =>
      intro scan last reached before turned hides
      by_cases inside : scan.pos < source.size
      · rw [turns_succ count inside] at turned
        split at turned
        · next next stepped =>
            have visits : highlighter.Visits source scan := ⟨reached, inside⟩
            have advances := step_advances reached.ready stepped
            have later := ih (visits.next stepped) (by omega) turned hides
            exact hides_of_step guards inOrder visits stepped before later
        · exact nomatch turned
      · rw [turns_of_end _ (Nat.not_lt.mp inside)] at turned
        cases turned
        exact hides

theorem closeAll_hides (scan : Scan) :
    scan.closeAll.containers = [] ∧
      ∀ place < scan.pos, scan.closeAll.Hides hidden place ↔ scan.Hides hidden place := by
  apply Scan.closeAll_induction (motive := fun start last => last.containers = [] ∧
    ∀ place < start.pos, last.Hides hidden place ↔ start.Hides hidden place)
  · intro start closed
    exact ⟨closed, fun _ _ => Iff.rfl⟩
  · rintro start inner outer opened ⟨closed, same⟩
    refine ⟨closed, ?_⟩
    intro place before
    rw [same place (start.close_pos.symm ▸ before), Scan.close_eq start opened, Scan.hides_note,
      Scan.hides_goOut before, Scan.hides_opened opened]

/-- The nodes of a whole run hide what the scan hides at the end of the source. -/
theorem finish_hides (guards : highlighter.Guards hidden c) (reached : highlighter.Reaches source scan)
    (before : place < scan.pos) :
    Node.AnyHides hidden place (highlighter.finish source scan).ground.nodes ↔
      scan.Hides hidden place := by
  have shown : ¬ Node.AnyHides hidden place (highlighter.pendingYield source scan).nodes :=
    Yield.ofText_shows (guards.wordsAt reached.nested) source _ _
  have flushed := highlighter.flush_eq source reached.ready.pending_le
  have stays : (highlighter.flush source scan).pos = scan.pos := by
    rw [flushed, Scan.pass_pos]
  obtain ⟨closed, same⟩ : (highlighter.flush source scan).closeAll.containers = [] ∧
      ∀ place < (highlighter.flush source scan).pos,
        (highlighter.flush source scan).closeAll.Hides hidden place ↔
          (highlighter.flush source scan).Hides hidden place :=
    closeAll_hides _
  have ground : (highlighter.finish source scan).Hides hidden place ↔
      Node.AnyHides hidden place (highlighter.finish source scan).ground.nodes := by
    rw [Scan.Hides, finish, closed]
    simp
  rw [← ground, finish, same place (stays ▸ before), flushed, Scan.hides_pass, or_iff_left shown]

/-! ## Illegal text in the open -/

/-- The characters stand at the place, and the nodes do not hide it. -/
structure Exposed (source : Source) (hidden : List Scope) (marker : List Char) (nodes : List Node)
    (place : Nat) : Prop where
  stands : source.holdsAt marker place = true
  shown : ¬ Node.AnyHides hidden place nodes

variable {rest : List Char} {done : Scan}

theorem holdsAt_first (stands : source.holdsAt (c :: rest) place = true) :
    source.chars[place]? = some c :=
  eq_of_beq (Bool.and_eq_true_iff.mp stands).1

theorem visited_of_exposed (guards : highlighter.Guards hidden c)
    (inOrder : highlighter.TakesInOrder source) (ran : highlighter.run source = .ok done)
    (exposed : Exposed source hidden (c :: rest) done.ground.nodes place) :
    ∃ visited, highlighter.Visits source visited ∧ visited.pos = place ∧ visited.containers = [] := by
  have here := holdsAt_first exposed.stands
  obtain ⟨inside, _⟩ := Array.getElem?_eq_some_iff.mp here
  obtain ⟨last, reached, ended, rfl⟩ := run_ok ran
  have before : place < last.pos := ended ▸ inside
  rcases reached.accounted guards inOrder place before here with hides | visited
  · exact absurd ((finish_hides guards reached before).mpr hides) exposed.shown
  · exact visited

/-- What the scan passes as plain text in the open is never hidden. -/
theorem shown_of_passed (guards : highlighter.Guards hidden c)
    (inOrder : highlighter.TakesInOrder source) (ran : highlighter.run source = .ok done)
    (visits : highlighter.Visits source scan) (bare : scan.containers = [])
    (passes : highlighter.step source scan = .ok scan.passChar) :
    ¬ Node.AnyHides hidden scan.pos done.ground.nodes := by
  have reached := visits.next passes
  have behind : scan.pos < scan.passChar.pos := Nat.lt_succ_self scan.pos
  rw [← reached.resume_eq] at ran
  obtain ⟨last, turned, ended, rfl⟩ := resume_ok reached.ready ran
  have inside := visits.inside
  intro hides
  have stillHides := (finish_hides guards (reached.later turned) (by omega)).mp hides
  have hidesNext : scan.passChar.Hides hidden scan.pos :=
    hides_of_turns guards inOrder reached behind turned stillHides
  have hidesBefore : scan.Hides hidden scan.pos := hidesNext
  -- Outside of all containers a scan has no nodes but those of the text behind it.
  have covered := visits.reached.covered inOrder
  have filled := covered.stacked
  rw [bare] at filled
  rcases hidesBefore with ground | ⟨container, opened, _⟩
  · have within := filled.fills.covers.hidden_within (Node.anyHides_reverse.mpr ground)
    have pending := covered.pending_le
    omega
  · rw [bare] at opened
    cases opened

theorem firstMatch?_shuns (guards : highlighter.Guards hidden c) (here : source.chars[place]? = some c) :
    highlighter.firstMatch? source place highlighter.root = none := by
  cases first : highlighter.firstMatch? source place highlighter.root with
  | none => rfl
  | some found =>
      obtain ⟨member, listed, matched⟩ := firstMatch?_listed first
      rw [Rule.match?_shuns (guards.shuns _ member _ listed) here] at matched
      exact nomatch matched

/-- Illegal text is the marker where the scan comes to it outside of all containers. -/
theorem offends_iff (guards : highlighter.Guards hidden c)
    (marks : highlighter.illegal = some (.ofPattern (.literal (c :: rest))))
    (legal : ∀ container ∈ scan.containers, container.rule.illegal = none) {stop : Nat} :
    highlighter.Offends source scan stop ↔
      scan.containers = [] ∧ source.holdsAt (c :: rest) scan.pos = true ∧
        stop = scan.pos + (c :: rest).length := by
  have ends := Program.stop?_literal (c :: rest) source scan.pos
  constructor
  · intro offends
    have illegal := offends.illegal
    unfold illegalAt at illegal
    split at illegal
    · next bare =>
        rw [marks, Option.bind_some, ends] at illegal
        obtain ⟨stands, same⟩ := Option.ite_none_right_eq_some.mp illegal
        exact ⟨bare, stands, (Option.some.inj same).symm⟩
    · next inner outer opened =>
        have member : inner ∈ scan.containers := by
          rw [opened]
          exact List.mem_cons_self
        rw [legal inner member] at illegal
        exact nomatch illegal
  · rintro ⟨bare, stands, rfl⟩
    refine ⟨?_, ?_, ?_, by simp⟩
    · rw [rulesAt_listedIn, bare]
      exact firstMatch?_shuns guards (holdsAt_first stands)
    · rw [closerStop?, bare]
    · rw [illegalAt, bare]
      dsimp only
      rw [marks, Option.bind_some, ends, if_pos stands]

/-- Where illegal text is not ignored, a run ends at the first marker that is exposed when it is. -/
theorem run_exposed (guards : highlighter.Guards hidden c)
    (marks : highlighter.illegal = some (.ofPattern (.literal (c :: rest))))
    (inOrder : (highlighter.ignoring true).TakesInOrder source) :
    ∃ done, (highlighter.ignoring true).run source = .ok done ∧
      (((highlighter.ignoring false).run source = .ok done ∧
          ∀ place, ¬ Exposed source hidden (c :: rest) done.ground.nodes place) ∨
        ∃ start events,
          (highlighter.ignoring false).run source =
            .error ⟨start, start + (c :: rest).length, events⟩ ∧
          Exposed source hidden (c :: rest) done.ground.nodes start ∧
          ∀ place, Exposed source hidden (c :: rest) done.ground.nodes place → start ≤ place) := by
  have lenient : (highlighter.ignoring true).Guards hidden c :=
    ⟨guards.words, guards.containers, guards.shuns, guards.bars⟩
  obtain ⟨done, ran⟩ := run_lenient highlighter source
  refine ⟨done, ran, ?_⟩
  -- A marker that is exposed offends where the scan comes to it.
  have offending : ∀ place, Exposed source hidden (c :: rest) done.ground.nodes place →
      ∃ visited stop, (highlighter.ignoring true).Visits source visited ∧ visited.pos = place ∧
        highlighter.Offends source visited stop := by
    intro place exposed
    obtain ⟨visited, visits, rfl, bare⟩ := visited_of_exposed lenient inOrder ran exposed
    have legal : ∀ container ∈ visited.containers, container.rule.illegal = none := by
      rw [bare]
      exact fun _ absurdity => nomatch absurdity
    exact ⟨visited, _, visits, rfl,
      (offends_iff guards marks legal).mpr ⟨bare, exposed.stands, rfl⟩⟩
  rcases run_in_step highlighter source with ⟨same, legal⟩ | ⟨count, offender, stop, offence, refused⟩
  · refine .inl ⟨same.trans ran, ?_⟩
    intro place exposed
    obtain ⟨visited, stop, visits, _, offends⟩ := offending place exposed
    exact legal visited stop visits offends
  · have inside := offence.offends.bounds.1
    have visits : (highlighter.ignoring true).Visits source offender := ⟨⟨count, offence.turned⟩, inside⟩
    have legal : ∀ container ∈ offender.containers, container.rule.illegal = none :=
      fun container opened => (lenient.container visits.reached.nested opened).1
    obtain ⟨bare, stands, rfl⟩ := (offends_iff guards marks legal).mp offence.offends
    refine .inr ⟨offender.pos, _, refused, ⟨stands, ?_⟩, ?_⟩
    · have passes := (step_of_offence offence.offends).1
      exact shown_of_passed lenient inOrder ran visits bare passes
    · intro place exposed
      obtain ⟨visited, stop, ⟨⟨later, turned⟩, _⟩, rfl, offends⟩ := offending place exposed
      have notBefore : count ≤ later := by
        rw [← Nat.not_lt]
        intro early
        exact offence.legalBefore later early visited stop turned offends
      obtain ⟨more, rfl⟩ := Nat.exists_eq_add_of_le notBefore
      exact turns_advance offence.turned turned

end Highlighter

/-! ## Exposed text by its byte offset -/

/-- The text has the marker at the byte offset, and no region with one of the scopes holds the offset. -/
structure Highlight.Exposes (result : Highlight) (text : String) (hidden : List Scope)
    (marker : String) (offset : Nat) : Prop where
  stands : ∃ before after, text = before ++ marker ++ after ∧ before.utf8ByteSize = offset
  shown : ∀ region ∈ result.regions, region.scope ∈ hidden →
    ¬ (region.start ≤ offset ∧ offset < region.stop)

namespace Highlight
variable {result : Highlight} {hidden : List Scope}

theorem anyHides_iff_regions {place : Nat} (inside : place < result.source.size) :
    Node.AnyHides hidden place result.nodes ↔
      ∃ region ∈ result.regions, region.scope ∈ hidden ∧
        region.start ≤ result.source.offset place ∧ result.source.offset place < region.stop := by
  have starts : ∀ start,
      result.source.offset start ≤ result.source.offset place ↔ start ≤ place := by
    intro start
    rw [← Nat.not_lt, result.source.offset_lt_iff inside, Nat.not_lt]
  rw [Node.anyHides_iff_scopes 0, Node.RangeHides, regions_eq]
  simp only [List.mem_map, exists_exists_and_eq_and, starts, result.source.offset_lt_iff inside]
  rfl

theorem exposes_iff {text marker : String} {c : Char} {rest : List Char}
    (source : result.source = .ofString text) (chars : marker.toList = c :: rest) {offset : Nat} :
    result.Exposes text hidden marker offset ↔
      ∃ place, Highlighter.Exposed (.ofString text) hidden (c :: rest) result.nodes place ∧
        (Source.ofString text).offset place = offset := by
  have within : ∀ place, (Source.ofString text).holdsAt (c :: rest) place = true →
      place < result.source.size := by
    intro place stands
    rw [source]
    exact (Array.getElem?_eq_some_iff.mp (Highlighter.holdsAt_first stands)).1
  constructor
  · rintro ⟨stands, shown⟩
    obtain ⟨place, marked, rfl⟩ := (Source.stands_iff text marker offset).mp stands
    have stands : (Source.ofString text).holdsAt (c :: rest) place = true := chars ▸ marked
    refine ⟨place, ⟨stands, ?_⟩, rfl⟩
    intro hides
    obtain ⟨region, listed, veils, held⟩ := (anyHides_iff_regions (within place stands)).mp hides
    exact shown region listed veils (source ▸ held)
  · rintro ⟨place, ⟨stands, shown⟩, rfl⟩
    refine ⟨(Source.stands_iff text marker _).mpr ⟨place, chars ▸ stands, rfl⟩, ?_⟩
    intro region listed veils held
    apply shown
    rw [anyHides_iff_regions (within place stands), source]
    exact ⟨region, listed, veils, held⟩

end Highlight

/-- Where illegal text is not ignored, highlighting fails at the first marker that is exposed when it is,
and it does not fail when there is none. -/
theorem Highlighter.highlight_exposed {highlighter : Highlighter} {hidden : List Scope} {c : Char}
    {rest : List Char} {text marker : String} (guards : highlighter.Guards hidden c)
    (chars : marker.toList = c :: rest)
    (marks : highlighter.illegal = some (.ofPattern (.literal (c :: rest))))
    (inOrder : (highlighter.ignoring true).TakesInOrder (.ofString text)) :
    ∃ result, (highlighter.ignoring true).highlight text = .ok result ∧
      ((∃ strict, (highlighter.ignoring false).highlight text = .ok strict) ∧
          (∀ offset, ¬ result.Exposes text hidden marker offset) ∨
        ∃ illegal, (highlighter.ignoring false).highlight text = .error illegal ∧
          illegal.lexeme = marker ∧ result.Exposes text hidden marker illegal.offset ∧
          ∀ offset, result.Exposes text hidden marker offset → illegal.offset ≤ offset) := by
  obtain ⟨done, ran, outcome⟩ := run_exposed guards marks inOrder
  have same : ∀ place, Exposed (.ofString text) hidden (c :: rest) done.ground.nodes.reverse place ↔
      Exposed (.ofString text) hidden (c :: rest) done.ground.nodes place := by
    intro place
    constructor
    · rintro ⟨stands, shown⟩
      exact ⟨stands, fun hides => shown (Node.anyHides_reverse.mpr hides)⟩
    · rintro ⟨stands, shown⟩
      exact ⟨stands, fun hides => shown (Node.anyHides_reverse.mp hides)⟩
  obtain ⟨result, highlighted, source, nodes⟩ : ∃ result,
      (highlighter.ignoring true).highlight text = .ok result ∧
        result.source = .ofString text ∧ result.nodes = done.ground.nodes.reverse :=
    ⟨_, highlight_of_run ran, rfl, rfl⟩
  have exposes : ∀ offset, result.Exposes text hidden marker offset ↔
      ∃ place, Exposed (.ofString text) hidden (c :: rest) done.ground.nodes place ∧
        (Source.ofString text).offset place = offset := by
    intro offset
    rw [Highlight.exposes_iff source chars, nodes]
    simp only [same]
  refine ⟨result, highlighted, ?_⟩
  simp only [exposes]
  rcases outcome with ⟨strict, nothing⟩ | ⟨start, events, refused, exposed, least⟩
  · refine .inl ⟨⟨_, highlight_of_run strict⟩, ?_⟩
    rintro offset ⟨place, exposed, _⟩
    exact nothing place exposed
  · refine .inr ⟨_, highlight_of_refusal refused, ?_, ⟨start, exposed, rfl⟩, ?_⟩
    · have lexeme := (Source.ofString text).slice_of_holdsAt exposed.stands
      rw [← chars, String.ofList_toList, chars] at lexeme
      exact lexeme
    · rintro offset ⟨place, other, rfl⟩
      exact (Source.ofString text).offset_le (least place other)

end Highlighting
