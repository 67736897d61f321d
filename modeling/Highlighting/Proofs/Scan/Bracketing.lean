import Highlighting.Proofs.Scan.Descent
import Highlighting.Proofs.Scan.Opened
import Highlighting.Proofs.Text.Offsets

/-! # The trace of a scan

What happens in a scan reads like a text with brackets. A container opens right behind the match of its
rule and closes under the same name, from the place of this match on, when everything that opened inside
it has closed. A scan that comes to the end of the source closes all its brackets, and one that is
refused stops where it stands. -/
set_option autoImplicit false
namespace Highlighting

/-- A container that has opened and not closed, as it is told in the trace. -/
structure Opening where
  index : Nat
  scope : Option Scope
  start : Nat
deriving DecidableEq, Repr

def OpenContainer.opening (container : OpenContainer) : Opening :=
  ⟨container.index, container.rule.scope, container.start⟩

namespace ScanEvent

def isOpening : ScanEvent → Bool
  | opened _ _ => true
  | matched _ _ _ | closed _ _ _ _ | refused _ _ => false

def isClosing : ScanEvent → Bool
  | closed _ _ _ _ => true
  | matched _ _ _ | opened _ _ | refused _ _ => false

/-- Where a match starts. -/
def matchedAt? : ScanEvent → Option Nat
  | matched _ _ start => some start
  | opened _ _ | closed _ _ _ _ | refused _ _ => none

/-- How many containers the events open and do not close. -/
def unclosed (events : List ScanEvent) : Nat :=
  events.countP isOpening - events.countP isClosing

/-- What the events before it, the latest first, have to be: a container opens right behind the match of
its rule, and a match tells how many containers are open. -/
def Fits (highlighter : Highlighter) (earlier : List ScanEvent) : ScanEvent → Prop
  | opened index scope =>
      ∃ rule depth start stop before,
        earlier = .matched (.container index rule stop) depth start :: before ∧ rule.scope = scope ∧
          highlighter.rules[index]? = some (.container rule)
  | matched _ depth _ => depth = unclosed earlier
  | closed _ _ _ _ => True
  | refused _ _ => True

end ScanEvent

/-- Events in the order in which they happened, inside so many open containers. All containers that
open among them close again. -/
inductive Bracketed : Nat → List ScanEvent → Prop where
  | nothing (depth : Nat) : Bracketed depth []
  | flat {depth start : Nat} {found : Found} {rest : List ScanEvent} (flat : found.container? = none)
      (behind : Bracketed depth rest) : Bracketed depth (.matched found depth start :: rest)
  | nested {depth index start stop last : Nat} {rule : ContainerRule} {inner rest : List ScanEvent}
      (inside : Bracketed (depth + 1) inner) (behind : Bracketed depth rest) :
      Bracketed depth (.matched (.container index rule stop) depth start :: .opened index rule.scope ::
        (inner ++ .closed index rule.scope start last :: rest))

/-- Events that have happened so far, the latest first, with the containers that they have left open, the
innermost first. Each match starts behind all earlier ones. -/
inductive Traced (highlighter : Highlighter) : List ScanEvent → List Opening → Prop where
  | start : Traced highlighter [] []
  | flat {events : List ScanEvent} {unclosed : List Opening} {found : Found} {start : Nat}
      (traced : Traced highlighter events unclosed) (flat : found.container? = none)
      (behind : ∀ earlier ∈ events.filterMap ScanEvent.matchedAt?, earlier < start) :
      Traced highlighter (.matched found unclosed.length start :: events) unclosed
  | into {events : List ScanEvent} {unclosed : List Opening} {index start stop : Nat} {rule : ContainerRule}
      (traced : Traced highlighter events unclosed)
      (listed : highlighter.rules[index]? = some (.container rule))
      (behind : ∀ earlier ∈ events.filterMap ScanEvent.matchedAt?, earlier < start) :
      Traced highlighter
        (.opened index rule.scope :: .matched (.container index rule stop) unclosed.length start :: events)
        (⟨index, rule.scope, start⟩ :: unclosed)
  | out {events : List ScanEvent} {opening : Opening} {unclosed : List Opening} {stop : Nat}
      (traced : Traced highlighter events (opening :: unclosed)) :
      Traced highlighter (.closed opening.index opening.scope opening.start stop :: events) unclosed

namespace Traced
variable {highlighter : Highlighter} {events : List ScanEvent} {unclosed : List Opening}

/-! ## What a trace tells -/

theorem length_unclosed (traced : Traced highlighter events unclosed) :
    unclosed.length = ScanEvent.unclosed events := by
  have balance : unclosed.length + events.countP ScanEvent.isClosing =
      events.countP ScanEvent.isOpening := by
    induction traced with
    | start => rfl
    | flat traced flat behind ih => simpa [ScanEvent.isOpening, ScanEvent.isClosing] using ih
    | into traced listed behind ih =>
        simp [List.countP_cons, ScanEvent.isOpening, ScanEvent.isClosing]
        omega
    | out traced ih =>
        rw [List.length_cons] at ih
        simp [List.countP_cons, ScanEvent.isOpening, ScanEvent.isClosing]
        omega
  rw [ScanEvent.unclosed]
  omega

theorem matches_ascend (traced : Traced highlighter events unclosed) :
    (events.filterMap ScanEvent.matchedAt?).Pairwise (· > ·) := by
  induction traced with
  | start => exact .nil
  | flat traced flat behind ih => exact .cons behind ih
  | into traced listed behind ih => exact .cons behind ih
  | out traced ih => exact ih

/-- Every event of a trace fits the ones before it. -/
theorem fits (traced : Traced highlighter events unclosed) {event : ScanEvent} {earlier : List ScanEvent}
    (happened : event :: earlier <:+ events) : event.Fits highlighter earlier := by
  induction traced with
  | start => simp at happened
  | flat traced flat behind ih =>
      rcases List.suffix_cons_iff.mp happened with latest | before
      · cases latest
        exact traced.length_unclosed
      · exact ih before
  | into traced listed behind ih =>
      rcases List.suffix_cons_iff.mp happened with latest | before
      · cases latest
        exact ⟨_, _, _, _, _, rfl, rfl, listed⟩
      · rcases List.suffix_cons_iff.mp before with second | before
        · cases second
          exact traced.length_unclosed
        · exact ih before
  | out traced ih =>
      rcases List.suffix_cons_iff.mp happened with latest | before
      · cases latest
        trivial
      · exact ih before

/-- Refusals fit wherever they stand. -/
theorem fits_behind (traced : Traced highlighter events unclosed) {last : List ScanEvent}
    (refusals : ∀ event ∈ last, ∃ start stop, event = .refused start stop) {event : ScanEvent}
    {earlier : List ScanEvent} (happened : event :: earlier <:+ last ++ events) :
    event.Fits highlighter earlier := by
  induction last with
  | nil => exact traced.fits happened
  | cons refusal rest ih =>
      rcases List.suffix_cons_iff.mp happened with latest | before
      · obtain ⟨start, stop, rfl⟩ := refusals refusal List.mem_cons_self
        cases latest
        trivial
      · exact ih (fun event member => refusals event (List.mem_cons_of_mem _ member)) before

/-! ## Closing what is open -/

/-- The events close these containers one after the other, the innermost first, each behind what is
bracketed inside it. -/
def Closes : List Opening → List ScanEvent → Prop
  | [], events => Bracketed 0 events
  | opening :: outer, events =>
      ∃ inner last rest, events = inner ++ .closed opening.index opening.scope opening.start last :: rest ∧
        Bracketed (outer.length + 1) inner ∧ Closes outer rest

theorem exists_closes (unclosed : List Opening) : ∃ rest, Closes unclosed rest := by
  induction unclosed with
  | nil => exact ⟨[], .nothing 0⟩
  | cons opening outer ih =>
      obtain ⟨rest, closes⟩ := ih
      exact ⟨_, [], 0, rest, rfl, .nothing _, closes⟩

/-- What may come first inside brackets may come first before they close. -/
theorem Closes.behind {unclosed : List Opening} {rest : List ScanEvent} (front : List ScanEvent)
    (bracketed : ∀ tail, Bracketed unclosed.length tail → Bracketed unclosed.length (front ++ tail))
    (closes : Closes unclosed rest) : Closes unclosed (front ++ rest) := by
  cases unclosed with
  | nil => exact bracketed rest closes
  | cons opening outer =>
      obtain ⟨inner, last, behind, rfl, inside, outside⟩ := closes
      exact ⟨front ++ inner, last, behind, (List.append_assoc _ _ _).symm, bracketed inner inside, outside⟩

/-- A trace is the start of a bracketed one: whatever closes its containers completes it. -/
theorem bracketed (traced : Traced highlighter events unclosed) :
    ∀ {rest : List ScanEvent}, Closes unclosed rest → Bracketed 0 (events.reverse ++ rest) := by
  induction traced with
  | start => intro rest closes; exact closes
  | flat traced flat behind ih =>
      intro rest closes
      rw [List.reverse_cons, List.append_assoc]
      exact ih (closes.behind [_] fun tail inside => .flat flat inside)
  | @into events unclosed index start stop rule traced listed behind ih =>
      intro rest closes
      obtain ⟨inner, last, outside, rfl, inside, closes⟩ := closes
      let group := ScanEvent.matched (.container index rule stop) unclosed.length start ::
        .opened index rule.scope :: (inner ++ [.closed index rule.scope start last])
      have nested : Closes unclosed (group ++ outside) := by
        refine closes.behind group fun tail behind => ?_
        simpa [group] using Bracketed.nested inside behind
      simpa [group] using ih nested
  | @out events opening unclosed stop traced ih =>
      intro rest closes
      rw [List.reverse_cons, List.append_assoc]
      exact ih ⟨[], stop, rest, rfl, .nothing _, closes⟩

end Traced

/-! ## The trace of a run -/

namespace Scan

/-- The containers that are open, as the trace tells them. -/
def openings (scan : Scan) : List Opening :=
  scan.containers.map (·.opening)

theorem openings_pass (scan : Scan) (yield : Yield) (place : Nat) :
    (scan.pass yield place).openings = scan.openings := by
  obtain ⟨pos, ground, containers, relevance, stats, events⟩ := scan
  cases containers <;> rfl

theorem length_openings (scan : Scan) : scan.openings.length = scan.containers.length :=
  List.length_map _

/-- The events are a trace that leaves the open containers open, and all matches are behind the scan. -/
structure Told (highlighter : Highlighter) (scan : Scan) : Prop where
  traced : Traced highlighter scan.events scan.openings
  passed : ∀ start ∈ scan.events.filterMap ScanEvent.matchedAt?, start < scan.pos

theorem told_start (highlighter : Highlighter) : Told highlighter {} :=
  ⟨.start, List.forall_mem_nil _⟩

variable {highlighter : Highlighter} {scan : Scan}

theorem Told.pass (told : scan.Told highlighter) (yield : Yield) {place : Nat} (forth : scan.pos ≤ place) :
    (scan.pass yield place).Told highlighter := by
  constructor
  · rw [pass_events, openings_pass]
    exact told.traced
  · intro start member
    rw [pass_events] at member
    rw [pass_pos]
    exact Nat.lt_of_lt_of_le (told.passed start member) forth

/-- The place of a match is behind all earlier ones and before its end. -/
theorem Told.passed_match (told : scan.Told highlighter) (found : Found) {stop : Nat}
    (proper : scan.pos < stop) :
    ∀ start ∈ (Highlighter.matchEvents scan found).filterMap ScanEvent.matchedAt?, start < stop := by
  intro start member
  rcases List.mem_cons.mp member with rfl | earlier
  · exact proper
  · exact Nat.lt_trans (told.passed start earlier) proper

theorem Told.flat (told : scan.Told highlighter) {found : Found} (flat : found.container? = none)
    (yield : Yield) {stop : Nat} (proper : scan.pos < stop) :
    ((scan.pass yield stop).note (Highlighter.matchEvents scan found)).Told highlighter := by
  constructor
  · have traced := told.traced.flat flat told.passed
    rw [length_openings, ← openings_pass scan yield stop] at traced
    exact traced
  · rw [note_pos, pass_pos]
    exact told.passed_match found proper

theorem Told.goInto (told : scan.Told highlighter) {index stop : Nat} {rule : ContainerRule}
    (listed : highlighter.rules[index]? = some (.container rule)) (yield : Yield)
    (proper : scan.pos < stop) :
    (((scan.pass yield scan.pos).goInto index rule stop).note
      (.opened index rule.scope ::
        Highlighter.matchEvents scan (.container index rule stop))).Told highlighter := by
  constructor
  · have traced : Traced highlighter
        (.opened index rule.scope :: Highlighter.matchEvents scan (.container index rule stop))
        (⟨index, rule.scope, scan.pos⟩ :: scan.openings) := by
      rw [Highlighter.matchEvents, ← length_openings]
      exact told.traced.into listed told.passed
    change Traced highlighter _
      (⟨index, rule.scope, (scan.pass yield scan.pos).pos⟩ :: (scan.pass yield scan.pos).openings)
    rw [pass_pos, openings_pass]
    exact traced
  · exact told.passed_match (.container index rule stop) proper

theorem Told.close (told : scan.Told highlighter) : scan.close.Told highlighter := by
  cases opened : scan.containers with
  | nil => simpa only [Scan.close, opened] using told
  | cons inner outer =>
      have openings : scan.openings = inner.opening :: outer.map (·.opening) := by
        rw [Scan.openings, opened, List.map_cons]
      have left : (scan.goOut inner outer).openings = outer.map (·.opening) := openings_pass _ _ _
      have traced := told.traced
      rw [openings] at traced
      rw [close_eq scan opened]
      constructor
      · rw [← left] at traced
        exact traced.out
      · rw [note_pos, goOut_pos]
        exact told.passed

theorem closeAll_pos (scan : Scan) : scan.closeAll.pos = scan.pos :=
  closeAll_induction (motive := fun start last => last.pos = start.pos) (fun _ _ => rfl)
    (fun start _ _ _ kept => kept.trans start.close_pos) scan

theorem Told.closeAll (told : scan.Told highlighter) : scan.closeAll.Told highlighter := by
  refine closeAll_induction (motive := fun start last => start.Told highlighter → last.Told highlighter)
    ?_ ?_ scan told
  · exact fun _ _ told => told
  · exact fun _ _ _ _ later told => later told.close

end Scan

namespace Highlighter
variable {highlighter : Highlighter} {source : Source} {scan : Scan}

theorem take_told {found : Found} (ready : scan.Ready source) (told : scan.Told highlighter)
    (first : highlighter.firstMatch? source scan.pos (highlighter.rulesAt scan) = some found) :
    (highlighter.take source scan found).Told highlighter := by
  have proper := (firstMatch?_bounds ready.pos_le first).1
  obtain ⟨_, listed, _⟩ := firstMatch?_listed first
  cases found with
  | single index rule stop =>
      rw [take_single highlighter source ready.pending_le]
      exact told.flat rfl _ proper
  | parts index rule stop parts =>
      rw [take_parts highlighter source ready.pending_le]
      exact told.flat rfl _ proper
  | container index rule stop =>
      rw [take_container highlighter source ready.pending_le]
      exact told.goInto listed _ proper

theorem flush_told {place : Nat} (ready : scan.Ready source) (forth : scan.pos ≤ place)
    (told : scan.Told highlighter) :
    (highlighter.flush source { scan with pos := place }).Told highlighter := by
  rw [flush_moved highlighter source (Nat.le_trans ready.pending_le forth)]
  exact told.pass _ forth

/-- One turn adds to the trace what it does. -/
theorem step_told {next : Scan} (ready : scan.Ready source) (told : scan.Told highlighter)
    (turned : highlighter.step source scan = .ok next) : next.Told highlighter := by
  rcases step_cases turned with ⟨found, first, rfl⟩ | ⟨stop, closes, rfl⟩ | rfl
  · exact take_told ready told first
  · exact (flush_told ready (closerStop?_bounds ready.pos_le closes).1 told).close
  · refine ⟨told.traced, ?_⟩
    intro start member
    exact Nat.lt_succ_of_lt (told.passed start member)

theorem Reaches.told (reached : highlighter.Reaches source scan) : scan.Told highlighter :=
  reached.induction (Scan.told_start highlighter) fun visits told turned =>
    step_told visits.reached.ready told turned

/-- What a refusal in front of the scan tells. -/
def refusalAt (scan : Scan) (stop : Nat) : Refusal :=
  ⟨scan.pos, stop, .refused scan.pos stop :: scan.events⟩

theorem step_refused {refusal : Refusal} (turned : highlighter.step source scan = .error refusal) :
    ∃ stop, refusal = refusalAt scan stop := by
  unfold step at turned
  split at turned
  · cases turned
  · split at turned
    · cases turned
    · split at turned
      · next stop illegal =>
          cases turned
          exact ⟨stop, rfl⟩
      · cases turned

theorem turns_refused {count : Nat} {refusal : Refusal} :
    ∀ {scan : Scan}, highlighter.Reaches source scan →
      highlighter.turns source count scan = .error refusal →
        ∃ last stop, highlighter.Reaches source last ∧ refusal = refusalAt last stop := by
  induction count with
  | zero => exact fun _ turned => nomatch turned
  | succ count ih =>
      intro scan reached turned
      by_cases inside : scan.pos < source.size
      · rw [turns_succ count inside] at turned
        split at turned
        · next next stepped => exact ih (Visits.next ⟨reached, inside⟩ stepped) turned
        · next refusal stepped =>
            cases turned
            obtain ⟨stop, rfl⟩ := step_refused stepped
            exact ⟨scan, stop, reached, rfl⟩
      · rw [turns_of_end _ (Nat.not_lt.mp inside)] at turned
        exact nomatch turned

/-- A run comes to an end, or it is refused where it stands. -/
theorem run_cases (highlighter : Highlighter) (source : Source) :
    ∃ scan, highlighter.Reaches source scan ∧
      (highlighter.run source = .ok (highlighter.finish source scan) ∨
        ∃ stop, highlighter.run source = .error (refusalAt scan stop)) := by
  unfold run
  split
  · next scan turned => exact ⟨scan, ⟨_, turned⟩, .inl rfl⟩
  · next refusal turned =>
      obtain ⟨scan, stop, reached, rfl⟩ := turns_refused ⟨0, rfl⟩ turned
      exact ⟨scan, reached, .inr ⟨stop, rfl⟩⟩

theorem finish_told (reached : highlighter.Reaches source scan) :
    (highlighter.finish source scan).Told highlighter :=
  (flush_told reached.ready (Nat.le_refl _) reached.told).closeAll

theorem finish_openings (highlighter : Highlighter) (source : Source) (scan : Scan) :
    (highlighter.finish source scan).openings = [] := by
  rw [finish, Scan.openings, Scan.closeAll_closed, List.map_nil]

theorem finish_pos (ready : scan.Ready source) : (highlighter.finish source scan).pos = scan.pos := by
  rw [finish, Scan.closeAll_pos, flush_eq highlighter source ready.pending_le, Scan.pass_pos]

/-- What a scan tells, the latest first, is the trace of all that it did, behind the refusal in which it
ends, if it ends in one. -/
theorem scan_events (highlighter : Highlighter) (source : Source) :
    ∃ (scan : Scan) (last : List ScanEvent), scan.Told highlighter ∧ scan.pos ≤ source.size ∧
      (highlighter.scan source).events = (last ++ scan.events).reverse ∧
      ((∃ result, (highlighter.scan source).result = .ok result) ∧ last = [] ∧ scan.openings = [] ∨
        ∃ illegal stop, (highlighter.scan source).result = .error illegal ∧
          last = [.refused scan.pos stop]) := by
  unfold Highlighter.scan
  obtain ⟨scan, reached, ran | ⟨stop, ran⟩⟩ := highlighter.run_cases source
  · rw [ran]
    have inside : (highlighter.finish source scan).pos ≤ source.size :=
      finish_pos reached.ready ▸ reached.ready.pos_le
    exact ⟨_, [], finish_told reached, inside, rfl, .inl ⟨⟨_, rfl⟩, rfl, finish_openings _ _ _⟩⟩
  · rw [ran]
    exact ⟨scan, _, reached.told, reached.ready.pos_le, rfl, .inr ⟨_, stop, rfl, rfl⟩⟩

/-- The trace of a scan is well bracketed. Every opening comes right behind the match of its container,
every match tells how many containers are open, and matches start one behind the other. A scan that is
not refused closes what it opens, and one that is refused ends there, in the middle of such a trace. -/
theorem trace_bracketed (highlighter : Highlighter) (source : Source) :
    let outcome := highlighter.scan source
    (∀ before index scope after, outcome.events = before ++ .opened index scope :: after →
      ∃ earlier rule depth start stop,
        before = earlier ++ [.matched (.container index rule stop) depth start] ∧ rule.scope = scope ∧
          highlighter.rules[index]? = some (.container rule)) ∧
    (∀ before found depth start after, outcome.events = before ++ .matched found depth start :: after →
      depth = ScanEvent.unclosed before) ∧
    ((outcome.events.filterMap ScanEvent.matchedAt?).map source.offset).Pairwise (· < ·) ∧
    (∀ result, outcome.result = .ok result → Bracketed 0 outcome.events) ∧
    ∀ illegal, outcome.result = .error illegal →
      ∃ before start stop, outcome.events = before ++ [.refused start stop] ∧
        ∃ rest, Bracketed 0 (before ++ rest) := by
  intro outcome
  obtain ⟨scan, last, told, inside, events, ended⟩ := highlighter.scan_events source
  have refusals : ∀ event ∈ last, ∃ start stop, event = .refused start stop := by
    rcases ended with ⟨_, rfl, _⟩ | ⟨_, stop, _, rfl⟩
    · exact List.forall_mem_nil _
    · exact List.forall_mem_singleton.mpr ⟨_, _, rfl⟩
  have fits : ∀ before event after, outcome.events = before ++ event :: after →
      event.Fits highlighter before.reverse := by
    intro before event after split
    refine told.traced.fits_behind refusals ⟨after.reverse, ?_⟩
    rw [← List.reverse_inj, ← events, split]
    simp
  refine ⟨?_, ?_, ?_, ?_, ?_⟩
  · intro before index scope after split
    obtain ⟨rule, depth, start, stop, earlier, behind, named, listed⟩ := fits _ _ _ split
    refine ⟨earlier.reverse, rule, depth, start, stop, ?_, named, listed⟩
    rw [← List.reverse_cons, ← behind, List.reverse_reverse]
  · intro before found depth start after split
    rw [fits _ _ _ split, ScanEvent.unclosed, ScanEvent.unclosed, List.countP_reverse, List.countP_reverse]
  · have starts : outcome.events.filterMap ScanEvent.matchedAt? =
        (scan.events.filterMap ScanEvent.matchedAt?).reverse := by
      have silent : last.filterMap ScanEvent.matchedAt? = [] := by
        rw [List.filterMap_eq_nil_iff]
        intro event member
        obtain ⟨start, stop, rfl⟩ := refusals event member
        rfl
      rw [events, List.filterMap_reverse, List.filterMap_append, silent, List.nil_append]
    rw [starts, List.map_reverse, List.pairwise_reverse, List.pairwise_map]
    refine told.traced.matches_ascend.imp_of_mem fun later earlier before => ?_
    exact source.offset_lt before (Nat.le_of_lt (Nat.lt_of_lt_of_le (told.passed _ later) inside))
  · intro result succeeded
    rcases ended with ⟨_, rfl, closed⟩ | ⟨illegal, stop, failed, _⟩
    · have closes : Traced.Closes scan.openings [] := by
        rw [closed]
        exact .nothing 0
      have bracketed := told.traced.bracketed closes
      rwa [List.append_nil, ← List.nil_append scan.events, ← events] at bracketed
    · exact nomatch succeeded.symm.trans failed
  · intro illegal failed
    rcases ended with ⟨⟨result, succeeded⟩, _⟩ | ⟨_, stop, _, rfl⟩
    · exact nomatch succeeded.symm.trans failed
    · obtain ⟨rest, closes⟩ := Traced.exists_closes scan.openings
      refine ⟨scan.events.reverse, scan.pos, stop, ?_, rest, told.traced.bracketed closes⟩
      rw [events, List.singleton_append, List.reverse_cons]

end Highlighter

end Highlighting
