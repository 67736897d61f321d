import Highlighting.Proofs.Scan.Tally

/-! # Counters of a run

At every point of a run the matches that were taken and the words that were found so far account for
the counters of the scan and for the marks in all its nodes. Only the containers that are still open
have not been marked yet. Each turn keeps this, and so does closing what is open at the end. So no word
and no marked match is lost or counted twice on the way to the final tree. -/
set_option autoImplicit false
namespace Highlighting

namespace ScanEvent

def found? : ScanEvent → Option Found
  | matched found _ _ => some found
  | opened _ _ => none
  | closed _ _ _ _ => none
  | refused _ _ => none

/-- The matches among the events. -/
def taken (events : List ScanEvent) : List Found :=
  events.filterMap found?

/-- The ranges that are marked at an event. -/
def marks : ScanEvent → List Marking
  | matched found _ start => found.marks start
  | opened _ _ => []
  | closed _ scope start stop => Marking.ofScope scope start stop
  | refused _ _ => []

end ScanEvent

/-! ## Scans -/

namespace Found

/-- How many marks a match stands for. -/
def marked (found : Found) : Nat :=
  found.isMarked.toNat + found.markedParts

/-- How many of them have to wait until a container closes. -/
def opens : Found → Nat
  | single _ _ _ => 0
  | parts _ _ _ _ => 0
  | container _ rule _ => rule.scope.isSome.toNat

theorem length_marks (found : Found) (start : Nat) :
    (found.marks start).length + found.opens = found.marked := by
  cases found with
  | single index rule stop => exact Marking.length_ofScope rule.scope start stop
  | parts index rule stop located =>
      rw [marks, Part.length_marks, opens, marked, isMarked, markedParts, pieces]
      exact Nat.add_comm _ _
  | container index rule stop => exact Nat.zero_add _

end Found

namespace Scan

/-- Everything that a scan has gathered at its levels, the innermost level first. -/
def gathered (scan : Scan) : Yield where
  nodes := scan.containers.flatMap (·.level.nodes) ++ scan.ground.nodes
  relevance := scan.relevance
  stats := scan.stats

/-- How many open containers will be marked. -/
def opened (scan : Scan) : Nat :=
  scan.containers.countP (·.rule.scope.isSome)

theorem gathered_pass (scan : Scan) (yield : Yield) (place : Nat) :
    (scan.pass yield place).gathered.Alike (scan.gathered ++ yield) := by
  constructor
  case relevance => exact pass_relevance scan yield place
  case stats => exact pass_stats scan yield place
  case marked =>
    obtain ⟨pos, ground, containers, relevance, stats, events⟩ := scan
    cases containers with
    | nil =>
        have marked := Node.marksAll_pushAll_append ground.nodes yield.nodes []
        rw [List.append_nil, List.append_nil] at marked
        exact marked
    | cons inner outer =>
        have marked := Node.marksAll_pushAll_append inner.level.nodes yield.nodes
          (outer.flatMap (·.level.nodes) ++ ground.nodes)
        rw [← List.append_assoc, ← List.append_assoc] at marked
        exact marked

theorem opened_note (scan : Scan) (events : List ScanEvent) : (scan.note events).opened = scan.opened :=
  rfl

theorem opened_goInto (scan : Scan) (index : Nat) (rule : ContainerRule) (stop : Nat) :
    (scan.goInto index rule stop).opened = scan.opened + rule.scope.isSome.toNat := by
  rw [opened, goInto, List.countP_cons, opened]
  cases rule.scope <;> rfl

theorem opened_pass (scan : Scan) (yield : Yield) (place : Nat) :
    (scan.pass yield place).opened = scan.opened := by
  obtain ⟨pos, ground, containers, relevance, stats, events⟩ := scan
  cases containers <;> rfl

/-- A container that is left hands its nodes on and is marked itself. -/
theorem gathered_goOut (scan : Scan) {inner : OpenContainer} {outer : List OpenContainer}
    (here : scan.containers = inner :: outer) :
    (scan.goOut inner outer).gathered.Alike
      (scan.gathered ++ { nodes := Yield.wrapped inner.rule.scope inner.start scan.pos [] }) := by
  have passed := gathered_pass { scan with containers := outer }
    { nodes := Yield.wrapped inner.rule.scope inner.start scan.pos inner.level.nodes.reverse } scan.pos
  constructor
  case relevance => exact passed.relevance
  case stats => exact passed.stats
  case marked =>
    refine passed.marked.trans ?_
    simp only [gathered, here, Yield.append_def, Node.marksAll_append, Yield.marksAll_wrapped,
      List.flatMap_cons, Node.marksAll, List.append_nil, List.perm_iff_count, List.count_append]
    intro mark
    have order := (Node.marksAll_reverse inner.level.nodes).count_eq mark
    omega

theorem opened_goOut (scan : Scan) {inner : OpenContainer} {outer : List OpenContainer}
    (here : scan.containers = inner :: outer) :
    (scan.goOut inner outer).opened + inner.rule.scope.isSome.toNat = scan.opened := by
  rw [goOut, opened_pass, opened, opened, here, List.countP_cons]
  cases inner.rule.scope <;> rfl

/-- The counters and the marks of a scan are those of its events and of the words found so far, except
that open containers are yet to be marked. -/
structure Accounts (source : Source) (words : List Marking) (scan : Scan) : Prop where
  sums : scan.gathered.Accounts source (ScanEvent.taken scan.events) words
    (scan.events.flatMap (·.marks))
  balance : (scan.events.flatMap (·.marks)).length + scan.opened =
    ((ScanEvent.taken scan.events).map (·.marked)).sum

variable {source : Source} {words wordsBehind : List Marking} {scan : Scan}

theorem accounts_start (source : Source) : ({} : Scan).Accounts source [] :=
  ⟨⟨rfl, rfl, rfl, .refl _⟩, rfl⟩

/-- New events account for what a scan gathers in addition. -/
theorem Accounts.gather (accounts : scan.Accounts source words) {next : Scan} {yield : Yield}
    (new : List ScanEvent) (alike : next.gathered.Alike (scan.gathered ++ yield))
    (events : next.events = new ++ scan.events)
    (told : yield.Accounts source (ScanEvent.taken new) wordsBehind (new.flatMap (·.marks)))
    (balance : (new.flatMap (·.marks)).length + next.opened =
      ((ScanEvent.taken new).map (·.marked)).sum + scan.opened) :
    next.Accounts source (words ++ wordsBehind) := by
  have taken : ScanEvent.taken next.events =
      ScanEvent.taken new ++ ScanEvent.taken scan.events := by
    rw [events, ScanEvent.taken, List.filterMap_append]
    rfl
  have marks : next.events.flatMap (·.marks) =
      new.flatMap (·.marks) ++ scan.events.flatMap (·.marks) := by
    rw [events, List.flatMap_append]
  constructor
  case sums =>
    rw [taken, marks]
    exact ((accounts.sums.append told).of_alike alike).of_perm List.perm_append_comm
      List.perm_append_comm
  case balance =>
    have before := accounts.balance
    rw [taken, marks, List.length_append, List.map_append, List.sum_append]
    omega

/-- Passing text that has been sorted accounts for its words. -/
theorem Accounts.passText (accounts : scan.Accounts source words) (table : Option WordTable)
    (start stop place : Nat) :
    (scan.pass (.ofText source table start stop) place).Accounts source
      (words ++ foundIn source table start stop) := by
  refine accounts.gather [] (gathered_pass _ _ _) (pass_events _ _ _)
    (Yield.accounts_ofText source table start stop) ?_
  rw [opened_pass]
  rfl

theorem Accounts.closed (accounts : scan.Accounts source words) {inner : OpenContainer}
    {outer : List OpenContainer} (here : scan.containers = inner :: outer) :
    scan.close.Accounts source words := by
  have marked : Node.marksAll (Yield.wrapped inner.rule.scope inner.start scan.pos []) =
      Marking.ofScope inner.rule.scope inner.start scan.pos := by
    rw [Yield.marksAll_wrapped, Node.marksAll, List.append_nil]
  have told := Yield.accounts_nodes source
    (Yield.wrapped inner.rule.scope inner.start scan.pos [])
  rw [marked] at told
  have balance := opened_goOut scan here
  rw [close_eq scan here, ← List.append_nil words]
  refine accounts.gather [.closed inner.index inner.rule.scope inner.start scan.pos]
    (gathered_goOut scan here) rfl ?_ ?_
  · rwa [List.flatMap_singleton]
  · rw [List.flatMap_singleton, ScanEvent.marks, Marking.length_ofScope, opened_note]
    simp only [ScanEvent.taken, List.filterMap_cons, ScanEvent.found?, List.filterMap_nil,
      List.map_nil, List.sum_nil]
    omega

theorem Accounts.closedAll (accounts : scan.Accounts source words) :
    scan.closeAll.Accounts source words := by
  refine closeAll_induction (motive := fun first last =>
    first.Accounts source words → last.Accounts source words) ?_ ?_ scan accounts
  · exact fun _ _ accounts => accounts
  · exact fun _ _ _ here closed accounts => closed (accounts.closed here)

theorem Accounts.passChar (accounts : scan.Accounts source words) :
    scan.passChar.Accounts source words :=
  ⟨⟨accounts.sums.matched, accounts.sums.hits, accounts.sums.relevance, accounts.sums.marked⟩,
    accounts.balance⟩

end Scan

/-! ## Runs -/

namespace Highlighter

section Words
variable (highlighter : Highlighter) (source : Source)

/-- The words in the pending text of a scan, up to a place. -/
def pendingWords (scan : Scan) (place : Nat) : List Marking :=
  foundIn source (highlighter.wordsAt scan) scan.level.pending place

/-- The words that one turn finds. -/
def turnWords (scan : Scan) : List Marking :=
  match highlighter.firstMatch? source scan.pos (highlighter.rulesAt scan) with
  | some found =>
      highlighter.pendingWords source scan scan.pos ++
        found.words source (highlighter.wordsAt scan) scan.pos
  | none =>
      match closerStop? source scan with
      | some stop => highlighter.pendingWords source scan stop
      | none => []

/-- The words that are found where a scan has come to stand. At the end of the source they are those
in the text that is still pending. -/
def visitWords (scan : Scan) : List Marking :=
  if scan.pos < source.size then highlighter.turnWords source scan
  else highlighter.pendingWords source scan scan.pos

/-- The scans that a run goes through in so many turns. -/
def path : Nat → Scan → List Scan
  | 0, scan => [scan]
  | count + 1, scan =>
      if scan.pos < source.size then
        match highlighter.step source scan with
        | .ok next => scan :: path count next
        | .error _ => [scan]
      else [scan]

/-- All words that a run finds, in the order in which it finds them. -/
def sortedWords : List Marking :=
  (highlighter.path source (2 * source.size) {}).flatMap (highlighter.visitWords source)

end Words

variable {highlighter : Highlighter} {source : Source} {scan : Scan} {words : List Marking}

theorem take_accounts (ordered : scan.level.pending ≤ scan.pos) (accounts : scan.Accounts source words)
    (found : Found) :
    (highlighter.take source scan found).Accounts source
      (words ++ (highlighter.pendingWords source scan scan.pos ++
        found.words source (highlighter.wordsAt scan) scan.pos)) := by
  have told : (highlighter.pendingYield source scan ++
      highlighter.matchYield source scan found).Accounts source [found]
        (highlighter.pendingWords source scan scan.pos ++
          found.words source (highlighter.wordsAt scan) scan.pos) (found.marks scan.pos) :=
    (Yield.accounts_ofText source (highlighter.wordsAt scan) scan.level.pending scan.pos).append
      (highlighter.accounts_matchYield source scan found)
  have gathered := Scan.gathered_pass scan (highlighter.pendingYield source scan ++
    highlighter.matchYield source scan found)
  have opened := Scan.opened_pass scan (highlighter.pendingYield source scan ++
    highlighter.matchYield source scan found)
  have marks : [ScanEvent.matched found scan.containers.length scan.pos].flatMap (·.marks) =
      found.marks scan.pos := List.flatMap_singleton _ _
  have balance := found.length_marks scan.pos
  have passed : found.opens = 0 → ∀ stop,
      ((scan.pass (highlighter.pendingYield source scan ++ highlighter.matchYield source scan found)
        stop).note (matchEvents scan found)).Accounts source
          (words ++ (highlighter.pendingWords source scan scan.pos ++
            found.words source (highlighter.wordsAt scan) scan.pos)) := by
    intro settled stop
    refine accounts.gather [.matched found scan.containers.length scan.pos] (gathered stop) rfl
      (marks ▸ told) ?_
    rw [settled, Nat.add_zero] at balance
    rw [marks, Scan.opened_note, opened stop]
    exact congrArg (· + scan.opened) balance
  cases found with
  | single index rule stop =>
      rw [take_single highlighter source ordered]
      exact passed rfl stop
  | parts index rule stop located =>
      rw [take_parts highlighter source ordered]
      exact passed rfl stop
  | container index rule stop =>
      -- The level inside the container has gathered nothing yet.
      rw [take_container highlighter source ordered]
      refine accounts.gather
        [.opened index rule.scope, .matched _ scan.containers.length scan.pos] (gathered scan.pos)
        rfl told ?_
      rw [Scan.opened_note, Scan.opened_goInto, opened scan.pos, ← Nat.add_assoc, Nat.add_right_comm]
      exact congrArg (· + scan.opened) balance

theorem close_accounts {stop : Nat} (ordered : scan.level.pending ≤ stop)
    (accounts : scan.Accounts source words) (closes : closerStop? source scan = some stop) :
    (highlighter.flush source { scan with pos := stop }).close.Accounts source
      (words ++ highlighter.pendingWords source scan stop) := by
  obtain ⟨inner, outer, here, _⟩ := closerStop?_opened closes
  have passed := accounts.passText (highlighter.wordsAt scan) scan.level.pending stop stop
  rw [flush_moved highlighter source ordered]
  exact passed.closed (Scan.pass_containers _ _ _ here)

/-- One turn accounts for the words that it finds. -/
theorem step_accounts {next : Scan} (ready : scan.Ready source) (accounts : scan.Accounts source words)
    (turned : highlighter.step source scan = .ok next) :
    next.Accounts source (words ++ highlighter.turnWords source scan) := by
  rw [turnWords]
  cases first : highlighter.firstMatch? source scan.pos (highlighter.rulesAt scan) with
  | some found =>
      rw [step_of_match first] at turned
      cases turned
      exact take_accounts ready.pending_le accounts found
  | none =>
      cases closes : closerStop? source scan with
      | some stop =>
          rw [step_of_closer first closes] at turned
          cases turned
          have forth := (closerStop?_bounds ready.pos_le closes).1
          exact close_accounts (Nat.le_trans ready.pending_le forth) accounts closes
      | none =>
          cases illegal : highlighter.illegalStop? source scan with
          | some stop =>
              rw [step_of_illegal first closes illegal] at turned
              exact nomatch turned
          | none =>
              rw [step_of_plain first closes illegal] at turned
              cases turned
              rw [List.append_nil]
              exact accounts.passChar

theorem finish_accounts (ready : scan.Ready source) (accounts : scan.Accounts source words) :
    (highlighter.finish source scan).Accounts source
      (words ++ highlighter.pendingWords source scan scan.pos) := by
  rw [finish, flush_eq highlighter source ready.pending_le]
  exact (accounts.passText (highlighter.wordsAt scan) scan.level.pending scan.pos scan.pos).closedAll

/-- A run accounts for the words that are found on its path, turn by turn and at its end. -/
theorem turns_account {count : Nat} :
    ∀ {scan last : Scan} {words : List Marking}, scan.Ready source → scan.weight source ≤ count →
      scan.Accounts source words → highlighter.turns source count scan = .ok last →
        (highlighter.finish source last).Accounts source
          (words ++ (highlighter.path source count scan).flatMap (highlighter.visitWords source)) := by
  have ended : ∀ {scan : Scan} {words : List Marking}, scan.Ready source → ¬ scan.pos < source.size →
      scan.Accounts source words → (highlighter.finish source scan).Accounts source
        (words ++ [scan].flatMap (highlighter.visitWords source)) := by
    intro scan words ready outside accounts
    rw [List.flatMap_singleton, visitWords, if_neg outside]
    exact finish_accounts ready accounts
  induction count with
  | zero =>
      intro scan last words ready enough accounts turned
      cases turned
      refine ended ready ?_ accounts
      simp only [Scan.weight] at enough
      omega
  | succ count ih =>
      intro scan last words ready enough accounts turned
      rw [path]
      by_cases inside : scan.pos < source.size
      · rw [turns_succ count inside] at turned
        rw [if_pos inside]
        cases stepped : highlighter.step source scan with
        | error refusal =>
            rw [stepped] at turned
            cases turned
        | ok next =>
            rw [stepped] at turned
            obtain ⟨readyNext, less⟩ := step_ready ready inside stepped
            rw [List.flatMap_cons, visitWords, if_pos inside, ← List.append_assoc]
            exact ih readyNext (by omega) (step_accounts ready accounts stepped) turned
      · rw [turns_of_end _ (Nat.not_lt.mp inside)] at turned
        cases turned
        rw [if_neg inside]
        exact ended ready inside accounts

theorem run_accounts {done : Scan} (ran : highlighter.run source = .ok done) :
    done.Accounts source (highlighter.sortedWords source) ∧ done.containers = [] := by
  rw [run_eq_resume] at ran
  have ready := Scan.ready_start source
  obtain ⟨last, turned, _, rfl⟩ := resume_ok ready ran
  exact ⟨turns_account ready (Nat.le_refl _) (Scan.accounts_start source) turned,
    Scan.closeAll_closed _⟩

end Highlighter

/-- The matches that were taken, in order. -/
def Outcome.taken (outcome : Outcome) : List Found :=
  ScanEvent.taken outcome.events

theorem Found.sum_marked (taken : List Found) :
    (taken.map (·.marked)).sum = taken.countP (·.isMarked) + (taken.map (·.markedParts)).sum := by
  induction taken with
  | nil => rfl
  | cons found rest ih =>
      rw [List.map_cons, List.sum_cons, ih, List.countP_cons, List.map_cons, List.sum_cons, marked]
      cases found.isMarked <;> simp <;> omega

namespace Highlighter

/-- The counters of a result and its regions are those of the matches that were taken and of the words
that were found; its relevance is their sum in 32 bits. Every word and every marked match is a region
once, and there are no other regions. -/
theorem highlight_accounts (highlighter : Highlighter) (text : String) (result : Highlight)
    (highlighted : highlighter.highlight text = .ok result) :
    let source := Source.ofString text
    let outcome := highlighter.scan source
    let words := highlighter.sortedWords source
    result.stats.ruleMatches = outcome.taken.length ∧
    result.stats.keywordHits = words.length ∧
    result.relevance =
      ((outcome.taken.map (·.relevance)).sum + words.countP (Marking.Counts source ·)) % UInt32.size ∧
    result.regions.length =
      words.length + outcome.taken.countP (·.isMarked) + (outcome.taken.map (·.markedParts)).sum ∧
    (result.scopes.map (·.marking)).Perm (words ++ outcome.events.flatMap (·.marks)) := by
  intro source outcome words
  unfold highlight Highlighter.scan at highlighted
  split at highlighted
  · next done ran =>
      cases highlighted
      obtain ⟨accounts, closed⟩ := run_accounts ran
      have events : outcome.events = done.events.reverse := by
        simp only [outcome, Highlighter.scan, source, ran]
      have nodes : done.gathered.nodes = done.ground.nodes := by
        rw [Scan.gathered, closed]
        rfl
      have taken : (ScanEvent.taken done.events).Perm outcome.taken := by
        rw [Outcome.taken, events, ScanEvent.taken, ScanEvent.taken, List.filterMap_reverse]
        exact (List.reverse_perm _).symm
      have marks : (done.events.flatMap (·.marks)).Perm (outcome.events.flatMap (·.marks)) := by
        rw [events]
        exact (List.reverse_perm _).symm.flatMap_right _
      have sums := accounts.sums.of_perm taken marks
      have marked : ((Node.scopesAll 0 done.ground.nodes.reverse).map (·.marking)).Perm
          (words ++ outcome.events.flatMap (·.marks)) := by
        rw [Node.scopesAll_map_marking, ← nodes]
        exact (Node.marksAll_reverse _).trans sums.marked
      have balance : (outcome.events.flatMap (·.marks)).length =
          outcome.taken.countP (·.isMarked) + (outcome.taken.map (·.markedParts)).sum := by
        have balance := accounts.balance
        rw [Scan.opened, closed, Found.sum_marked] at balance
        rw [← marks.length_eq, ← taken.countP_eq, ← (taken.map (·.markedParts)).sum_nat]
        exact balance
      refine ⟨sums.matched, sums.hits, congrArg (· % UInt32.size) sums.relevance, ?_, marked⟩
      have length := marked.length_eq
      rw [List.length_map, List.length_append, balance] at length
      rw [Highlight.regions_eq, List.length_map, Nat.add_assoc]
      exact length
  · exact nomatch highlighted

end Highlighter

namespace Clauses

/-- Pairs of which only the first part is marked, and lists with words of their own. -/
def language : Language where
  name := "clauses"
  keywords := { keyword := ["if", "let"], operator := ["=="] }
  rules :=
    [.parts { parts := ["[a-z]+", ":", "[a-z]+"], scopes := [(1, .symbol)], relevance := 2 },
      .container
        { scope := some .metadata, opener := "\\(", closer := "\\)",
          keywords := some { literal := ["nil"] } }
        [.enclosing, .single { scope := some .number, opener := "[0-9]+", relevance := 0 }]]

theorem compiles : (Highlighter.ofLanguage language).toOption.isSome = true := by
  decide +kernel

def highlighter : Highlighter :=
  (Highlighter.ofLanguage language).toOption.get compiles

/-- The last list is not closed, and two of the four words count nothing. -/
def text : String := "x:let (nil 1) if == ("

theorem clauses_account :
    ∃ result, highlighter.highlight text = .ok result ∧
      highlighter.sortedWords (.ofString text) =
        [⟨.keyword, 2, 5⟩, ⟨.literal, 7, 10⟩, ⟨.keyword, 14, 16⟩, ⟨.operator, 17, 19⟩] ∧
      result.stats.ruleMatches = 4 ∧ result.stats.keywordHits = 4 ∧ result.relevance = 6 ∧
      result.regions.length = 8 := by
  have legal : (highlighter.highlight text).toOption.isSome = true := by
    decide +kernel
  have words : highlighter.sortedWords (.ofString text) =
      [⟨.keyword, 2, 5⟩, ⟨.literal, 7, 10⟩, ⟨.keyword, 14, 16⟩, ⟨.operator, 17, 19⟩] := by
    decide +kernel
  have sums :
      let taken := (highlighter.scan (.ofString text)).taken
      let words := highlighter.sortedWords (.ofString text)
      taken.length = 4 ∧ words.length = 4 ∧
        (taken.map (·.relevance)).sum + words.countP (Marking.Counts (.ofString text) ·) = 6 ∧
        words.length + taken.countP (·.isMarked) + (taken.map (·.markedParts)).sum = 8 := by
    decide +kernel
  cases highlighted : highlighter.highlight text with
  | error illegal =>
      rw [highlighted] at legal
      exact nomatch legal
  | ok result =>
      obtain ⟨matched, hits, relevance, regions, _⟩ :=
        Highlighter.highlight_accounts highlighter text result highlighted
      exact ⟨result, rfl, words, matched.trans sums.1, hits.trans sums.2.1,
        relevance.trans (congrArg (· % UInt32.size) sums.2.2.1), regions.trans sums.2.2.2⟩

end Clauses

end Highlighting
