import Highlighting.Proofs.Jacy.CallRule
import Highlighting.Proofs.Jacy.Identifiers
import Highlighting.Proofs.Scan.Lasting
import Highlighting.Proofs.Scan.Nesting

/-! # Calls in Jacy

A name is marked as a call where a parenthesis opens behind it and behind blanks, unless it is a keyword.
Operators that are words are no keywords, so that they are calls too in front of a parenthesis. -/
set_option autoImplicit false
namespace Highlighting.Jacy

/-- The operators that are words. -/
def wordOperators : List String :=
  operators.filter fun operator => operator.toList.all (·.isAlpha)

example : wordOperators = ["not", "or", "and"] := by decide

/-! ## Calls in a scan -/

/-- The rules that come before that of calls. -/
def earlier : List Nat :=
  Ready.root.dropLast

theorem root_eq : Ready.root = earlier ++ [22] := by decide

theorem scope_of_calls : ∀ rule ∈ Ready.rules, Scope.titleFunctionInvoke ∈ rule.ownScopes →
    rule = .single Ready.call := by
  decide +kernel

theorem calls_outside : ∀ rule ∈ Ready.highlighter.containerRules, ∀ index ∈ rule.rules,
    Ready.rules[index]? ≠ some (.single Ready.call) := by
  decide +kernel

theorem tables_without_calls : ∀ table ∈ Ready.highlighter.tables,
    Scope.titleFunctionInvoke ∉ table.scopes := by
  decide +kernel

theorem firstMatch?_append {highlighter : Highlighter} {source : Source} {place : Nat}
    {first second : List Nat} (nothing : ∀ index ∈ first, ∀ rule ∈ highlighter.rules[index]?,
      rule.match? source place index = none) :
    highlighter.firstMatch? source place (first ++ second) =
      highlighter.firstMatch? source place second := by
  induction first with
  | nil => rfl
  | cons index rest ih =>
      obtain ⟨here, others⟩ := List.forall_mem_cons.mp nothing
      have missing : highlighter.rules[index]?.bind (·.match? source place index) = none := by
        cases listed : highlighter.rules[index]? with
        | none => rfl
        | some rule => exact here rule listed
      rw [List.cons_append, Highlighter.firstMatch?, missing]
      exact ih others

section Scans
variable {source : Source} {place : Nat} {word : String} {ignore : Bool}

/-- The rules before that of calls do not match at the place. -/
def Spares (source : Source) (place : Nat) : Prop :=
  ∀ index ∈ earlier, ∀ rule ∈ Ready.rules[index]?, rule.match? source place index = none

/-- Outside of all containers a word before a parenthesis is taken for a call if no other rule takes it. -/
theorem firstMatch?_of_called {name : List Char} (callable : Callable word name)
    (called : Called source word place) (spares : Spares source place) :
    (Ready.highlighter.ignoring ignore).firstMatch? source place Ready.root =
      some (.single 22 Ready.call (place + word.length)) := by
  have nothing : ∀ index ∈ earlier, ∀ rule ∈ (Ready.highlighter.ignoring ignore).rules[index]?,
      rule.match? source place index = none := spares
  have call : (Ready.highlighter.ignoring ignore).rules[22]? = some (.single Ready.call) := rfl
  rw [root_eq, firstMatch?_append nothing, Highlighter.firstMatch?, call, Option.bind_some, Rule.match?,
    called.call_stop? callable]
  rfl

/-- A scan that takes a match of the rule of calls is outside of all containers. -/
theorem bare_of_call {around : Option ContainerRule} {index start stop : Nat}
    (taken : (Ready.highlighter.ignoring ignore).Takes source around start
      (.single index Ready.call stop)) :
    ∃ scan, (Ready.highlighter.ignoring ignore).Visits source scan ∧ scan.pos = start ∧
      scan.containers = [] := by
  obtain ⟨member, listed, _⟩ := taken.listed
  obtain ⟨scan, visits, rfl, rfl⟩ := taken.visited
  refine ⟨scan, visits, rfl, ?_⟩
  cases opened : scan.containers with
  | nil => rfl
  | cons inner outer =>
      have nested := visits.reached.nested.mem_rules inner (opened ▸ List.mem_cons_self)
      have known : inner.rule ∈ Ready.highlighter.containerRules := Highlighter.mem_containerRules nested
      rw [Scan.around, opened] at member
      exact absurd listed (calls_outside inner.rule known index member)

/-- A mark of a call was made by the rule of calls, outside of all containers. -/
theorem origin_of_call {marking : Marking}
    (origin : (Ready.highlighter.ignoring ignore).Origin source marking)
    (isCall : marking.scope = .titleFunctionInvoke) :
    (∃ scan, (Ready.highlighter.ignoring ignore).Visits source scan ∧ scan.pos = marking.start ∧
      scan.containers = []) ∧ Ready.call.stop? source marking.start = some marking.stop := by
  -- Only the rule of calls can give the scope.
  have owned : ∀ {around : Option ContainerRule} {start : Nat} {found : Found},
      (Ready.highlighter.ignoring ignore).Takes source around start found →
        marking.scope ∈ found.rule.ownScopes → found.rule = .single Ready.call := by
    intro around start found taken given
    rw [isCall] at given
    exact scope_of_calls _ (Array.mem_of_getElem? taken.listed.2.1) given
  cases origin with
  | word listed finds =>
      have member := finds.scope_mem
      rw [isCall] at member
      exact absurd member (tables_without_calls _ listed)
  | single taken hasScope =>
      cases owned taken (Option.mem_toList.mpr hasScope)
      obtain ⟨stop, ends, same⟩ := Option.map_eq_some_iff.mp taken.listed.2.2
      cases same
      exact ⟨bare_of_call taken, ends⟩
  | part taken member proper => exact nomatch owned taken (taken.part_scope member)
  | container taken reaches hasScope => exact nomatch owned taken (Option.mem_toList.mpr hasScope)

theorem called_of_stop (stands : source.holdsAt word.toList place = true)
    (ends : Ready.call.stop? source place = some (place + word.length)) : Called source word place :=
  have stops := call_stops ends
  ⟨stops.1, stands, stops.2.1⟩

/-- A call that has the place in it starts there, if a word stands there by itself. -/
theorem start_of_call {start stop : Nat} {name : List Char} (callable : Callable word name)
    (called : Called source word place) (ends : Ready.call.stop? source start = some stop)
    (within : start ≤ place ∧ place < stop) : start = place := by
  have first := called.isWord callable (Nat.le_refl place) (Nat.lt_add_of_pos_right callable.proper)
  obtain ⟨_, _, last, after, _, takes, each⟩ := call_stops ends
  have before : place < last := by
    rcases takes with rfl | ⟨rfl, mark⟩
    · exact within.2
    · rcases Nat.lt_succ_iff_lt_or_eq.mp within.2 with earlier | rfl
      · exact earlier
      · rw [mark] at first
        exact absurd first (by decide)
  rcases Nat.eq_or_lt_of_le within.1 with same | later
  · exact same
  · -- Otherwise the place is inside an identifier, and the word does not stand by itself.
    have inside : InWord source.chars place :=
      ⟨by omega, each (place - 1) (by omega) (by omega), first⟩
    have alone := called.alone
    rw [inside.not_boundary] at alone
    exact nomatch alone

end Scans

/-! ## Calls in a text -/

section Texts
variable {word before after : String}

theorem opensBehind_iff {source : Source} {front : List Char}
    (chars : source.chars.toList = front ++ after.toList) :
    OpensBehind source front.length ↔
      ∃ blanks rest, after = blanks ++ "(" ++ rest ∧
        ∀ c ∈ blanks.toList, CharSet.blank.contains c = true := by
  have there : ∀ index, source.chars[front.length + index]? = after.toList[index]? := by
    intro index
    rw [← Array.getElem?_toList, chars, List.getElem?_append_right (Nat.le_add_right _ _),
      Nat.add_sub_cancel_left]
  constructor
  · rintro ⟨opening, behind, here, each⟩
    obtain ⟨index, rfl⟩ := Nat.exists_eq_add_of_le behind
    rw [there] at here
    refine ⟨String.ofList (after.toList.take index), String.ofList (after.toList.drop (index + 1)), ?_, ?_⟩
    · obtain ⟨inside, isOpening⟩ := List.getElem?_eq_some_iff.mp here
      rw [← String.toList_inj, String.toList_append, String.toList_append, String.toList_ofList,
        String.toList_ofList, List.append_assoc]
      conv_lhs => rw [← List.take_append_drop index after.toList, List.drop_eq_getElem_cons inside,
        isOpening]
      rw [List.singleton_append, String.toList_ofList]
    · intro c member
      rw [String.toList_ofList] at member
      obtain ⟨earlier, before, same⟩ := List.mem_take_iff_getElem.mp member
      have blank := each (front.length + earlier) (Nat.le_add_right _ _) (by omega)
      rw [there, List.getElem?_eq_getElem (by omega), Option.any_some, same] at blank
      exact blank
  · rintro ⟨blanks, rest, rfl, each⟩
    have list : (blanks ++ "(" ++ rest).toList = blanks.toList ++ '(' :: rest.toList := by simp
    refine ⟨front.length + blanks.toList.length, Nat.le_add_right _ _, ?_, ?_⟩
    · rw [there, list, List.getElem?_append_right (Nat.le_refl _), Nat.sub_self]
      rfl
    · intro between behind before
      obtain ⟨index, rfl⟩ := Nat.exists_eq_add_of_le behind
      have inside : index < blanks.toList.length := by omega
      rw [there, list, List.getElem?_append_left inside, List.getElem?_eq_getElem inside]
      exact each _ (List.getElem_mem inside)

/-- In front of a word character there is a boundary if the text before it does not end with one. -/
theorem boundary_iff {source : Source} {front rest : List Char} {c : Char}
    (chars : source.chars.toList = front ++ c :: rest) (word : Assertion.isWord true c = true) :
    (Assertion.word true .boundary).holds source.chars front.length = true ↔
      front.getLast?.any Unicode.isWord = false := by
  have here : source.chars[front.length]? = some c := by
    rw [← Array.getElem?_toList, chars, List.getElem?_append_right (Nat.le_refl _), Nat.sub_self]
    rfl
  have earlier : (if front.length = 0 then none else source.chars[front.length - 1]?) =
      front.getLast? := by
    by_cases none : front.length = 0
    · rw [if_pos none, List.length_eq_zero_iff.mp none]
      rfl
    · rw [if_neg none, ← Array.getElem?_toList, chars, List.getElem?_append_left (by omega),
        List.getLast?_eq_getElem?]
  have sameTest : Assertion.isWord true = Unicode.isWord := rfl
  simp only [Assertion.holds, WordEdge.holds, here, earlier, sameTest, Option.any_some]
  rw [sameTest] at word
  simp [word]

theorem stands_of_split : (Source.ofString (before ++ word ++ after)).holdsAt word.toList
    before.toList.length = true := by
  have chars : (Source.ofString (before ++ word ++ after)).chars.toList =
      before.toList ++ (word.toList ++ after.toList) := by
    rw [← String.toList_append, ← String.toList_append, ← String.append_assoc]
    rfl
  rw [Source.holdsAt_iff, chars, List.drop_left]
  exact List.prefix_append _ _

theorem called_iff {name : List Char} (callable : Callable word name) :
    Called (.ofString (before ++ word ++ after)) word before.toList.length ↔
      before.toList.getLast?.any Unicode.isWord = false ∧
        ∃ blanks rest, after = blanks ++ "(" ++ rest ∧
          ∀ c ∈ blanks.toList, CharSet.blank.contains c = true := by
  have chars : (Source.ofString (before ++ word ++ after)).chars.toList =
      (before.toList ++ word.toList) ++ after.toList := by
    rw [← String.toList_append, ← String.toList_append]
    rfl
  have front : before.toList.length + word.length = (before.toList ++ word.toList).length := by
    simp only [List.length_append, String.length_toList]
  have alone : (Assertion.word true .boundary).holds (Source.ofString (before ++ word ++ after)).chars
      before.toList.length = true ↔ before.toList.getLast?.any Unicode.isWord = false := by
    obtain ⟨c, rest, letters, isWord⟩ := callable.first
    rw [letters, List.append_assoc, List.cons_append] at chars
    exact boundary_iff chars (isWord_of_ascii isWord).1
  have opens := opensBehind_iff chars
  rw [← front] at opens
  constructor
  · intro called
    exact ⟨alone.mp called.alone, opens.mp called.opens⟩
  · rintro ⟨apart, blanks⟩
    exact ⟨alone.mpr apart, stands_of_split, opens.mpr blanks⟩

end Texts

/-! ## Regions -/

/-- Where a word stands before a parenthesis, and the scan is outside of all containers, there is a region
of a call. -/
theorem region_of_called {ignore : Bool} {text word : String} {name : List Char} {result : Highlight}
    {scan : Scan}
    (highlighted : (Ready.highlighter.ignoring ignore).highlight text = .ok result)
    (visits : (Ready.highlighter.ignoring ignore).Visits (.ofString text) scan)
    (bare : scan.containers = []) (callable : Callable word name)
    (called : Called (.ofString text) word scan.pos) (spares : Spares (.ofString text) scan.pos) :
    ∃ region ∈ result.regions, region.scope = .titleFunctionInvoke ∧
      region.start = (Source.ofString text).offset scan.pos ∧ region.text = word := by
  have proper : scan.pos < scan.pos + word.length :=
    Nat.lt_add_of_pos_right (Nat.lt_of_lt_of_le callable.proper callable.name_le)
  obtain ⟨done, ran, source, nodes⟩ := Highlighter.highlight_ok highlighted
  have first : (Ready.highlighter.ignoring ignore).firstMatch? (.ofString text) scan.pos
      ((Ready.highlighter.ignoring ignore).rulesAt scan) =
        some (.single 22 Ready.call (scan.pos + word.length)) := by
    rw [Highlighter.rulesAt_listedIn, bare]
    exact firstMatch?_of_called callable called spares
  have veils : Veils [.titleFunctionInvoke] Ready.call.scope := by decide
  have hides : Node.AnyHides [.titleFunctionInvoke] scan.pos result.nodes := by
    rw [nodes, Node.anyHides_reverse]
    exact visits.run_hides first veils ⟨Nat.le_refl _, proper⟩ ran
  obtain ⟨range, member, scope, within⟩ := (Node.anyHides_iff_scopes 0 _).mp hides
  have isCall : range.scope = .titleFunctionInvoke := List.mem_singleton.mp scope
  have marking : range.marking ∈ Node.marksAll result.nodes := by
    rw [← Node.scopesAll_map_marking result.nodes 0]
    exact List.mem_map_of_mem member
  have origin := Highlighter.highlight_origins highlighted range.marking marking
  obtain ⟨_, ends⟩ := origin_of_call origin isCall
  have start : range.start = scan.pos := start_of_call callable called ends within
  have stop : range.stop = scan.pos + word.length := by
    have same := called.call_stop? callable
    rw [← start] at same ⊢
    exact Option.some.inj (ends.symm.trans same)
  obtain ⟨region, known, regionScope, regionStart, regionText⟩ := Highlight.region_of_scope member
  refine ⟨region, known, regionScope.trans isCall, ?_, ?_⟩
  · rw [regionStart, source, start]
  · rw [regionText, source, start, stop, Source.slice_word _ called.stands]

/-- A call with the word as its text is one where the word stands before a parenthesis. -/
theorem called_of_marking {source : Source} {ignore : Bool} {word : String} {marking : Marking}
    (origin : (Ready.highlighter.ignoring ignore).Origin source marking)
    (isCall : marking.scope = .titleFunctionInvoke)
    (text : source.slice marking.start marking.stop = word)
    (stands : source.holdsAt word.toList marking.start = true) :
    (∃ scan, (Ready.highlighter.ignoring ignore).Visits source scan ∧ scan.pos = marking.start ∧
      scan.containers = []) ∧ Called source word marking.start := by
  obtain ⟨visited, ends⟩ := origin_of_call origin isCall
  refine ⟨visited, called_of_stop stands ?_⟩
  obtain ⟨scan, visits, start, _⟩ := visited
  have bounds := SingleRule.stop?_bounds (start ▸ visits.reached.ready.pos_le) ends
  have length := congrArg String.length text
  rw [Source.slice, String.length_ofList, Source.part_length _ bounds.2] at length
  rw [ends]
  congr
  omega

/-- A word that no other rule takes is marked as a call where the scan comes to it outside of all
containers, it stands by itself, and a parenthesis opens behind it and behind blanks, and nowhere else. -/
theorem call_region_iff {ignore : Bool} {text word before after : String} {name : List Char}
    {result : Highlight} (callable : Callable word name)
    (spares : ∀ {source : Source} {place : Nat}, Called source word place → Spares source place)
    (highlighted : (highlighter.ignoring ignore).highlight text = .ok result)
    (split : text = before ++ word ++ after) :
    (∃ region ∈ result.regions, region.scope = .titleFunctionInvoke ∧
        region.start = before.utf8ByteSize ∧ region.text = word) ↔
      (∃ scan, (highlighter.ignoring ignore).Visits (.ofString text) scan ∧
          scan.pos = before.toList.length ∧ scan.containers = []) ∧
        before.toList.getLast?.any Unicode.isWord = false ∧
          ∃ blanks rest, after = blanks ++ "(" ++ rest ∧
            ∀ c ∈ blanks.toList, CharSet.blank.contains c = true := by
  rw [highlighter_eq] at highlighted ⊢
  subst split
  rw [← called_iff callable]
  obtain ⟨_, _, source, _⟩ := Highlighter.highlight_ok highlighted
  constructor
  · rintro ⟨region, known, isCall, starts, isWord⟩
    obtain ⟨marking, member, scope, slice, start, _⟩ := Highlight.region_marking known
    rw [source] at slice start
    obtain ⟨c, rest, letters, _⟩ := callable.first
    have stands : (Source.ofString (before ++ word ++ after)).holdsAt word.toList
        before.toList.length = true := stands_of_split
    have first := stands
    rw [letters] at first
    obtain ⟨inside, _⟩ := Array.getElem?_eq_some_iff.mp (Highlighter.holdsAt_first first)
    have place : marking.start = before.toList.length := by
      apply place_of_offset inside
      rw [← start, starts, String.append_assoc]
      exact (offset_of_cut before (word ++ after)).symm
    rw [← place] at stands ⊢
    exact called_of_marking (Highlighter.highlight_origins highlighted marking member)
      (scope.symm.trans isCall) (slice.symm.trans isWord) stands
  · rintro ⟨⟨scan, visits, place, bare⟩, called⟩
    rw [← place] at called
    obtain ⟨region, known, isCall, start, isWord⟩ :=
      region_of_called highlighted visits bare callable called (spares called)
    refine ⟨region, known, isCall, ?_, isWord⟩
    rw [start, place, String.append_assoc]
    exact offset_of_cut before (word ++ after)

/-- A word that no other rule takes is a call at the start of a text, where the scan begins, if a
parenthesis is what comes next. -/
theorem region_at_start {text word rest : String} {name : List Char} (callable : Callable word name)
    (spares : ∀ {source : Source} {place : Nat}, Called source word place → Spares source place)
    (split : text = "" ++ word ++ ("(" ++ rest)) :
    ∃ result, (highlighter.ignoring true).highlight text = .ok result ∧
      ∃ region ∈ result.regions, region.scope = .titleFunctionInvoke ∧
        region.start = "".utf8ByteSize ∧ region.text = word := by
  obtain ⟨result, highlighted⟩ := Highlighter.highlight_lenient highlighter text
  have inside : 0 < (Source.ofString text).size := by
    have length : 0 < word.length := Nat.lt_of_lt_of_le callable.proper callable.name_le
    rw [Source.size_ofString, split, String.length_append, String.length_append]
    omega
  have visits : (highlighter.ignoring true).Visits (.ofString text) {} := ⟨⟨0, rfl⟩, inside⟩
  refine ⟨result, highlighted, (call_region_iff callable spares highlighted split).mpr ?_⟩
  exact ⟨⟨{}, visits, rfl, rfl⟩, rfl, "", rest, rfl, fun _ absurdity => nomatch absurdity⟩

/-! ## Operators that are words -/

theorem callable_of_wordOperator {word : String} (listed : word ∈ wordOperators) :
    Callable word word.toList where
  spelled := .inl rfl
  nonempty := (by decide : ∀ word ∈ wordOperators, word.toList ≠ []) word listed
  letters := (by decide : ∀ word ∈ wordOperators, ∀ c ∈ word.toList, Patterns.letters.contains c = true)
    word listed
  free := (by decide : ∀ word ∈ wordOperators, word ∉ keywordWords) word listed

/-- The rules before that of calls do not start with a letter of such an operator, but for paths. -/
theorem earlier_shuns : ∀ index ∈ earlier, ∀ rule ∈ Ready.rules[index]?, rule = .single Ready.path ∨
    ∀ word ∈ wordOperators, ∀ c ∈ word.toList.take 1, rule.opener.Shuns c := by
  decide +kernel

theorem spares_of_wordOperator {source : Source} {place : Nat} {word : String}
    (listed : word ∈ wordOperators) (called : Called source word place) : Spares source place := by
  have callable := callable_of_wordOperator listed
  obtain ⟨c, rest, chars, _⟩ := callable.first
  have stands := called.stands
  rw [chars] at stands
  have here := Highlighter.holdsAt_first stands
  intro index member rule isRule
  rcases earlier_shuns index member rule isRule with rfl | shuns
  · rw [Rule.match?, called.path_stop? callable]
    rfl
  · have starts := shuns word listed
    rw [chars] at starts
    exact Rule.match?_shuns (starts c List.mem_cons_self) here

/-- An operator that is a word is marked as a call where the scan comes to it outside of all containers,
it stands by itself, and a parenthesis opens behind it and behind blanks, and nowhere else. -/
theorem word_operators_called (ignore : Bool) (text : String) (result : Highlight)
    (highlighted : (highlighter.ignoring ignore).highlight text = .ok result) :
    ∀ word ∈ wordOperators, ∀ before after : String, text = before ++ word ++ after →
      ((∃ region ∈ result.regions, region.scope = .titleFunctionInvoke ∧
          region.start = before.utf8ByteSize ∧ region.text = word) ↔
        (∃ scan, (highlighter.ignoring ignore).Visits (.ofString text) scan ∧
            scan.pos = before.toList.length ∧ scan.containers = []) ∧
          before.toList.getLast?.any Unicode.isWord = false ∧
            ∃ blanks rest, after = blanks ++ "(" ++ rest ∧
              ∀ c ∈ blanks.toList, CharSet.blank.contains c = true) := by
  intro word listed before after split
  exact call_region_iff (callable_of_wordOperator listed) (spares_of_wordOperator listed) highlighted split

/-- A negation in front of a parenthesis. -/
def negation : String :=
  "not(x)"

theorem negation_region :
    ∃ result, (highlighter.ignoring true).highlight negation = .ok result ∧
      ∃ region ∈ result.regions, region.scope = .titleFunctionInvoke ∧
        region.start = "".utf8ByteSize ∧ region.text = "not" := by
  have listed : "not" ∈ wordOperators := by decide
  have split : negation = "" ++ "not" ++ ("(" ++ "x)") := by decide
  exact region_at_start (callable_of_wordOperator listed) (spares_of_wordOperator listed) split

theorem negation_called :
    ∃ result, (highlighter.ignoring true).highlight negation = .ok result ∧ "not" ∈ wordOperators ∧
      (∃ scan, (highlighter.ignoring true).Visits (.ofString negation) scan ∧
        scan.pos = "".toList.length ∧ scan.containers = []) ∧
      "".toList.getLast?.any Unicode.isWord = false ∧
      ∃ blanks rest, "(x)" = blanks ++ "(" ++ rest ∧
        ∀ c ∈ blanks.toList, CharSet.blank.contains c = true := by
  obtain ⟨result, highlighted, region⟩ := negation_region
  have listed : "not" ∈ wordOperators := by decide
  have split : negation = "" ++ "not" ++ "(x)" := by decide
  exact ⟨result, highlighted, listed,
    (word_operators_called true negation result highlighted "not" listed "" "(x)" split).mp region⟩

/-- Calls are not free of operators. -/
theorem not_all_calls_are_names :
    ¬ ∀ (text : String) (result : Highlight), (highlighter.ignoring true).highlight text = .ok result →
      ∀ region ∈ result.regions, region.scope = .titleFunctionInvoke →
        region.text ∉ wordOperators := by
  intro all
  obtain ⟨result, highlighted, region, listed, isCall, _, text⟩ := negation_region
  have name := all negation result highlighted region listed isCall
  rw [text] at name
  exact name (by decide)

end Highlighting.Jacy
