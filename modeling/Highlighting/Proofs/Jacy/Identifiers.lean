import Highlighting.Proofs.Jacy
import Highlighting.Proofs.Pattern.Edges
import Highlighting.Proofs.Scan.Guarding
import Highlighting.Proofs.Scan.Origins

/-! # Identifiers in Jacy

Nothing that Jacy marks starts inside an identifier, apart from strings and characters that have letters in
front of their quote: these letters may be the end of an identifier. -/
set_option autoImplicit false
namespace Highlighting.Jacy

/-- The patterns that may start with a letter and ask for no word boundary before it. -/
def lettered : List Pattern :=
  [Patterns.string, Patterns.rawString, Patterns.character]

/-- What a match of these patterns starts with when it starts with a letter. -/
def openings : List (List Char) :=
  [['b', '"'], ['b', '\''], ['b', 'r'], ['r', '"'], ['r', '#']]

/-! ## Letters before quotes -/

section Openings
variable {source : Source} {limit : Nat} {m k : Match}

/-- The range starts with one of the openings. -/
def Opens (source : Source) (start stop : Nat) : Prop :=
  ∃ opening ∈ openings, source.holdsAt opening start = true ∧ start + opening.length ≤ stop

theorem opens_of_pair {start stop : Nat} {c d : Char} (listed : [c, d] ∈ openings)
    (first : source.chars[start]? = some c) (second : source.chars[start + 1]? = some d)
    (behind : start + 2 ≤ stop) : Opens source start stop :=
  ⟨[c, d], listed, by simp [Source.holdsAt, first, second], behind⟩

/-- Where a word character stands, there is no quote. -/
theorem no_quote {place : Nat} {c : Char} (word : source.chars[place]?.any (Assertion.isWord false) = true)
    (here : source.chars[place]? = some c) (quote : Assertion.isWord false c = false) : False := by
  rw [here, Option.any_some, quote] at word
  exact nomatch word

theorem string_opens (word : source.chars[m.stop]?.any (Assertion.isWord false) = true)
    (way : k ∈ Patterns.string.ways source.chars limit m) : Opens source m.stop k.stop := by
  obtain ⟨between, letter, rest⟩ := List.mem_flatMap.mp way
  obtain ⟨⟨_, quote⟩, rfl⟩ := Patterns.mem_one_ways.mp rest
  rcases Patterns.mem_maybe_ways.mp letter with some | rfl
  · obtain ⟨⟨_, first⟩, rfl⟩ := Patterns.mem_one_ways.mp some
    exact opens_of_pair (by decide) first quote (Nat.le_refl _)
  · exact (no_quote word quote (by decide)).elim

/-- Behind the letter `r` of a raw string there is a mark or a quote. -/
theorem rawString_rest (way : k ∈ (Pattern.seqs [.capture 1 none (Patterns.many (.single '#')),
      Patterns.one '"']).ways source.chars limit m) :
    (source.chars[m.stop]? = some '#' ∨ source.chars[m.stop]? = some '"') ∧ m.stop < k.stop := by
  obtain ⟨between, group, last⟩ := List.mem_flatMap.mp way
  obtain ⟨⟨_, quote⟩, rfl⟩ := Patterns.mem_one_ways.mp last
  obtain ⟨inner, marks, rfl⟩ := List.mem_map.mp group
  obtain ⟨_, forth, each⟩ := Patterns.mem_many_ways marks
  refine ⟨?_, Nat.lt_succ_of_le forth⟩
  rcases Nat.eq_or_lt_of_le forth with none | some
  · right
    rw [show m.stop = inner.stop from none]
    exact quote
  · left
    obtain ⟨c, here, same⟩ := (Option.any_eq_true _ _).mp (each m.stop (Nat.le_refl _) some)
    rw [CharSet.contains_single] at same
    rw [here, eq_of_beq same]

theorem rawString_opens (word : source.chars[m.stop]?.any (Assertion.isWord false) = true)
    (way : k ∈ Patterns.rawString.ways source.chars limit m) : Opens source m.stop k.stop := by
  obtain ⟨between, letter, rest⟩ := List.mem_flatMap.mp way
  obtain ⟨behind, second, rest⟩ := List.mem_flatMap.mp rest
  obtain ⟨⟨_, raw⟩, rfl⟩ := Patterns.mem_one_ways.mp second
  obtain ⟨third, forth⟩ := rawString_rest rest
  rcases Patterns.mem_maybe_ways.mp letter with some | rfl
  · obtain ⟨⟨_, first⟩, rfl⟩ := Patterns.mem_one_ways.mp some
    exact opens_of_pair (by decide) first raw (Nat.le_of_lt forth)
  · rcases third with mark | quote
    · exact opens_of_pair (by decide) raw mark forth
    · exact opens_of_pair (by decide) raw quote forth

theorem character_opens (word : source.chars[m.stop]?.any (Assertion.isWord false) = true)
    (way : k ∈ Patterns.character.ways source.chars limit m) : Opens source m.stop k.stop := by
  obtain ⟨between, letter, rest⟩ := List.mem_flatMap.mp way
  obtain ⟨behind, opening, others⟩ := List.mem_flatMap.mp rest
  obtain ⟨⟨_, quote⟩, rfl⟩ := Patterns.mem_one_ways.mp opening
  have forth := Nat.le_trans (Nat.le_add_right _ _) (Pattern.ways_fewest _ _ k others)
  rcases Patterns.mem_maybe_ways.mp letter with some | rfl
  · obtain ⟨⟨_, first⟩, rfl⟩ := Patterns.mem_one_ways.mp some
    exact opens_of_pair (by decide) first quote forth
  · exact (no_quote word quote (by decide)).elim

/-- A lettered pattern that matches where a word character stands matches one of the openings. -/
theorem lettered_opens {p : Pattern} {place : Nat} (listed : p ∈ lettered)
    (word : source.chars[place]?.any (Assertion.isWord false) = true)
    (matched : (Program.ofPattern p).match? source.chars place limit = some m) :
    Opens source place m.stop := by
  have steady : p.isSteady = true :=
    (by decide : ∀ q ∈ lettered, q.isSteady = true) p listed
  rw [Program.match?_ofPattern steady] at matched
  obtain ⟨inner, way, rfl⟩ := List.mem_map.mp (List.mem_of_mem_head? matched)
  simp only [lettered, List.mem_cons, List.not_mem_nil, or_false] at listed
  rcases listed with rfl | rfl | rfl
  · exact string_opens (m := ⟨place, [⟨0, true, place⟩]⟩) (k := inner) word way
  · exact rawString_opens (m := ⟨place, [⟨0, true, place⟩]⟩) (k := inner) word way
  · exact character_opens (m := ⟨place, [⟨0, true, place⟩]⟩) (k := inner) word way

end Openings

/-! ## Where rules start -/

/-- The groups of the parts that have a scope. -/
def scopedGroups : Rule → List Nat
  | .parts rule => (rule.parts.filter (·.2.isSome)).map (·.1)
  | .single _ | .container _ => []

/-- What the rule marks starts at the edges of identifiers, or it is a string with a lettered pattern. -/
inductive Edged (rule : Rule) : Prop where
  | plain (unmarked : rule.ownScopes = [])
  | edge {p : Pattern} (opener : rule.opener = .ofPattern p) (steady : p.isSteady = true)
      (keeps : p.keepsOff = true) (groups : (p.edge? (scopedGroups rule) true).isSome = true)
  | lettered {p : Pattern} (opener : rule.opener = .ofPattern p) (listed : p ∈ lettered)
      (whole : scopedGroups rule = []) (isString : rule.ownScopes = [.string])

theorem edged : ∀ rule ∈ highlighter.rules, Edged rule := by
  rw [highlighter_eq]
  simp only [Ready.highlighter, Ready.rules, List.mem_toArray, List.forall_mem_cons]
  refine ⟨?_, ?_, ?_, ?_, ?_, ?_, ?_, ?_, ?_, ?_, ?_, ?_, ?_, ?_, ?_, ?_, ?_, ?_, ?_, ?_, ?_, ?_, ?_,
    List.forall_mem_nil _⟩
  all_goals first
    | exact .plain rfl
    | exact .edge rfl (by decide) (by decide +kernel) (by decide +kernel)
    | exact .lettered rfl (by decide +kernel) rfl rfl

/-- The mark is a string that starts with letters. -/
structure Lettered (source : Source) (marking : Marking) : Prop where
  isString : marking.scope = .string
  opens : Opens source marking.start marking.stop

section Marks
variable {highlighter : Highlighter} {source : Source} {around : Option ContainerRule}

theorem edged_ignoring (edged : ∀ rule ∈ highlighter.rules, Edged rule) (ignore : Bool) :
    ∀ rule ∈ (highlighter.ignoring ignore).rules, Edged rule :=
  edged

theorem whole_lettered {start stop : Nat} {found : Found} {scope : Scope}
    (edged : ∀ rule ∈ highlighter.rules, Edged rule)
    (taken : highlighter.Takes source around start found) (given : scope ∈ found.rule.ownScopes)
    (reaches : found.stop ≤ stop) (inside : InWord source.chars start) :
    Lettered source ⟨scope, start, stop⟩ := by
  obtain ⟨_, listed, matched⟩ := taken.listed
  obtain ⟨scan, visits, rfl, _⟩ := taken.visited
  obtain ⟨m, opened, least⟩ := Rule.match?_opener visits.reached.ready.pos_le matched
  cases edged _ (Array.mem_of_getElem? listed) with
  | plain unmarked =>
      rw [unmarked] at given
      exact absurd given List.not_mem_nil
  | edge opener steady keeps groups =>
      rw [opener] at opened
      exact absurd inside (Program.starts_at_edge steady keeps opened)
  | lettered opener lettered whole isString =>
      rw [opener] at opened
      rw [isString] at given
      obtain ⟨opening, known, stands, takes⟩ := lettered_opens lettered inside.behind opened
      exact ⟨List.mem_singleton.mp given, opening, known, stands,
        Nat.le_trans takes (Nat.le_trans least reaches)⟩

theorem part_at_edge {index start stop first last : Nat} {rule : PartsRule} {parts : List Part}
    {scope : Scope} (edged : ∀ rule ∈ highlighter.rules, Edged rule)
    (taken : highlighter.Takes source around start (.parts index rule stop parts))
    (member : ⟨first, last, some scope⟩ ∈ parts) (proper : first < last) :
    ¬ InWord source.chars first := by
  have given := taken.part_scope member
  obtain ⟨_, listed, matched⟩ := taken.listed
  obtain ⟨m, found, _, same⟩ := Rule.match?_parts matched
  cases same
  rw [PartsRule.locate_eq] at member
  obtain ⟨⟨number, mine⟩, entry, located⟩ := List.mem_map.mp member
  have properPart : (PartsRule.part m (number, mine)).Proper := by
    rw [located]
    exact proper
  obtain ⟨group, took, same⟩ := PartsRule.part_proper properPart
  rw [located] at same
  obtain ⟨rfl, rfl, rfl⟩ := Part.mk.inj same
  have marked : number ∈ scopedGroups (.parts rule) :=
    List.mem_map.mpr ⟨_, List.mem_filter.mpr ⟨entry, rfl⟩, rfl⟩
  have here : Edged (.parts rule) := edged _ (Array.mem_of_getElem? listed)
  cases here with
  | plain unmarked =>
      rw [unmarked] at given
      exact absurd given List.not_mem_nil
  | edge opener steady keeps groups =>
      have pattern : rule.pattern = _ := opener
      rw [pattern] at found
      have start := Program.starts_at_edge steady keeps found
      exact (Program.groups_at_edges steady groups start found).group marked took
  | lettered _ _ whole _ =>
      rw [whole] at marked
      exact absurd marked List.not_mem_nil

/-- Whatever is marked inside an identifier is a string that starts with letters. -/
theorem origin_lettered {marking : Marking} (edged : ∀ rule ∈ highlighter.rules, Edged rule)
    (origin : highlighter.Origin source marking) (inside : InWord source.chars marking.start) :
    Lettered source marking := by
  cases origin with
  | word listed finds =>
      have outside := finds.outside
      rw [inside.insideIdentifier] at outside
      exact nomatch outside
  | single taken hasScope =>
      exact whole_lettered edged taken (Option.mem_toList.mpr hasScope) (Nat.le_refl _) inside
  | part taken member proper => exact absurd inside (part_at_edge edged taken member proper)
  | container taken reaches hasScope =>
      exact whole_lettered edged taken (Option.mem_toList.mpr hasScope) reaches inside

end Marks

/-! ## Regions -/

/-- Where a text is cut between word characters, a place of its source is inside an identifier. -/
theorem inWord_of_cut {before after : String}
    (last : before.toList.getLast?.any (Assertion.isWord false) = true)
    (first : after.toList.head?.any (Assertion.isWord false) = true) :
    InWord (Source.ofString (before ++ after)).chars before.toList.length := by
  have chars : (Source.ofString (before ++ after)).chars = (before.toList ++ after.toList).toArray := by
    rw [← String.toList_append]
    rfl
  have some : before.toList.length ≠ 0 := by
    intro none
    rw [List.length_eq_zero_iff.mp none] at last
    exact nomatch last
  have earlier : before.toList.length - 1 < before.toList.length := by omega
  refine ⟨Nat.pos_of_ne_zero some, ?_, ?_⟩
  · rwa [chars, List.getElem?_toArray, List.getElem?_append_left earlier, ← List.getLast?_eq_getElem?]
  · rwa [chars, List.getElem?_toArray, List.getElem?_append_right (Nat.le_refl _), Nat.sub_self,
      ← List.head?_eq_getElem?]

theorem offset_of_cut (before after : String) :
    (Source.ofString (before ++ after)).offset before.toList.length = before.utf8ByteSize := by
  have chars : (Source.ofString (before ++ after)).chars.toList = before.toList ++ after.toList := by
    rw [← String.toList_append]
    rfl
  rw [Source.offset_eq, chars, List.take_left, byteLength_eq, String.ofList_toList]

/-- A place that is not at the end has an offset of its own. -/
theorem place_of_offset {source : Source} {left right : Nat} (inside : left < source.size)
    (same : source.offset right = source.offset left) : right = left := by
  rcases Nat.lt_trichotomy right left with before | equal | behind
  · have := source.offset_lt before (Nat.le_of_lt inside)
    omega
  · exact equal
  · have := (source.offset_lt_iff inside).mpr behind
    omega

/-- A region that starts inside an identifier is a string or a character, and the letters in front of its
quote are the end of the identifier. -/
theorem starts_at_edges (ignore : Bool) (text : String) (result : Highlight)
    (highlighted : (highlighter.ignoring ignore).highlight text = .ok result) :
    ∀ region ∈ result.regions, ∀ before after : String, text = before ++ after →
      region.start = before.utf8ByteSize → before.toList.getLast?.any (Assertion.isWord false) = true →
        after.toList.head?.any (Assertion.isWord false) = true →
          region.scope = .string ∧
            ∃ opening ∈ openings, ∃ rest, region.text = String.ofList opening ++ rest := by
  rintro region listed before after rfl starts last first
  obtain ⟨source, _⟩ := Highlighter.highlight_wellFormed (takesInOrder ignore _) highlighted
  obtain ⟨marking, member, scope, slice, start, _⟩ := Highlight.region_marking listed
  rw [source] at slice start
  have inside := inWord_of_cut last first
  obtain ⟨c, here, _⟩ := (Option.any_eq_true _ _).mp inside.behind
  obtain ⟨within, _⟩ := Array.getElem?_eq_some_iff.mp here
  have place : marking.start = before.toList.length := by
    apply place_of_offset within
    rw [← start, starts, offset_of_cut]
  rw [← place] at inside
  have lenient := edged_ignoring edged ignore
  have origin := Highlighter.highlight_origins highlighted marking member
  obtain ⟨isString, opening, known, stands, takes⟩ := origin_lettered lenient origin inside
  refine ⟨scope.trans isString, opening, known, ?_⟩
  rw [slice]
  exact Source.slice_of_prefix _ stands takes

/-- A string right behind a name. -/
def nameAndString : String :=
  "ab\"x\""

theorem nameAndString_region :
    ∃ result, (highlighter.ignoring true).highlight nameAndString = .ok result ∧
      ∃ region ∈ result.regions, region.start = "a".utf8ByteSize := by
  have scopes : ((highlighter.ignoring true).highlight nameAndString).toOption.map (·.scopes) =
      some [⟨.string, 1, 5, 0⟩] := by
    rw [highlighter_eq]
    decide +kernel
  cases highlighted : (highlighter.ignoring true).highlight nameAndString with
  | error illegal =>
      rw [highlighted] at scopes
      exact nomatch scopes
  | ok result =>
      rw [highlighted] at scopes
      have known : result.scopes = [⟨.string, 1, 5, 0⟩] := Option.some.inj scopes
      obtain ⟨source, _⟩ := Highlighter.highlight_wellFormed (takesInOrder true _) highlighted
      obtain ⟨region, listed, _, start, _⟩ :=
        Highlight.region_of_scope (known ▸ List.mem_singleton_self _)
      refine ⟨result, rfl, region, listed, ?_⟩
      rw [start, source]
      exact offset_of_cut "a" "b\"x\""

theorem nameAndString_starts :
    ∃ result, (highlighter.ignoring true).highlight nameAndString = .ok result ∧
      ∃ region ∈ result.regions, region.start = "a".utf8ByteSize ∧ region.scope = .string ∧
        ∃ opening ∈ openings, ∃ rest, region.text = String.ofList opening ++ rest := by
  obtain ⟨result, highlighted, region, listed, start⟩ := nameAndString_region
  have split : nameAndString = "a" ++ "b\"x\"" := by decide
  exact ⟨result, highlighted, region, listed, start,
    starts_at_edges true nameAndString result highlighted region listed "a" "b\"x\"" split start
      (by decide) (by decide)⟩

/-- It is not so that nothing at all is marked from inside an identifier on. -/
theorem not_all_start_at_edges :
    ¬ ∀ (text : String) (result : Highlight), (highlighter.ignoring true).highlight text = .ok result →
      ∀ region ∈ result.regions, ∀ before after : String, text = before ++ after →
        region.start = before.utf8ByteSize →
          ¬ (before.toList.getLast?.any (Assertion.isWord false) = true ∧
            after.toList.head?.any (Assertion.isWord false) = true) := by
  intro all
  obtain ⟨result, highlighted, region, listed, start⟩ := nameAndString_region
  have split : nameAndString = "a" ++ "b\"x\"" := by decide
  exact all nameAndString result highlighted region listed "a" "b\"x\"" split start
    ⟨by decide, by decide⟩

end Highlighting.Jacy
