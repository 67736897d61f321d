import Highlighting.Proofs.Jacy.Openings

/-! # Comments in Jacy

A line comment goes up to the end of its line. A block comment has others in it, so that its end is found
by counting: a count goes up where a comment opens and down where one closes, and the comment ends where
it comes back to zero. Markers in comments have no character in them with which a comment opens or closes,
and a line does not end in one, so that they do not matter for the count. -/
set_option autoImplicit false
namespace Highlighting

theorem Node.marksAll_joined (nodes : List Node) : marksAll (joined nodes) = marksAll nodes :=
  gather_joined marksAll_append (fun _ _ => rfl) nodes

namespace Jacy

/-! ## Counting -/

/-- How far it is until a count comes to zero that goes up at each `/*` and down at each `*/`, or to the
end of the text if it never does. -/
def untilZero : Nat → List Char → Nat
  | 0, _ => 0
  | _ + 1, [] => 0
  | count + 1, '/' :: '*' :: rest => untilZero (count + 2) rest + 2
  | count + 1, '*' :: '/' :: rest => untilZero count rest + 2
  | count + 1, _ :: rest => untilZero (count + 1) rest + 1

/-- The places where a comment opens before the count comes to zero. -/
def innerOpeners : Nat → Nat → List Char → List Nat
  | 0, _, _ => []
  | _ + 1, _, [] => []
  | count + 1, place, '/' :: '*' :: rest => place :: innerOpeners (count + 2) (place + 2) rest
  | count + 1, place, '*' :: '/' :: rest => innerOpeners count (place + 2) rest
  | count + 1, place, _ :: rest => innerOpeners (count + 1) (place + 1) rest

section Counting

/-- No comment opens or closes at the start of the text. -/
structure Silent (text : List Char) : Prop where
  noOpener : ∀ rest, text ≠ '/' :: '*' :: rest
  noCloser : ∀ rest, text ≠ '*' :: '/' :: rest

theorem silent_cons {c : Char} {rest : List Char}
    (noOpener : ∀ more, c = '/' → rest = '*' :: more → False)
    (noCloser : ∀ more, c = '*' → rest = '/' :: more → False) : Silent (c :: rest) where
  noOpener more same := noOpener more (List.cons.inj same).1 (List.cons.inj same).2
  noCloser more same := noCloser more (List.cons.inj same).1 (List.cons.inj same).2

namespace Silent
variable {c : Char} {rest : List Char} (silent : Silent (c :: rest)) (count place : Nat)
include silent

theorem untilZero_cons : untilZero (count + 1) (c :: rest) = untilZero (count + 1) rest + 1 := by
  rw [untilZero]
  · rintro more rfl rfl
    exact silent.noOpener more rfl
  · rintro more rfl rfl
    exact silent.noCloser more rfl

theorem innerOpeners_cons :
    innerOpeners (count + 1) place (c :: rest) = innerOpeners (count + 1) (place + 1) rest := by
  rw [innerOpeners]
  · rintro more rfl rfl
    exact silent.noOpener more rfl
  · rintro more rfl rfl
    exact silent.noCloser more rfl

end Silent

/-- To come to zero from a sum is to come down by the first number and then by the second. -/
theorem untilZero_add (outer count : Nat) (text : List Char) :
    untilZero (count + outer) text =
      untilZero count text + untilZero outer (text.drop (untilZero count text)) := by
  induction count, text using untilZero.induct with
  | case1 text => rw [untilZero, List.drop_zero, Nat.zero_add, Nat.zero_add]
  | case2 count =>
      rw [Nat.succ_add, untilZero, untilZero, List.drop_nil]
      cases outer <;> rfl
  | case3 count rest ih =>
      rw [Nat.succ_add, untilZero, untilZero, List.drop_succ_cons, List.drop_succ_cons,
        Nat.add_right_comm count outer 2, ih]
      omega
  | case4 count rest ih =>
      rw [Nat.succ_add, untilZero, untilZero, List.drop_succ_cons, List.drop_succ_cons, ih]
      omega
  | case5 count c rest noOpener noCloser ih =>
      have silent := silent_cons noOpener noCloser
      rw [Nat.succ_add, silent.untilZero_cons, silent.untilZero_cons, List.drop_succ_cons,
        Nat.add_right_comm count outer 1, ih]
      omega

theorem innerOpeners_add (outer count place : Nat) (text : List Char) :
    innerOpeners (count + outer) place text =
      innerOpeners count place text ++
        innerOpeners outer (place + untilZero count text) (text.drop (untilZero count text)) := by
  induction count, place, text using innerOpeners.induct with
  | case1 place text => rw [innerOpeners, untilZero, List.drop_zero, Nat.zero_add, Nat.add_zero, List.nil_append]
  | case2 count place =>
      rw [Nat.succ_add, innerOpeners, innerOpeners, List.drop_nil]
      cases outer <;> rfl
  | case3 count place rest ih =>
      rw [Nat.succ_add, innerOpeners, innerOpeners, untilZero, List.drop_succ_cons, List.drop_succ_cons,
        Nat.add_right_comm count outer 2, ih, Nat.add_right_comm place 2, Nat.add_assoc place, List.cons_append]
  | case4 count place rest ih =>
      rw [Nat.succ_add, innerOpeners, innerOpeners, untilZero, List.drop_succ_cons, List.drop_succ_cons,
        ih, Nat.add_right_comm place 2, Nat.add_assoc place]
  | case5 count place c rest noOpener noCloser ih =>
      have silent := silent_cons noOpener noCloser
      rw [Nat.succ_add, silent.innerOpeners_cons, silent.innerOpeners_cons, silent.untilZero_cons,
        List.drop_succ_cons, Nat.add_right_comm count outer 1, ih, Nat.add_right_comm place 1,
        Nat.add_assoc place]

/-- Characters with which no comment opens or closes are passed one by one. -/
def Apart (chars : List Char) : Prop :=
  ∀ c ∈ chars, c ≠ '/' ∧ c ≠ '*'

theorem Apart.silent {c : Char} {chars rest : List Char} (apart : Apart (c :: chars)) :
    Silent (c :: rest) :=
  have first := apart c List.mem_cons_self
  ⟨fun _ same => first.1 (List.cons.inj same).1, fun _ same => first.2 (List.cons.inj same).1⟩

theorem Apart.untilZero_append {chars rest : List Char} (apart : Apart chars) (count : Nat) :
    untilZero (count + 1) (chars ++ rest) = chars.length + untilZero (count + 1) rest := by
  induction chars with
  | nil => rw [List.nil_append, List.length_nil, Nat.zero_add]
  | cons c more ih =>
      have others : Apart more := fun d member => apart d (List.mem_cons_of_mem c member)
      rw [List.cons_append, apart.silent.untilZero_cons, ih others, List.length_cons]
      omega

theorem Apart.innerOpeners_append {chars rest : List Char} (apart : Apart chars) (count place : Nat) :
    innerOpeners (count + 1) place (chars ++ rest) =
      innerOpeners (count + 1) (place + chars.length) rest := by
  induction chars generalizing place with
  | nil => rfl
  | cons c more ih =>
      have others : Apart more := fun d member => apart d (List.mem_cons_of_mem c member)
      rw [List.cons_append, apart.silent.innerOpeners_cons, ih others, List.length_cons, Nat.add_assoc,
        Nat.add_comm 1]

end Counting

/-! ## Inside comments -/

section Inside
variable {source : Source} {place stop : Nat} (ignore : Bool)

/-- A marker has none of these characters in it. -/
theorem doctag_lacks : ∀ c ∈ ['/', '*', '\n'], Ready.doctag.opener.Lacks c := by
  decide +kernel

/-- A marker takes characters, and none with which a comment opens or closes or a line ends. -/
theorem doctag_takes (inside : place ≤ source.size) (marker : Ready.doctag.stop? source place = some stop) :
    place < stop ∧ stop ≤ source.size ∧ ∀ c ∈ ['/', '*', '\n'], c ∉ source.part place stop := by
  obtain ⟨text, accepted⟩ := Option.filter_eq_some_iff.mp marker
  have taken : Ready.doctag.opener.stop? source.chars place source.size = some stop := text
  have bounds := Program.stop?_bounds inside taken
  have proper : place < stop := of_decide_eq_true
    (Bool.and_eq_true_iff.mp (Bool.and_eq_true_iff.mp accepted).1).1
  refine ⟨proper, bounds.2, fun c barred member => ?_⟩
  obtain ⟨index, before, here⟩ := List.mem_iff_getElem.mp member
  rw [source.part_length bounds.2] at before
  have fits : place + index < stop := by omega
  have there := source.part_getElem? fits
  rw [List.getElem?_eq_getElem (by rw [source.part_length bounds.2]; omega), here] at there
  exact (doctag_lacks c barred).stop? taken (place + index) (Nat.le_add_right _ _) (by omega) there.symm

theorem lineComment_border? (source : Source) (place : Nat) :
    (Ready.highlighter.ignoring ignore).border? source (some Ready.lineComment) place =
      match Ready.doctag.stop? source place with
      | some stop => some (.inner (.single 1 Ready.doctag stop))
      | none => if source.chars[place]?.all (· == '\n') then some (.closer place) else none := by
  have rules : Ready.lineComment.rules = [1] := rfl
  have listed : (Ready.highlighter.ignoring ignore).rules[1]? = some (.single Ready.doctag) := rfl
  have closer : Ready.lineComment.closer.stop? source.chars place source.size =
      if source.chars[place]?.all (· == '\n') then some place else none := by
    have found := Program.stop?_ofPattern (p := Patterns.lineEnd) rfl source.chars place source.size
    rw [Patterns.lineEnd, Pattern.ways, Assertion.holds] at found
    refine Eq.trans found ?_
    cases source.chars[place]?.all (· == '\n') <;> rfl
  rw [Highlighter.border?_of_lawful rfl, rules, Highlighter.firstMatch?_single _ listed, closer]
  cases Ready.doctag.stop? source place with
  | some stop => rfl
  | none =>
      rw [Highlighter.firstMatch?]
      cases source.chars[place]?.all (· == '\n') <;> rfl

theorem blockComment_border? (source : Source) (place : Nat) :
    (Ready.highlighter.ignoring ignore).border? source (some Ready.blockComment) place =
      if source.holdsAt "/*".toList place then some (.inner (.container 2 Ready.blockComment (place + 2)))
      else match Ready.doctag.stop? source place with
        | some stop => some (.inner (.single 3 Ready.doctag stop))
        | none => if source.holdsAt "*/".toList place then some (.closer (place + 2)) else none := by
  have rules : Ready.blockComment.rules = [2, 3] := rfl
  have listed : (Ready.highlighter.ignoring ignore).rules[3]? = some (.single Ready.doctag) := rfl
  have itself : (Ready.highlighter.ignoring ignore).rules[2]? = some (.container Ready.blockComment) := rfl
  have opener : Ready.blockComment.opener.stop? source.chars place source.size =
      if source.holdsAt "/*".toList place then some (place + 2) else none :=
    Program.stop?_literal "/*".toList source place
  have closer : Ready.blockComment.closer.stop? source.chars place source.size =
      if source.holdsAt "*/".toList place then some (place + 2) else none :=
    Program.stop?_literal "*/".toList source place
  rw [Highlighter.border?_of_lawful rfl, rules, Highlighter.firstMatch?, itself, Option.bind_some,
    Rule.match?, Highlighter.firstMatch?_single _ listed, opener, closer]
  by_cases opens : source.holdsAt "/*".toList place = true
  · have proper : decide (place < place + 2) = true := decide_eq_true (by omega)
    rw [if_pos opens, if_pos opens, Option.filter_some, if_pos proper]
    rfl
  · rw [if_neg opens, if_neg opens]
    cases Ready.doctag.stop? source place with
    | some stop => rfl
    | none =>
        simp only [Option.filter_none, Option.map_none, Highlighter.firstMatch?]
        cases source.holdsAt "*/".toList place <;> rfl

/-- Text in a comment is not sorted into words. -/
theorem comment_textNodes {rule : ContainerRule} (wordless : rule.words = none) (start stop : Nat) :
    (Ready.highlighter.ignoring ignore).textNodes source (some rule) start stop = [.text start stop] := by
  have words : (Ready.highlighter.ignoring ignore).wordsIn (some rule) = none := wordless
  rw [Highlighter.textNodes, words]
  rfl

/-- What is left of a line. -/
def lineLength (text : List Char) : Nat :=
  (text.takeWhile (· != '\n')).length

theorem lineLength_append {chars rest : List Char} (within : '\n' ∉ chars) :
    lineLength (chars ++ rest) = chars.length + lineLength rest := by
  have all : ∀ c ∈ chars, (c != '\n') = true := by
    intro c member
    rw [bne_iff_ne]
    rintro rfl
    exact within member
  rw [lineLength, List.takeWhile_append_of_pos all, List.length_append, lineLength]

/-- A line comment is read to the end of its line. -/
theorem lineComment_descends (first : Nat) (inside : place ≤ source.size) :
    ∃ nodes, (Ready.highlighter.ignoring ignore).Descends source (some Ready.lineComment) first place
      (place + lineLength (source.part place source.size)) nodes := by
  generalize left : source.size - place = room
  induction room using Nat.strongRecOn generalizing first place with
  | ind room ih =>
      subst left
      rcases Nat.eq_or_lt_of_le inside with rfl | before
      · rw [source.part_self]
        exact ⟨_, .ends (Nat.le_refl _)⟩
      · have stands := lineComment_border? ignore source place
        cases marker : Ready.doctag.stop? source place with
        | some stop =>
            obtain ⟨proper, within, free⟩ := doctag_takes inside marker
            rw [marker] at stands
            obtain ⟨nodes, descends⟩ := ih (source.size - stop) (by omega) stop within rfl
            have length : place + lineLength (source.part place source.size) =
                stop + lineLength (source.part stop source.size) := by
              rw [← source.part_append (Nat.le_of_lt proper) within,
                lineLength_append (free '\n' (by decide)), source.part_length within]
              omega
            rw [length]
            exact ⟨_, .flat before stands rfl descends⟩
        | none =>
            have here : source.chars[place]? = some source.chars[place] := Array.getElem?_eq_getElem before
            rw [marker, here, Option.all_some] at stands
            rw [source.part_cons before here]
            by_cases ends : source.chars[place] = '\n'
            · rw [if_pos (beq_iff_eq.mpr ends)] at stands
              rw [ends]
              exact ⟨_, .closer before stands⟩
            · rw [if_neg (by rwa [beq_iff_eq])] at stands
              obtain ⟨nodes, descends⟩ := ih (source.size - (place + 1)) (by omega) first before rfl
              have length : lineLength (source.chars[place] :: source.part (place + 1) source.size) =
                  1 + lineLength (source.part (place + 1) source.size) := by
                have free : '\n' ∉ [source.chars[place]] := by simpa using Ne.symm ends
                exact lineLength_append free
              rw [length, ← Nat.add_assoc]
              exact ⟨nodes, (Highlighter.Descends.iff_of_plain before stands).mpr descends⟩

/-- Where the comment that opens at a place ends. -/
def commentStop (source : Source) (place : Nat) : Nat :=
  place + 2 + untilZero 1 (source.part (place + 2) source.size)

/-- The marks of comments, from left to right. -/
def commentMarks (nodes : List Node) : List Marking :=
  (Node.marksAll nodes).filter (·.scope == .comment)

theorem commentMarks_append (left right : List Node) :
    commentMarks (left ++ right) = commentMarks left ++ commentMarks right := by
  rw [commentMarks, Node.marksAll_append, List.filter_append]
  rfl

theorem commentMarks_comment (start stop : Nat) (nodes : List Node) :
    commentMarks [.marked .comment start stop (Node.joined nodes)] =
      ⟨.comment, start, stop⟩ :: commentMarks nodes := by
  rw [commentMarks, Node.marksAll, Node.marks, Node.marksAll, List.append_nil, Node.marksAll_joined]
  rfl

/-- The comments that open at these places. -/
def commentsAt (source : Source) (places : List Nat) : List Marking :=
  places.map fun place => ⟨.comment, place, commentStop source place⟩

/-- From a place in a block comment the descent comes to where the count comes to zero, and marks the
comments that open on the way. -/
def Counts (ignore : Bool) (source : Source) (first place : Nat) : Prop :=
  ∃ nodes, (Ready.highlighter.ignoring ignore).Descends source (some Ready.blockComment) first place
    (place + untilZero 1 (source.part place source.size)) nodes ∧
      commentMarks nodes = commentsAt source (innerOpeners 1 place (source.part place source.size))

namespace Counts
variable {ignore} {first : Nat}

theorem ends : Counts ignore source first source.size := by
  rw [Counts, source.part_self]
  exact ⟨_, .ends (Nat.le_refl _), rfl⟩

theorem opener (before : place < source.size) (opens : source.holdsAt "/*".toList place = true)
    (inside : Counts ignore source place (place + 2))
    (behind : Counts ignore source (commentStop source place) (commentStop source place)) :
    Counts ignore source first place := by
  have stands := blockComment_border? ignore source place
  rw [if_pos opens] at stands
  obtain ⟨within, descends, marks⟩ := inside
  obtain ⟨others, rest, further⟩ := behind
  have text : source.part place source.size = '/' :: '*' :: source.part (place + 2) source.size :=
    Source.left_of_holdsAt opens
  have dropped := source.left_drop (place + 2) (untilZero 1 (source.part (place + 2) source.size))
  -- The count has come back to one where the inner comment ends.
  have length : place + untilZero 1 (source.part place source.size) = commentStop source place +
      untilZero 1 (source.part (commentStop source place) source.size) := by
    rw [text, untilZero, untilZero_add 1 1, dropped, commentStop]
    omega
  have openers : innerOpeners 1 place (source.part place source.size) =
      place :: (innerOpeners 1 (place + 2) (source.part (place + 2) source.size) ++
        innerOpeners 1 (commentStop source place)
          (source.part (commentStop source place) source.size)) := by
    rw [text, innerOpeners, innerOpeners_add 1 1, dropped, commentStop]
  rw [Counts, length, openers]
  refine ⟨_, .container before stands descends rest, ?_⟩
  have wrapped : Yield.wrapped Ready.blockComment.scope place (commentStop source place)
      (Node.joined within) = [.marked .comment place (commentStop source place) (Node.joined within)] := rfl
  have before : commentMarks ((Ready.highlighter.ignoring ignore).textNodes source
      (some Ready.blockComment) first place) = [] := by
    rw [comment_textNodes ignore rfl]
    rfl
  rw [commentMarks_append, commentMarks_append, before, List.nil_append]
  refine (congrArg (· ++ commentMarks others) (congrArg commentMarks wrapped)).trans ?_
  rw [commentMarks_comment, marks, further, commentsAt, commentsAt, commentsAt, List.map_cons, List.map_append]
  rfl

theorem marker {stop : Nat} (inside : place ≤ source.size)
    (marked : Ready.doctag.stop? source place = some stop) (behind : Counts ignore source stop stop) :
    Counts ignore source first place := by
  obtain ⟨proper, within, free⟩ := doctag_takes inside marked
  have before : place < source.size := Nat.lt_of_lt_of_le proper within
  have letter : source.holdsAt "/*".toList place = false := by
    rw [← Bool.not_eq_true]
    intro opens
    have here : source.chars[place]? = some '/' := source.char_of_holdsAt opens
    apply free '/' (by decide)
    rw [source.part_cons proper here]
    exact List.mem_cons_self
  have stands := blockComment_border? ignore source place
  rw [letter, if_neg Bool.false_ne_true, marked] at stands
  obtain ⟨others, rest, further⟩ := behind
  have apart : Apart (source.part place stop) := by
    intro c member
    exact ⟨fun same => free '/' (by decide) (same ▸ member), fun same => free '*' (by decide) (same ▸ member)⟩
  have text := source.part_append (Nat.le_of_lt proper) within
  have there : place + (source.part place stop).length = stop := by
    rw [source.part_length within]
    omega
  rw [Counts, ← text, apart.untilZero_append, apart.innerOpeners_append, there, ← Nat.add_assoc, there]
  refine ⟨_, .flat before stands rfl rest, ?_⟩
  rw [commentMarks_append, comment_textNodes ignore rfl]
  exact further

theorem closer (before : place < source.size) (unmarked : Ready.doctag.stop? source place = none)
    (closes : source.holdsAt "*/".toList place = true) : Counts ignore source first place := by
  have text : source.part place source.size = '*' :: '/' :: source.part (place + 2) source.size :=
    Source.left_of_holdsAt closes
  have noOpener : source.holdsAt "/*".toList place = false := by
    rw [← Bool.not_eq_true, source.holdsAt_iff_part, text]
    simp
  have stands := blockComment_border? ignore source place
  rw [noOpener, if_neg Bool.false_ne_true, unmarked, if_pos closes] at stands
  rw [Counts, text, untilZero, untilZero, Nat.zero_add, innerOpeners, innerOpeners]
  refine ⟨_, .closer before stands, ?_⟩
  rw [comment_textNodes ignore rfl]
  rfl

theorem plain (before : place < source.size) (unmarked : Ready.doctag.stop? source place = none)
    (noOpener : source.holdsAt "/*".toList place = false)
    (noCloser : source.holdsAt "*/".toList place = false)
    (behind : Counts ignore source first (place + 1)) : Counts ignore source first place := by
  have stands := blockComment_border? ignore source place
  rw [noOpener, noCloser, if_neg Bool.false_ne_true, unmarked] at stands
  have text := source.part_cons before (Array.getElem?_eq_getElem before)
  have silent : Silent (source.part place source.size) := by
    constructor
    · intro rest same
      have opens : source.holdsAt "/*".toList place = true := by
        rw [source.holdsAt_iff_part, same]
        exact List.prefix_append "/*".toList rest
      exact absurd opens (ne_true_of_eq_false noOpener)
    · intro rest same
      have closes : source.holdsAt "*/".toList place = true := by
        rw [source.holdsAt_iff_part, same]
        exact List.prefix_append "*/".toList rest
      exact absurd closes (ne_true_of_eq_false noCloser)
  rw [text] at silent
  obtain ⟨nodes, rest, further⟩ := behind
  have length : place + (untilZero 1 (source.part (place + 1) source.size) + 1) =
      place + 1 + untilZero 1 (source.part (place + 1) source.size) := by
    omega
  rw [Counts, text, silent.untilZero_cons, silent.innerOpeners_cons, length]
  exact ⟨nodes, (Highlighter.Descends.iff_of_plain before stands).mpr rest, further⟩

end Counts

/-- A block comment is read to where the count of comments comes to zero, and so is each one inside it. -/
theorem blockComment_counts (first : Nat) (inside : place ≤ source.size) :
    Counts ignore source first place := by
  generalize left : source.size - place = room
  induction room using Nat.strongRecOn generalizing first place with
  | ind room ih =>
      subst left
      rcases Nat.eq_or_lt_of_le inside with rfl | before
      · exact .ends
      cases opens : source.holdsAt "/*".toList place with
      | true => 
          have within : place + 2 ≤ source.size := source.holdsAt_le inside opens
          have inner : Counts ignore source place (place + 2) := ih _ (by omega) place within rfl
          have stops : commentStop source place ≤ source.size := by
            obtain ⟨_, descends, _⟩ := inner
            exact descends.stop_le
          have behind : Counts ignore source (commentStop source place) (commentStop source place) :=
            ih _ (by rw [commentStop]; omega) _ stops rfl
          exact .opener before opens inner behind
      | false =>
          cases marked : Ready.doctag.stop? source place with
          | some stop =>
              obtain ⟨proper, within, _⟩ := doctag_takes inside marked
              exact .marker inside marked (ih _ (by omega) stop within rfl)
          | none =>
              cases closes : source.holdsAt "*/".toList place with
              | true => exact .closer before marked closes
              | false => exact .plain before marked opens closes (ih _ (by omega) first before rfl)

end Inside

/-- Where a scan outside of all containers comes to two slashes, a comment goes up to the end of the line.
Where it comes to `/*`, a comment goes to where the count comes back to zero, and the comments inside it
are those that open on the way, each up to where its own count comes to zero. -/
theorem comments_end_by_count (text : String) :
    let source := Source.ofString text
    ∃ result, (highlighter.ignoring true).highlight text = .ok result ∧
      ∀ scan, (highlighter.ignoring true).Visits source scan → scan.containers = [] →
        (source.holdsAt "//".toList scan.pos = true →
          ∃ children, .marked .comment scan.pos
            (scan.pos + lineLength (text.toList.drop scan.pos)) children ∈ result.nodes) ∧
        (source.holdsAt "/*".toList scan.pos = true →
          ∃ children, .marked .comment scan.pos (commentStop source scan.pos) children ∈ result.nodes ∧
            commentMarks children = commentsAt source
              (innerOpeners 1 (scan.pos + 2) (text.toList.drop (scan.pos + 2)))) := by
  intro source
  rw [highlighter_eq]
  obtain ⟨result, highlighted⟩ := Highlighter.highlight_lenient Ready.highlighter text
  refine ⟨result, highlighted, ?_⟩
  intro scan visits bare
  have start := Nat.le_of_lt visits.inside
  constructor
  · intro stands
    have inside : scan.pos + 2 ≤ source.size := source.holdsAt_le start stands
    obtain ⟨nodes, descends⟩ := lineComment_descends true scan.pos inside
    have whole : lineLength (text.toList.drop scan.pos) =
        2 + lineLength (source.part (scan.pos + 2) source.size) := by
      have left : text.toList.drop scan.pos = source.part scan.pos source.size :=
        (source.left_eq_drop scan.pos).symm
      rw [left, Source.left_of_holdsAt stands, lineLength_append (by decide)]
      rfl
    rw [whole, ← Nat.add_assoc]
    exact ⟨_, Highlighter.highlight_opened highlighted visits bare
      (firstMatch?_lineComment true stands) rfl descends⟩
  · intro stands
    have inside : scan.pos + 2 ≤ source.size := source.holdsAt_le start stands
    obtain ⟨nodes, descends, marks⟩ := blockComment_counts true scan.pos inside
    rw [source.left_eq_drop (scan.pos + 2)] at marks
    refine ⟨_, Highlighter.highlight_opened highlighted visits bare
      (firstMatch?_blockComment true stands) rfl descends, ?_⟩
    rw [commentMarks, Node.marksAll_joined]
    exact marks

/-- Two comments inside one that is not closed: the first of them is, the second one is not. -/
def nestedComments : String := "/*/TODO:/**//*x*"

theorem nestedComments_counted : ∃ result, (highlighter.ignoring true).highlight nestedComments = .ok result ∧
    ∃ children, .marked .comment 0 16 children ∈ result.nodes ∧
      commentMarks children = [⟨.comment, 8, 12⟩, ⟨.comment, 12, 16⟩] := by
  obtain ⟨result, highlighted, each⟩ := comments_end_by_count nestedComments
  have starts : (highlighter.ignoring true).Visits (.ofString nestedComments) {} :=
    ⟨⟨0, rfl⟩, by decide⟩
  have stands : (Source.ofString nestedComments).holdsAt "/*".toList 0 = true := by decide
  obtain ⟨children, member, marks⟩ := (each {} starts rfl).2 stands
  have stop : commentStop (.ofString nestedComments) 0 = 16 := by decide
  have inner : commentsAt (.ofString nestedComments)
      (innerOpeners 1 2 (nestedComments.toList.drop 2)) =
        [⟨.comment, 8, 12⟩, ⟨.comment, 12, 16⟩] := by decide
  rw [stop] at member
  exact ⟨result, highlighted, children, member, marks.trans inner⟩

end Jacy

end Highlighting
