import Highlighting.Proofs.Jacy.Openings
import Highlighting.Proofs.Scan.Fences

/-! # Raw strings in Jacy

A raw string ends at the first quote with as many hashes behind it as its opener has, and no more. So it
holds any content in which behind no quote there are exactly as many hashes: the content is written
between the fences and the whole text is read as one string. -/
set_option autoImplicit false
namespace Highlighting

/-- A tree with one scope over its whole text has one region and one token. -/
theorem Highlight.of_leaf {result : Highlight} {scope : Scope}
    (tree : result.nodes = [.leaf scope 0 result.source.size]) :
    let text := result.source.toString
    (∃ span, result.regions = [⟨scope, text, 0, text.utf8ByteSize, span, 0⟩]) ∧
      ∃ span, result.tokens = [⟨some scope, text, 0, text.utf8ByteSize, span⟩] := by
  have slice : result.source.slice 0 result.source.size = result.source.toString := by
    rw [Source.slice, Source.part_whole, Source.toString]
  constructor
  · simp only [regions, scopes, tree, Node.leaf, Node.scopesAll, Node.scopes, List.append_nil,
      List.map_cons, List.map_nil, Cursor.spans, List.zipWith_cons_cons, List.zipWith_nil_left, slice,
      Source.offset_zero, Source.offset_size]
    exact ⟨_, rfl⟩
  · simp only [tokens, leaves, tree, Node.leaf, Node.leavesAll, Node.leaves, List.append_nil,
      List.map_cons, List.map_nil, Cursor.spans, List.zipWith_cons_cons, List.zipWith_nil_left, slice,
      Source.offset_zero, Source.offset_size]
    exact ⟨_, rfl⟩

namespace Jacy

/-- So many hashes. -/
def hashes (count : Nat) : List Char :=
  List.replicate count '#'

/-- How many hashes stand at the start. -/
def leadingHashes (chars : List Char) : Nat :=
  (chars.takeWhile (· == '#')).length

/-- Behind no quote in the content there are exactly so many hashes. -/
def Admissible (count : Nat) (content : List Char) : Prop :=
  ∀ place < content.length, content[place]? = some '"' →
    leadingHashes (content.drop (place + 1)) ≠ count

instance (count : Nat) (content : List Char) : Decidable (Admissible count content) :=
  inferInstanceAs (Decidable (∀ place < content.length, _))

/-- The opener of a raw string. -/
def rawOpening (byte : Bool) (count : Nat) : List Char :=
  prefixed byte 'r' ++ (hashes count ++ ['"'])

/-- The content between fences of so many hashes. -/
def rawText (byte : Bool) (count : Nat) (content : String) : String :=
  (if byte then "b" else "") ++ "r" ++ String.ofList (hashes count) ++ "\"" ++ content ++ "\"" ++
    String.ofList (hashes count)

/-! ## Closers in a content -/

theorem leadingHashes_hashes {count : Nat} {rest : List Char} (ends : rest.head? ≠ some '#') :
    leadingHashes (hashes count ++ rest) = count := by
  have all : ∀ c ∈ hashes count, (c == '#') = true := by
    intro c member
    rw [List.eq_of_mem_replicate member]
    rfl
  have none : rest.takeWhile (· == '#') = [] := by
    cases rest with
    | nil => rfl
    | cons c more =>
        have other : (c == '#') = false := by simpa using ends
        rw [List.takeWhile_cons, other]
        rfl
  rw [leadingHashes, List.takeWhile_append_of_pos all, none, List.append_nil, hashes,
    List.length_replicate]

theorem leadingHashes_quote (chars rest : List Char) :
    leadingHashes (chars ++ '"' :: rest) = leadingHashes chars := by
  induction chars with
  | nil => rfl
  | cons c more ih =>
      rw [leadingHashes, leadingHashes, List.cons_append, List.takeWhile_cons, List.takeWhile_cons]
      cases c == '#' with
      | true => exact congrArg (· + 1) ih
      | false => rfl

/-- The closer behind an admissible content is the only one that no hash follows. -/
theorem Admissible.closer {count : Nat} {content front behind : List Char}
    (admissible : Admissible count content) (ends : behind.head? ≠ some '#')
    (split : front ++ '"' :: hashes count ++ behind = content ++ '"' :: hashes count) :
    behind = [] := by
  have length := congrArg List.length split
  simp only [List.length_append, List.length_cons] at length
  by_cases early : front.length < content.length
  · -- The quote of the closer is in the content, with as many hashes behind it.
    have quote : content[front.length]? = some '"' := by
      have there := congrArg (·[front.length]?) split
      simp only [List.append_assoc, List.cons_append, List.getElem?_append_right (Nat.le_refl _),
        Nat.sub_self, List.getElem?_append_left early, List.getElem?_cons_zero] at there
      exact there.symm
    have later : hashes count ++ behind = content.drop (front.length + 1) ++ '"' :: hashes count := by
      have dropped := congrArg (List.drop (front.length + 1)) split
      rw [List.drop_append_of_le_length early, List.append_assoc, List.drop_append,
        List.drop_of_length_le (Nat.le_succ _), Nat.add_sub_cancel_left] at dropped
      exact dropped
    have counted : leadingHashes (content.drop (front.length + 1)) = count := by
      rw [← leadingHashes_quote _ (hashes count), ← later, leadingHashes_hashes ends]
    exact absurd counted (admissible front.length early quote)
  · exact List.eq_nil_of_length_eq_zero (by omega)

/-! ## The rule of raw strings -/

section Rule
variable {source : Source} {place count : Nat} {byte : Bool}

/-- The group takes all hashes that stand there. -/
theorem head?_hashes {m : Match} (stands : source.holdsAt (hashes count) m.stop = true)
    (quote : source.chars[m.stop + count]? = some '"') :
    ((Pattern.capture 1 none (Patterns.many (.single '#'))).ways source.chars source.size m).head? =
      some ⟨m.stop + count, ⟨1, false, m.stop + count⟩ :: ⟨1, true, m.stop⟩ :: m.marks⟩ := by
  have inside : m.stop + count < source.size := (Array.getElem?_eq_some_iff.mp quote).1
  have ends : source.chars[m.stop + count]?.any (CharSet.single '#').contains = false := by
    rw [quote]
    decide
  have each : ∀ passed, m.stop ≤ passed → passed < m.stop + count →
      source.chars[passed]?.any (CharSet.single '#').contains = true := by
    intro passed after before
    have length : (hashes count).length = count := List.length_replicate
    obtain ⟨c, member, here⟩ := source.char_of_stands stands after (length.symm ▸ before)
    rw [here, List.eq_of_mem_replicate member]
    decide
  have taken := Pattern.head?_ways_many (m := { m with marks := ⟨1, true, m.stop⟩ :: m.marks })
    (Nat.le_of_lt inside) ends (Nat.le_add_right _ _) each
  rw [Pattern.ways, List.head?_map, Patterns.many, taken]
  rfl

/-- The opener is matched as it stands, and its group takes the hashes. -/
theorem rawString_opener (stands : source.holdsAt (rawOpening byte count) place = true) :
    ∃ m, Ready.rawString.opener.match? source.chars place source.size = some m ∧
      m.stop = place + (rawOpening byte count).length ∧
      Fence.marks ⟨1, '"', '#'⟩ source m = hashes count := by
  have length : (hashes count).length = count := List.length_replicate
  rw [rawOpening, source.holdsAt_append, source.holdsAt_append, length] at stands
  obtain ⟨letters, stands⟩ := Bool.and_eq_true_iff.mp stands
  obtain ⟨marks, quote⟩ := Bool.and_eq_true_iff.mp stands
  let opened : Match := ⟨place, [⟨0, true, place⟩]⟩
  obtain ⟨before, first, letter, within, start⟩ := head?_maybe_before 'b' (m := opened) (by decide) letters
  have start : place + (prefixed byte 'r').length = before + 1 := start.symm
  rw [start] at marks quote
  have ending := source.char_of_holdsAt quote
  have inside : before + 1 + count < source.size := (Array.getElem?_eq_some_iff.mp ending).1
  have second : ((Patterns.one 'r').ways source.chars source.size { opened with stop := before }).head? =
      some { opened with stop := before + 1 } :=
    head?_one within letter
  have third := head?_hashes (m := { opened with stop := before + 1 }) marks ending
  have whole : (Patterns.rawString.ways source.chars source.size opened).head? =
      some ⟨before + 1 + count + 1,
        [⟨1, false, before + 1 + count⟩, ⟨1, true, before + 1⟩, ⟨0, true, place⟩]⟩ :=
    Pattern.head?_flatMap_of_head? first (Pattern.head?_flatMap_of_head? second
      (Pattern.head?_flatMap_of_head? third (head?_one inside ending)))
  have found := Program.match?_ofPattern (p := Patterns.rawString) (by decide) source.chars place source.size
  rw [Pattern.ways, List.head?_map, whole, Option.map_some] at found
  refine ⟨_, found, ?_, ?_⟩
  · simp only [rawOpening, List.length_append, length, List.length_singleton]
    omega
  · have text := source.slice_of_holdsAt marks
    rw [length] at text
    exact String.ofList_injective text

/-- An admissible content and the closer behind it are closed by the end of the source only. -/
theorem Admissible.isLeast {content : List Char} (admissible : Admissible count content)
    (behind : source.part place source.size = content ++ '"' :: hashes count) :
    IsLeast {stop | Fence.Closes ⟨1, '"', '#'⟩ source (hashes count) place stop} source.size := by
  constructor
  · refine ⟨Nat.le_refl _, ?_, ?_⟩
    · rw [behind]
      exact List.suffix_append _ _
    · rw [show source.chars[source.size]? = none from Array.getElem?_eq_none (Nat.le_refl _)]
      exact nofun
  · intro stop closes
    obtain ⟨front, split⟩ := closes.closer
    by_cases ordered : place ≤ stop
    · have parts := source.part_append ordered closes.inside
      rw [← split, behind] at parts
      have unmarked : (source.part stop source.size).head? ≠ some '#' := by
        rw [source.part_head?_size closes.inside]
        exact closes.unmarked
      have nothing := congrArg List.length (admissible.closer unmarked parts)
      rw [source.part_length (Nat.le_refl _), List.length_nil] at nothing
      omega
    · -- Nothing is between the end of the opener and an earlier place.
      rw [Source.part, Array.extract_empty_of_stop_le_start (by omega)] at split
      simp at split

/-- A raw string with admissible content is matched up to the end of the source, if its closer is there. -/
theorem rawString_stop? {content : List Char} (admissible : Admissible count content)
    (inside : place < source.size)
    (whole : source.part place source.size =
      rawOpening byte count ++ (content ++ '"' :: hashes count)) :
    Ready.rawString.stop? source place = some source.size := by
  have stands : source.holdsAt (rawOpening byte count) place = true := by
    rw [source.holdsAt_iff_part, whole]
    exact List.prefix_append _ _
  obtain ⟨within, _, behind⟩ :=
    source.part_of_append (Nat.le_of_lt inside) (Nat.le_refl _) whole.symm
  obtain ⟨m, opened, stop, marks⟩ := rawString_opener stands
  have least := admissible.isLeast behind
  rw [← stop, ← marks] at least
  rw [← stop] at within
  have text : Ready.rawString.textStop? source place = some source.size := by
    have search : Ready.rawString.textStop? source place =
        Fence.match? ⟨1, '"', '#'⟩ Ready.rawString.opener source place := rfl
    rw [search, Fence.match?, opened]
    exact (Fence.stop?_eq_some_iff _ source _ within).mpr least
  have accepted : Ready.rawString.accepts source place source.size = true := by
    rw [SingleRule.accepts, decide_eq_true inside]
    rfl
  rw [SingleRule.stop?, text, Option.filter_some, if_pos accepted]

theorem firstMatch?_rawString {content : List Char} (ignore : Bool)
    (admissible : Admissible count content) (inside : place < source.size)
    (whole : source.part place source.size =
      rawOpening byte count ++ (content ++ '"' :: hashes count)) :
    (Ready.highlighter.ignoring ignore).firstMatch? source place Ready.root =
      some (.single 6 Ready.rawString source.size) := by
  have stands : source.holdsAt (prefixed byte 'r') place = true := by
    rw [source.holdsAt_iff_part, whole, rawOpening, List.append_assoc]
    exact List.prefix_append _ _
  have matched : (Rule.single Ready.rawString).match? source place 6 =
      some (.single 6 Ready.rawString source.size) := by
    rw [Rule.match?, rawString_stop? admissible inside whole, Option.map_some]
  have refused : ∀ byte, Refused [0, 2, 4] (prefixed byte 'r') := by
    decide +kernel
  have root : Ready.root = [0, 2, 4] ++ 6 :: Ready.root.drop 4 := rfl
  exact firstMatch?_of_refused ignore root rfl (refused byte) stands matched

end Rule

/-! ## Texts -/

theorem rawText_toList (byte : Bool) (count : Nat) (content : String) :
    (rawText byte count content).toList =
      rawOpening byte count ++ (content.toList ++ '"' :: hashes count) := by
  cases byte <;> simp [rawText, rawOpening, prefixed]

/-- A raw string with admissible content is read as one string, which is the only marked range and the
only token of its text, whether illegal text is ignored or not. -/
theorem raw_string_whole (byte : Bool) (count : Nat) (content : String)
    (admissible : Admissible count content.toList) (ignore : Bool) :
    let text := rawText byte count content
    ∃ result, (highlighter.ignoring ignore).highlight text = .ok result ∧
      (∃ span, result.regions = [⟨.string, text, 0, text.utf8ByteSize, span, 0⟩]) ∧
      ∃ span, result.tokens = [⟨some .string, text, 0, text.utf8ByteSize, span⟩] := by
  intro text
  rw [highlighter_eq]
  let source := Source.ofString text
  have chars : source.part 0 source.size =
      rawOpening byte count ++ (content.toList ++ '"' :: hashes count) := by
    rw [source.part_whole]
    exact rawText_toList byte count content
  have inside : 0 < source.size := by
    have length := congrArg List.length chars
    rw [source.part_length (Nat.le_refl _), List.length_append, List.length_append,
      List.length_cons] at length
    omega
  have stands : (Ready.highlighter.ignoring ignore).border? source none 0 =
      some (.inner (.single 6 Ready.rawString source.size)) := by
    have first := firstMatch?_rawString ignore admissible inside chars
    have root : (Ready.highlighter.ignoring ignore).rulesIn none = Ready.root := rfl
    rw [Highlighter.border?, root, first]
  have descends : (Ready.highlighter.ignoring ignore).Descends source none 0 0 source.size _ :=
    .flat inside stands rfl (.ends (Nat.le_refl _))
  obtain ⟨result, highlighted, same, nodes⟩ := Highlighter.highlight_of_descends descends
  have tree : result.nodes = [.leaf .string 0 result.source.size] := by
    have ended : Found.stop (.single 6 Ready.rawString source.size) = source.size := rfl
    rw [ended] at nodes
    rw [nodes, same, Node.joined, ← Scan.pushAll_append, ← Scan.pushAll_append,
      Highlighter.pushAll_textNodes_self, Highlighter.pushAll_textNodes_self]
    rfl
  have whole : result.source.toString = text := by
    rw [same, Source.toString_ofString]
  have read := Highlight.of_leaf tree
  rw [whole] at read
  exact ⟨result, highlighted, read⟩

/-- Quotes with too few and with too many hashes behind them do not close the string, not even in front of
its closer. -/
def quoting : String := "\"##</\\\n/*é\""

theorem quoting_whole :
    let text := rawText true 1 quoting
    Admissible 1 quoting.toList ∧
      ∃ result, (highlighter.ignoring false).highlight text = .ok result ∧
        (∃ span, result.regions = [⟨.string, text, 0, text.utf8ByteSize, span, 0⟩]) ∧
        ∃ span, result.tokens = [⟨some .string, text, 0, text.utf8ByteSize, span⟩] := by
  have admissible : Admissible 1 quoting.toList := by decide
  exact ⟨admissible, raw_string_whole true 1 quoting admissible false⟩

end Jacy

end Highlighting
