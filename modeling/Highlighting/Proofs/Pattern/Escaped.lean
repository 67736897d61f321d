import Highlighting.Pattern.Parser

/-! # Escaped text

An escaped character is read as the character itself. A choice between escaped texts can always be read,
and it is read as a choice between just these texts. -/
set_option autoImplicit false
namespace Highlighting.Pattern

/-- A literal text as it is read: a sequence of its characters. -/
def Item.ofText (text : List Char) : Item :=
  .sequence (text.map fun c => { pattern := char (.single c) })

/-- The pattern of a choice between literal texts. A lone one is no choice. -/
def literalChoice : List (List Char) → Pattern
  | [text] => literal text
  | texts => oneOf (texts.map literal)

/-- A sequence of characters is the pattern for their text. -/
theorem Item.ofText_pattern (text : List Char) : (Item.ofText text).pattern = literal text := by
  have each : (text.map fun c => char (.single c)).flatMap members = text.map fun c => char (.single c) := by
    induction text with
    | nil => rfl
    | cons c rest ih =>
        rw [List.map_cons, List.flatMap_cons, ih]
        rfl
  rw [ofText, Item.sequence, List.map_map, inOrder]
  exact congrArg seqs each

theorem Item.choice_ofText (texts : List (List Char)) :
    (choice (texts.map ofText)).pattern = literalChoice texts := by
  have patterns : (texts.map ofText).map (·.pattern) = texts.map literal := by
    rw [List.map_map]
    exact List.map_congr_left fun text _ => ofText_pattern text
  cases texts with
  | nil => rfl
  | cons text rest =>
      cases rest with
      | nil => exact ofText_pattern text
      | cons other others => exact congrArg oneOf patterns

/-- An escaped character is read as the character itself. -/
theorem next?_escapedChar (c : Char) (rest : List Char) :
    Token.next? {} (escapedChar c ++ rest) = some (.literal c, rest) := by
  unfold escapedChar
  split
  · next special =>
      simp only [metaCharacters, List.mem_cons, List.not_mem_nil, or_false] at special
      rcases special with rfl | rfl | rfl | rfl | rfl | rfl | rfl | rfl | rfl | rfl | rfl | rfl | rfl |
        rfl | rfl | rfl | rfl | rfl <;> rfl
  · next plain =>
      rw [List.singleton_append]
      unfold Token.next?
      dsimp only
      -- Every character that a token may start with by a rule of its own is among the special ones.
      split <;> first | rfl | exact absurd (by decide) plain

theorem length_escapedChar (c : Char) : 1 ≤ (escapedChar c).length := by
  unfold escapedChar
  split <;> simp

namespace Reading

theorem read?_token {fuel : Nat} {reading next : Reading} {token : Token} {text rest : List Char}
    (plain : reading.flags = {}) (taken : Token.next? {} text = some (token, rest))
    (stepped : reading.step? token = some next) :
    read? (fuel + 1) reading text = read? fuel next rest := by
  cases text with
  | nil => exact nomatch taken
  | cons c behind =>
      have stays : reading.flags.skip (c :: behind) = c :: behind := by rw [plain]; rfl
      rw [read?.eq_def, stays, plain]
      simp only [taken, stepped, Option.bind_eq_bind, Option.bind_some]

theorem read?_end (fuel : Nat) {reading : Reading} (plain : reading.flags = {}) :
    read? fuel reading [] = reading.item? := by
  have stays : reading.flags.skip [] = [] := by rw [plain]; rfl
  rw [read?.eq_def, stays]

/-- A reading with these items at the start of the choice that is being read. -/
def withItems (reading : Reading) (items : List Item) : Reading :=
  { reading with choices := { reading.choices with items := items.reverse ++ reading.choices.items } }

/-- Escaped text is read to its end, each character as an item. -/
theorem read?_escaped {text rest : List Char} :
    ∀ {fuel : Nat} {reading : Reading}, reading.flags = {} → (escaped text ++ rest).length ≤ fuel →
      ∃ left, rest.length ≤ left ∧ read? fuel reading (escaped text ++ rest) =
        read? left (reading.withItems (text.map fun c => { pattern := char (.single c) })) rest := by
  induction text with
  | nil =>
      intro fuel reading _ enough
      exact ⟨fuel, enough, rfl⟩
  | cons c others ih =>
      intro fuel reading plain enough
      rw [escaped, List.flatMap_cons, List.append_assoc, ← escaped] at enough ⊢
      have one := length_escapedChar c
      rw [List.length_append] at enough
      obtain ⟨fuel, rfl⟩ : ∃ fewer, fuel = fewer + 1 := Nat.exists_eq_add_one_of_ne_zero (by omega)
      let next := reading.withItems [{ pattern := char (.single c) }]
      have stepped : reading.step? (.literal c) = some next := by
        rw [step?, plain]
        rfl
      have plainNext : next.flags = {} := plain
      rw [read?_token plain (next?_escapedChar c _) stepped]
      have fewer : (escaped others ++ rest).length ≤ fuel := by omega
      obtain ⟨left, fits, read⟩ := ih plainNext fewer
      refine ⟨left, fits, ?_⟩
      rw [read]
      simp [next, withItems]

theorem current_withItems {reading : Reading} (fresh : reading.choices.items = []) (items : List Item) :
    (reading.withItems items).choices.current = .sequence items := by
  simp [withItems, Choices.current, fresh]

/-- A choice between escaped texts is read to its end, each text as a choice. -/
theorem read?_escapedChoice {texts : List (List Char)} :
    ∀ {fuel : Nat} {reading : Reading}, texts ≠ [] → reading.flags = {} → reading.outer = [] →
      reading.choices.items = [] → (escapedChoice texts).length ≤ fuel →
        read? fuel reading (escapedChoice texts) =
          some (.choice (reading.choices.finished.reverse ++ texts.map Item.ofText)) := by
  induction texts with
  | nil => intro fuel reading absurdity; exact absurd rfl absurdity
  | cons text rest ih =>
      intro fuel reading _ plain closed fresh enough
      cases rest with
      | nil =>
          have whole : escapedChoice [text] = escaped text ++ [] := (List.append_nil _).symm
          rw [whole] at enough ⊢
          obtain ⟨left, _, read⟩ := read?_escaped plain enough
          let last := reading.withItems (text.map fun c => { pattern := char (.single c) })
          have plainLast : last.flags = {} := plain
          have current : last.choices.current = Item.ofText text := current_withItems fresh _
          rw [read, read?_end left plainLast, item?, Choices.item, current]
          simp [last, withItems, closed]
      | cons other others =>
          have whole : escapedChoice (text :: other :: others) =
              escaped text ++ '|' :: escapedChoice (other :: others) := rfl
          rw [whole] at enough ⊢
          obtain ⟨left, fits, read⟩ := read?_escaped plain enough
          obtain ⟨left, rfl⟩ : ∃ fewer, left = fewer + 1 :=
            Nat.exists_eq_add_one_of_ne_zero (by rw [List.length_cons] at fits; omega)
          rw [List.length_cons] at fits
          let first := reading.withItems (text.map fun c => { pattern := char (.single c) })
          let second : Reading := { first with choices := first.choices.bar }
          have plainFirst : first.flags = {} := plain
          have plainSecond : second.flags = {} := plain
          have closedSecond : second.outer = [] := closed
          have current : first.choices.current = Item.ofText text := current_withItems fresh _
          have bar : Token.next? {} ('|' :: escapedChoice (other :: others)) =
              some (.bar, escapedChoice (other :: others)) := rfl
          have stepped : first.step? .bar = some second := rfl
          have behind := ih (List.cons_ne_nil other others) plainSecond closedSecond rfl
            (Nat.le_of_succ_le_succ fits)
          have finished : second.choices.finished = Item.ofText text :: reading.choices.finished :=
            congrArg (· :: reading.choices.finished) current
          rw [read, read?_token plainFirst bar stepped, behind, finished]
          simp

end Reading

theorem depthOf_le {depths : List Nat} {limit : Nat} (below : ∀ depth ∈ depths, depth ≤ limit) :
    depthOf depths ≤ limit + 1 := by
  have folded : ∀ (rest : List Nat) (first : Nat), first ≤ limit → (∀ depth ∈ rest, depth ≤ limit) →
      rest.foldl max first ≤ limit := by
    intro rest
    induction rest with
    | nil => exact fun _ small _ => small
    | cons depth rest ih =>
        intro first small others
        obtain ⟨here, behind⟩ := List.forall_mem_cons.mp others
        exact ih (max first depth) (Nat.max_le.mpr ⟨small, here⟩) behind
  unfold depthOf
  split
  · exact Nat.zero_le _
  · next depth => exact Nat.le_succ_of_le (below depth List.mem_cons_self)
  · exact Nat.succ_le_succ (folded depths 0 (Nat.zero_le limit) below)

theorem Item.ofText_depth (text : List Char) : (ofText text).depth ≤ 1 := by
  have flat : ∀ depth ∈ (text.map fun c => ({ pattern := char (.single c) } : Item)).map (·.depth),
      depth ≤ 0 := by
    intro depth member
    rw [List.map_map] at member
    obtain ⟨c, _, rfl⟩ := List.mem_map.mp member
    exact Nat.le_refl 0
  exact depthOf_le flat

theorem Item.choice_depth {items : List Item} {limit : Nat} (below : ∀ item ∈ items, item.depth ≤ limit) :
    (choice items).depth ≤ limit + 1 := by
  unfold choice
  split
  · next item => exact Nat.le_succ_of_le (below item List.mem_cons_self)
  · refine depthOf_le ?_
    intro depth member
    obtain ⟨item, listed, rfl⟩ := List.mem_map.mp member
    exact below item listed

/-- The pattern text of a choice between literal texts can be read, and it is this choice. -/
theorem parse?_escapedChoice {texts : List (List Char)} (nonempty : texts ≠ []) :
    parse? (String.ofList (escapedChoice texts)) = some (literalChoice texts) := by
  have start : ({} : Reading).flags = {} := rfl
  have read := Reading.read?_escapedChoice nonempty start rfl rfl (Nat.le_refl (escapedChoice texts).length)
  have shallow : (Item.choice (texts.map Item.ofText)).depth ≤ nestingLimit := by
    have low : (Item.choice (texts.map Item.ofText)).depth ≤ 2 := by
      refine Item.choice_depth ?_
      intro item member
      obtain ⟨text, _, rfl⟩ := List.mem_map.mp member
      exact Item.ofText_depth text
    exact Nat.le_trans low (by decide)
  rw [parse?, String.toList_ofList, read, ← Item.choice_ofText]
  exact if_pos shallow

end Highlighting.Pattern
