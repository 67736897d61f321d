import Mathlib.Data.List.Forall2
import Highlighting.Proofs.Pattern.Locality
import Highlighting.Proofs.Pattern.Renumbering

/-! # Patterns inside groups

Inside a group the text of a pattern is read as it is read alone. The reading goes on above the groups
that are open outside, its own groups have higher numbers, and whatever has been read is renumbered. A
text that hides blanks would not do, since a comment at its end would hide the end of the group. -/
set_option autoImplicit false
namespace Highlighting.Pattern

variable {shift : Nat} {holds weaker : Nat → Option String → Prop}

/-! ## Renumbered items -/

namespace Item

def renumber (shift : Nat) (item : Item) : Item :=
  { item with pattern := item.pattern.renumber shift }

theorem map_pattern_renumber (items : List Item) :
    (items.map (renumber shift)).map (·.pattern) = (items.map (·.pattern)).map (Pattern.renumber shift) := by
  rw [List.map_map, List.map_map]
  rfl

theorem map_depth_renumber (items : List Item) :
    (items.map (renumber shift)).map (·.depth) = items.map (·.depth) := by
  rw [List.map_map]
  rfl

theorem sequence_renumber (items : List Item) :
    sequence (items.map (renumber shift)) = (sequence items).renumber shift := by
  rw [sequence, map_pattern_renumber, inOrder_renumber, map_depth_renumber]
  rfl

theorem choice_renumber (items : List Item) :
    choice (items.map (renumber shift)) = (choice items).renumber shift := by
  rcases items with _ | ⟨item, _ | ⟨other, rest⟩⟩
  · exact congrArg (fun pattern => ({ pattern } : Item)) (oneOf_renumber [])
  · rfl
  · let several := item :: other :: rest
    let together (patterns : List Pattern) (depths : List Nat) : Item :=
      { pattern := oneOf patterns, depth := depthOf depths }
    calc choice (several.map (renumber shift))
      _ = together ((several.map (renumber shift)).map (·.pattern))
            ((several.map (renumber shift)).map (·.depth)) := rfl
      _ = together ((several.map (·.pattern)).map (Pattern.renumber shift)) (several.map (·.depth)) := by
        rw [map_pattern_renumber, map_depth_renumber]
      _ = (choice several).renumber shift := by
        simp only [together, oneOf_renumber]
        rfl

theorem rounds_renumber (item : Item) (least : Nat) (most : Option Nat) (greedy : Bool) :
    (item.renumber shift).rounds least most greedy = (item.rounds least most greedy).renumber shift := by
  rw [rounds, renumber, repeated_renumber]
  rfl

theorem every_sequence {items : List Item} (every : ∀ item ∈ items, item.pattern.Every holds) :
    (sequence items).pattern.Every holds :=
  every_inOrder (List.forall_mem_map.mpr every)

theorem every_choice {items : List Item} (every : ∀ item ∈ items, item.pattern.Every holds) :
    (choice items).pattern.Every holds := by
  unfold choice
  split
  · next item => exact every item List.mem_cons_self
  · exact every_oneOf (List.forall_mem_map.mpr every)

end Item

namespace Choices

def renumber (shift : Nat) (choices : Choices) : Choices where
  finished := choices.finished.map (Item.renumber shift)
  items := choices.items.map (Item.renumber shift)

theorem current_renumber (choices : Choices) :
    (choices.renumber shift).current = choices.current.renumber shift := by
  rw [current, renumber, ← List.map_reverse, Item.sequence_renumber]
  rfl

theorem bar_renumber (choices : Choices) :
    (choices.renumber shift).bar = choices.bar.renumber shift := by
  rw [bar, current_renumber]
  rfl

theorem item_renumber (choices : Choices) :
    (choices.renumber shift).item = choices.item.renumber shift := by
  rw [item, current_renumber, renumber, ← List.map_cons, ← List.map_reverse, Item.choice_renumber]
  rfl

theorem repeatLast?_renumber (choices : Choices) (least : Nat) (most : Option Nat) (greedy : Bool) :
    (choices.renumber shift).repeatLast? least most greedy =
      (choices.repeatLast? least most greedy).map (renumber shift) := by
  obtain ⟨finished, _ | ⟨item, items⟩⟩ := choices
  · rfl
  · have same : (item.renumber shift).rounds least most greedy = _ :=
      item.rounds_renumber least most greedy
    have repeatable : (item.renumber shift).repeatable = item.repeatable := rfl
    simp only [renumber, repeatLast?, List.map_cons, same, repeatable]
    split <;> rfl

/-- What holds of every capturing group that has been read. -/
structure Every (holds : Nat → Option String → Prop) (choices : Choices) : Prop where
  finished : ∀ item ∈ choices.finished, item.pattern.Every holds
  items : ∀ item ∈ choices.items, item.pattern.Every holds

variable {choices : Choices}

theorem every_none : Every holds {} :=
  ⟨List.forall_mem_nil _, List.forall_mem_nil _⟩

theorem Every.imp (every : choices.Every holds)
    (weaken : ∀ number name, holds number name → weaker number name) : choices.Every weaker :=
  ⟨fun item listed => (every.finished item listed).imp weaken,
    fun item listed => (every.items item listed).imp weaken⟩

theorem Every.push {item : Item} (every : choices.Every holds) (also : item.pattern.Every holds) :
    (choices.push item).Every holds :=
  ⟨every.finished, List.forall_mem_cons.mpr ⟨also, every.items⟩⟩

theorem Every.current (every : choices.Every holds) : choices.current.pattern.Every holds :=
  Item.every_sequence fun item listed => every.items item (List.mem_reverse.mp listed)

theorem Every.bar (every : choices.Every holds) : choices.bar.Every holds :=
  ⟨List.forall_mem_cons.mpr ⟨every.current, every.finished⟩, List.forall_mem_nil _⟩

theorem Every.item (every : choices.Every holds) : choices.item.pattern.Every holds :=
  Item.every_choice fun item listed =>
    every.bar.finished item (List.mem_reverse.mp listed)

theorem Every.repeatLast? {least : Nat} {most : Option Nat} {greedy : Bool} {again : Choices}
    (every : choices.Every holds) (repeated : choices.repeatLast? least most greedy = some again) :
    again.Every holds := by
  obtain ⟨finished, _ | ⟨item, items⟩⟩ := choices
  · cases repeated
  · obtain ⟨here, behind⟩ := List.forall_mem_cons.mp every.items
    simp only [Choices.repeatLast?] at repeated
    split at repeated
    · cases repeated
      exact ⟨every.finished, List.forall_mem_cons.mpr ⟨every_repeated here _ _ _, behind⟩⟩
    · cases repeated

end Choices

/-! ## Readings token by token -/

namespace Reading

/-- Token by token, a reading of the text comes to its end. Blanks are read like other characters. -/
inductive Reads : Reading → List Char → Reading → Prop
  | done {reading : Reading} (terse : reading.flags.verbose = false) : Reads reading [] reading
  | token {reading next last : Reading} {token : Token} {text rest : List Char}
      (terse : reading.flags.verbose = false)
      (taken : Token.next? reading.flags text = some (token, rest))
      (stepped : reading.step? token = some next) (onward : Reads next rest last) :
      Reads reading text last

/-- Whether blanks are read like other characters all along a text. -/
def isTerse (fuel : Nat) (reading : Reading) (text : List Char) : Bool :=
  !reading.flags.verbose &&
    match fuel with
    | 0 => true
    | fuel + 1 =>
        match Token.next? reading.flags text with
        | none => true
        | some (token, rest) =>
            match reading.step? token with
            | none => true
            | some next => isTerse fuel next rest

variable {fuel : Nat} {reading : Reading} {text : List Char} {item : Item}

/-- A text is read to its end, or one token of it is read, and then the rest. -/
theorem read?_cases (terse : reading.flags.verbose = false) (read : read? fuel reading text = some item) :
    (text = [] ∧ reading.item? = some item) ∨
      ∃ token rest next fewer, fuel = fewer + 1 ∧ Token.next? reading.flags text = some (token, rest) ∧
        reading.step? token = some next ∧ read? fewer next rest = some item := by
  rw [read?.eq_def, Flags.skip_terse terse] at read
  split at read
  · exact .inl ⟨rfl, read⟩
  · cases read
  · next fewer _ =>
      obtain ⟨⟨token, rest⟩, taken, onward⟩ := Option.bind_eq_some_iff.mp read
      obtain ⟨next, stepped, onward⟩ := Option.bind_eq_some_iff.mp onward
      exact .inr ⟨token, rest, next, fewer, rfl, taken, stepped, onward⟩

theorem isTerse_flags (terse : isTerse fuel reading text = true) : reading.flags.verbose = false := by
  rw [isTerse.eq_def, Bool.and_eq_true, Bool.not_eq_true'] at terse
  exact terse.1

theorem reads_of_isTerse (terse : isTerse fuel reading text = true)
    (read : read? fuel reading text = some item) :
    ∃ last, Reads reading text last ∧ last.item? = some item := by
  induction fuel generalizing reading text with
  | zero =>
      rcases read?_cases (isTerse_flags terse) read with ⟨rfl, ended⟩ | ⟨_, _, _, _, fuel, _⟩
      · exact ⟨reading, .done (isTerse_flags terse), ended⟩
      · cases fuel
  | succ fuel ih =>
      have plain := isTerse_flags terse
      rcases read?_cases plain read with ⟨rfl, ended⟩ | ⟨token, rest, next, _, same, taken, stepped, onward⟩
      · exact ⟨reading, .done plain, ended⟩
      · cases same
        rw [isTerse, taken] at terse
        simp only [stepped, Bool.and_eq_true] at terse
        obtain ⟨last, reads, ended⟩ := ih terse.2 onward
        exact ⟨last, .token plain taken stepped reads, ended⟩

theorem Reads.terse {last : Reading} (reads : Reads reading text last) : last.flags.verbose = false := by
  induction reads with
  | done terse => exact terse
  | token _ _ _ _ ih => exact ih

/-- After one token, the rest of the text is read from there. -/
theorem read?_onward {token : Token} {rest : List Char} (terse : reading.flags.verbose = false)
    (taken : Token.next? reading.flags text = some (token, rest))
    (read : read? fuel reading text = some item) :
    ∃ next fewer, reading.step? token = some next ∧ read? fewer next rest = some item := by
  rcases read?_cases terse read with ⟨rfl, _⟩ | ⟨_, _, next, fewer, _, same, stepped, onward⟩
  · cases taken
  · rw [taken] at same
    cases same
    exact ⟨next, fewer, stepped, onward⟩

end Reading

/-! ## Numbered groups -/

/-- What holds of every capturing group around an open one, and of the group itself if it captures. What
is wrapped in it may have groups of other kinds, and then so has the whole. -/
structure OpenGroup.Every (holds : Nat → Option String → Prop) (group : OpenGroup) : Prop where
  choices : group.choices.Every holds
  wraps : ∀ {weaker : Nat → Option String → Prop},
    (∀ number name, holds number name → weaker number name) →
      ∀ {p : Pattern}, p.Every weaker → (group.wrap p).Every weaker

theorem OpenGroup.Every.imp {group : OpenGroup} (every : group.Every holds)
    (weaken : ∀ number name, holds number name → weaker number name) : group.Every weaker :=
  ⟨every.choices.imp weaken, fun weakest =>
    every.wraps fun number name known => weakest number name (weaken number name known)⟩

namespace Reading

/-- What holds of every capturing group that has been read, also of those that are still open. -/
structure Every (holds : Nat → Option String → Prop) (reading : Reading) : Prop where
  choices : reading.choices.Every holds
  outer : ∀ group ∈ reading.outer, group.Every holds

theorem Every.imp {reading : Reading} (every : reading.Every holds)
    (weaken : ∀ number name, holds number name → weaker number name) : reading.Every weaker :=
  ⟨every.choices.imp weaken, fun group opened => (every.outer group opened).imp weaken⟩

/-- The groups that have been read are numbered from one on, and their names are noted. -/
def Numbered (reading : Reading) : Prop :=
  reading.Every fun number name =>
    1 ≤ number ∧ number ≤ reading.groups ∧ ∀ known ∈ name, known ∈ reading.names

variable {reading next : Reading}

theorem leave?_parts (left : reading.leave? = some next) :
    ∃ group outer, reading.outer = group :: outer ∧ next = { reading with
      flags := group.flags
      choices := group.choices.push
        { pattern := group.wrap reading.choices.item.pattern, depth := reading.choices.item.depth + 1 }
      outer := outer } := by
  unfold leave? at left
  split at left
  · cases left
  · next group outer opened =>
      cases left
      exact ⟨group, outer, opened, rfl⟩

theorem enterCapture?_parts {name : Option String} (entered : reading.enterCapture? name = some next) :
    (∀ known ∈ name, known ∉ reading.names) ∧
      next = { reading.enter (.capture (reading.groups + 1) name) reading.flags with
        groups := reading.groups + 1, names := name.toList ++ reading.names } := by
  unfold enterCapture? at entered
  split at entered
  · cases entered
  · next fresh =>
      cases entered
      refine ⟨?_, rfl⟩
      rintro known rfl member
      exact fresh (List.contains_iff_mem.mpr member)

/-- A step that opens no capturing group. -/
theorem Every.plainStep (every : reading.Every holds) {token : Token}
    (plain : ∀ name, token ≠ .openCapture name) (stepped : reading.step? token = some next) :
    next.Every holds ∧ next.groups = reading.groups ∧ next.names = reading.names := by
  have pushes {p : Pattern} (also : p.Every holds) : (reading.push p).Every holds :=
    ⟨every.choices.push also, every.outer⟩
  cases token with
  | literal c =>
      cases stepped
      exact ⟨pushes trivial, rfl, rfl⟩
  | set set =>
      cases stepped
      exact ⟨⟨every.choices.push trivial, every.outer⟩, rfl, rfl⟩
  | check assertion =>
      cases stepped
      exact ⟨pushes trivial, rfl, rfl⟩
  | dot =>
      obtain ⟨set, _, rfl⟩ := Option.map_eq_some_iff.mp stepped
      exact ⟨pushes trivial, rfl, rfl⟩
  | caret | dollar =>
      cases stepped
      exact ⟨pushes trivial, rfl, rfl⟩
  | bar =>
      cases stepped
      exact ⟨⟨every.choices.bar, every.outer⟩, rfl, rfl⟩
  | openCapture name => exact absurd rfl (plain name)
  | openPlain changes =>
      cases stepped
      have group : (⟨id, reading.flags, reading.choices⟩ : OpenGroup).Every holds :=
        ⟨every.choices, fun _ _ inside => inside⟩
      exact ⟨⟨Choices.every_none, List.forall_mem_cons.mpr ⟨group, every.outer⟩⟩, rfl, rfl⟩
  | change changes =>
      cases stepped
      exact ⟨⟨every.choices.push trivial, every.outer⟩, rfl, rfl⟩
  | close =>
      obtain ⟨group, outer, opened, rfl⟩ := leave?_parts stepped
      have above := every.outer
      rw [opened] at above
      obtain ⟨here, others⟩ := List.forall_mem_cons.mp above
      have closed := here.wraps (fun _ _ known => known) every.choices.item
      exact ⟨⟨here.choices.push closed, others⟩, rfl, rfl⟩
  | rounds least most greedy =>
      obtain ⟨choices, repeated, rfl⟩ := Option.map_eq_some_iff.mp stepped
      exact ⟨⟨every.choices.repeatLast? repeated, every.outer⟩, rfl, rfl⟩

theorem Numbered.step (numbered : reading.Numbered) {token : Token}
    (stepped : reading.step? token = some next) : next.Numbered := by
  by_cases plain : ∀ name, token ≠ .openCapture name
  · obtain ⟨every, groups, names⟩ := Every.plainStep numbered plain stepped
    rw [Numbered, groups, names]
    exact every
  · obtain ⟨name, rfl⟩ := not_forall_not.mp plain
    obtain ⟨fresh, rfl⟩ := enterCapture?_parts stepped
    have more (number : Nat) (other : Option String)
        (known : 1 ≤ number ∧ number ≤ reading.groups ∧ ∀ known ∈ other, known ∈ reading.names) :
        1 ≤ number ∧ number ≤ reading.groups + 1 ∧
          ∀ known ∈ other, known ∈ name.toList ++ reading.names :=
      ⟨known.1, Nat.le_succ_of_le known.2.1, fun n member =>
        List.mem_append_right _ (known.2.2 n member)⟩
    have named : ∀ known ∈ name, known ∈ name.toList ++ reading.names := by
      rintro known rfl
      exact List.mem_append_left _ List.mem_cons_self
    have wider := numbered.imp more
    refine ⟨Choices.every_none, List.forall_mem_cons.mpr ⟨⟨wider.choices, ?_⟩, wider.outer⟩⟩
    intro weaker weaken p inside
    exact ⟨weaken _ _ ⟨Nat.le_add_left _ _, Nat.le_refl _, named⟩, inside⟩

theorem Numbered.reads {last : Reading} {text : List Char} (numbered : reading.Numbered)
    (reads : Reads reading text last) : last.Numbered := by
  induction reads with
  | done _ => exact numbered
  | token terse taken stepped onward ih => exact ih (numbered.step stepped)

theorem numbered_start : Numbered {} :=
  ⟨Choices.every_none, List.forall_mem_nil _⟩

end Reading

/-! ## Readings inside other readings -/

theorem Token.name?_closed {name rest left : List Char} {token : Token} (closed : '>' ∉ name)
    (taken : name? (name ++ '>' :: rest) = some (token, left)) :
    token = .openCapture (some (String.ofList name)) ∧ left = rest := by
  have inside : ∀ c ∈ name, (c != '>') = true := by
    intro c member
    rw [bne_iff_ne]
    rintro rfl
    exact closed member
  unfold name? at taken
  rw [List.span_eq_takeWhile_dropWhile, List.takeWhile_append_of_pos inside,
    List.dropWhile_append_of_pos inside, List.takeWhile_cons_of_neg (by simp),
    List.dropWhile_cons_of_neg (by simp), List.append_nil] at taken
  cases name with
  | nil => cases taken
  | cons first others =>
      dsimp only at taken
      split at taken
      · cases taken
        exact ⟨rfl, rfl⟩
      · cases taken

theorem Token.next?_named {flags : Flags} {name rest left : List Char} {token : Token}
    (terse : flags.verbose = false) (closed : '>' ∉ name)
    (taken : next? flags ('(' :: '?' :: 'P' :: '<' :: (name ++ '>' :: rest)) = some (token, left)) :
    token = .openCapture (some (String.ofList name)) ∧ left = rest := by
  have opened : next? flags ('(' :: '?' :: 'P' :: '<' :: (name ++ '>' :: rest)) =
      open? (flags.skip ('?' :: 'P' :: '<' :: (name ++ '>' :: rest))) := rfl
  rw [opened, Flags.skip_terse terse] at taken
  exact name?_closed closed taken

/-- A group of a reading and the same group inside another one. -/
structure OpenGroup.Mirrors (shift : Nat) (own whole : OpenGroup) : Prop where
  flags : whole.flags = own.flags
  choices : whole.choices = own.choices.renumber shift
  wrap : ∀ p : Pattern, whole.wrap (p.renumber shift) = (own.wrap p).renumber shift

namespace Reading

/-- A reading of its own and the same reading inside another one, which has read groups and names before
and has groups open around it. -/
structure Mirrors (shift : Nat) (around : List OpenGroup) (before : List String)
    (own whole : Reading) : Prop where
  flags : whole.flags = own.flags
  choices : whole.choices = own.choices.renumber shift
  outer : ∃ above, whole.outer = above ++ around ∧ List.Forall₂ (OpenGroup.Mirrors shift) own.outer above
  groups : whole.groups = own.groups + shift
  names : whole.names = own.names ++ before

variable {around : List OpenGroup} {before : List String} {own ownNext whole wholeNext : Reading}

/-- The choices and the flags can change alike in both. -/
theorem Mirrors.update (mirrors : Mirrors shift around before own whole) {ownFlags wholeFlags : Flags}
    {ownChoices wholeChoices : Choices} (flags : wholeFlags = ownFlags)
    (choices : wholeChoices = ownChoices.renumber shift) :
    Mirrors shift around before { own with flags := ownFlags, choices := ownChoices }
      { whole with flags := wholeFlags, choices := wholeChoices } :=
  ⟨flags, choices, mirrors.outer, mirrors.groups, mirrors.names⟩

/-- A group that opens in both is open above the groups around. -/
theorem Mirrors.enter (mirrors : Mirrors shift around before own whole) {ownFlags wholeFlags : Flags}
    {ownWrap wholeWrap : Pattern → Pattern} (flags : wholeFlags = ownFlags)
    (wrap : ∀ p : Pattern, wholeWrap (p.renumber shift) = (ownWrap p).renumber shift) :
    Mirrors shift around before (own.enter ownWrap ownFlags) (whole.enter wholeWrap wholeFlags) := by
  obtain ⟨above, outer, alike⟩ := mirrors.outer
  have opened : OpenGroup.Mirrors shift ⟨ownWrap, own.flags, own.choices⟩
      ⟨wholeWrap, whole.flags, whole.choices⟩ := ⟨mirrors.flags, mirrors.choices, wrap⟩
  refine ⟨flags, rfl, ⟨_ :: above, ?_, .cons opened alike⟩, mirrors.groups, mirrors.names⟩
  rw [Reading.enter, outer]
  rfl

theorem Mirrors.leave (mirrors : Mirrors shift around before own whole)
    (ownLeft : own.leave? = some ownNext) (wholeLeft : whole.leave? = some wholeNext) :
    Mirrors shift around before ownNext wholeNext := by
  obtain ⟨above, outer, alike⟩ := mirrors.outer
  obtain ⟨ownGroup, ownOuter, ownOpened, rfl⟩ := leave?_parts ownLeft
  obtain ⟨wholeGroup, wholeOuter, wholeOpened, rfl⟩ := leave?_parts wholeLeft
  rw [ownOpened] at alike
  cases alike with
  | @cons _ group _ above same others =>
      rw [wholeOpened] at outer
      obtain ⟨rfl, rfl⟩ := List.cons.inj outer
      have content : whole.choices.item = own.choices.item.renumber shift := by
        rw [mirrors.choices, Choices.item_renumber]
      have wrapped : wholeGroup.wrap whole.choices.item.pattern =
          (ownGroup.wrap own.choices.item.pattern).renumber shift := by
        rw [content]
        exact same.wrap own.choices.item.pattern
      refine ⟨same.flags, ?_, ⟨above, rfl, others⟩, mirrors.groups, mirrors.names⟩
      rw [same.choices, wrapped, content]
      rfl

theorem Mirrors.step {token : Token} (mirrors : Mirrors shift around before own whole)
    (ownStep : own.step? token = some ownNext) (wholeStep : whole.step? token = some wholeNext) :
    Mirrors shift around before ownNext wholeNext := by
  have pushed (item : Item) : whole.choices.push (item.renumber shift) =
      (own.choices.push item).renumber shift := by
    rw [mirrors.choices]
    rfl
  cases token with
  | literal c =>
      cases ownStep
      cases wholeStep
      rw [mirrors.flags]
      exact mirrors.update mirrors.flags (pushed { pattern := .char (own.flags.caseSet (.single c)) })
  | set set =>
      cases ownStep
      cases wholeStep
      exact mirrors.update mirrors.flags (pushed { pattern := .char set.set, depth := set.depth })
  | check assertion =>
      cases ownStep
      cases wholeStep
      exact mirrors.update mirrors.flags (pushed { pattern := .check assertion })
  | dot =>
      obtain ⟨set, ownDot, rfl⟩ := Option.map_eq_some_iff.mp ownStep
      obtain ⟨other, wholeDot, rfl⟩ := Option.map_eq_some_iff.mp wholeStep
      rw [mirrors.flags, ownDot] at wholeDot
      cases wholeDot
      exact mirrors.update mirrors.flags (pushed { pattern := .char set })
  | caret =>
      cases ownStep
      cases wholeStep
      rw [mirrors.flags]
      exact mirrors.update mirrors.flags (pushed { pattern := .check own.flags.lineStart })
  | dollar =>
      cases ownStep
      cases wholeStep
      rw [mirrors.flags]
      exact mirrors.update mirrors.flags (pushed { pattern := .check own.flags.lineEnd })
  | bar =>
      cases ownStep
      cases wholeStep
      refine mirrors.update mirrors.flags ?_
      rw [mirrors.choices, Choices.bar_renumber]
  | openCapture name =>
      obtain ⟨_, rfl⟩ := enterCapture?_parts ownStep
      obtain ⟨_, rfl⟩ := enterCapture?_parts wholeStep
      have wrap (p : Pattern) : capture (whole.groups + 1) name (p.renumber shift) =
          (capture (own.groups + 1) name p).renumber shift := by
        rw [mirrors.groups, Pattern.renumber, Nat.add_right_comm]
      have entered : Mirrors shift around before (own.enter (.capture (own.groups + 1) name) own.flags)
          (whole.enter (.capture (whole.groups + 1) name) whole.flags) :=
        mirrors.enter mirrors.flags wrap
      exact ⟨entered.flags, entered.choices, entered.outer, by rw [mirrors.groups, Nat.add_right_comm],
        by rw [mirrors.names, List.append_assoc]⟩
  | openPlain changes =>
      cases ownStep
      cases wholeStep
      exact mirrors.enter (by rw [mirrors.flags]) fun p => rfl
  | change changes =>
      cases ownStep
      cases wholeStep
      exact mirrors.update (by rw [mirrors.flags]) (pushed { pattern := .empty, repeatable := false })
  | close => exact mirrors.leave ownStep wholeStep
  | rounds least most greedy =>
      obtain ⟨choices, ownAgain, rfl⟩ := Option.map_eq_some_iff.mp ownStep
      obtain ⟨others, wholeAgain, rfl⟩ := Option.map_eq_some_iff.mp wholeStep
      rw [mirrors.flags, mirrors.choices, Choices.repeatLast?_renumber, ownAgain] at wholeAgain
      cases wholeAgain
      exact mirrors.update mirrors.flags rfl

/-- In front of a closing parenthesis, the whole reading goes along with the reading of its own. -/
theorem Mirrors.reads {last : Reading} {text behind : List Char} {fuel : Nat} {item : Item}
    (mirrors : Mirrors shift around before own whole) (reads : Reads own text last)
    (read : read? fuel whole (text ++ ')' :: behind) = some item) :
    ∃ there fewer, Mirrors shift around before last there ∧
      read? fewer there (')' :: behind) = some item := by
  induction reads generalizing whole fuel with
  | done _ => exact ⟨whole, fuel, mirrors, read⟩
  | token terse taken stepped onward ih =>
      have terseToo := terse
      rw [← mirrors.flags] at terseToo taken
      obtain ⟨next, fewer, steppedToo, further⟩ :=
        read?_onward terseToo (Token.next?_local terseToo taken behind) read
      exact ih (mirrors.step stepped steppedToo) further

/-- A reading that has come to its end is closed by a parenthesis into the group around it. -/
theorem Mirrors.close {group : OpenGroup} {text : List Char} {fuel : Nat} {item content : Item}
    (mirrors : Mirrors shift (group :: around) before own whole) (ended : own.item? = some content)
    (terse : own.flags.verbose = false) (read : read? fuel whole (')' :: text) = some item) :
    ∃ fewer depth, read? fewer { whole with
        flags := group.flags
        choices := group.choices.push
          { pattern := group.wrap (content.pattern.renumber shift), depth := depth }
        outer := around } text = some item := by
  have closed : own.outer = [] ∧ own.choices.item = content := by
    simpa [item?] using ended
  obtain ⟨above, outer, alike⟩ := mirrors.outer
  rw [closed.1] at alike
  cases alike
  rw [← mirrors.flags] at terse
  have taken : Token.next? whole.flags (')' :: text) = some (.close, text) := rfl
  obtain ⟨next, fewer, stepped, onward⟩ := read?_onward terse taken read
  obtain ⟨innermost, others, opened, rfl⟩ := leave?_parts stepped
  rw [outer, List.nil_append] at opened
  obtain ⟨rfl, rfl⟩ := List.cons.inj opened
  have same : whole.choices.item.pattern = content.pattern.renumber shift := by
    rw [mirrors.choices, Choices.item_renumber, closed.2]
    rfl
  rw [same] at onward
  exact ⟨fewer, _, onward⟩

/-- The reading behind a named group. What is in the group was read alone to this end. -/
def withGroup (reading last : Reading) (name : String) (content : Item) (depth : Nat) : Reading where
  flags := reading.flags
  choices := reading.choices.push
    { pattern := .capture (reading.groups + 1) (some name) (content.pattern.renumber (reading.groups + 1))
      depth := depth }
  outer := reading.outer
  groups := last.groups + (reading.groups + 1)
  names := last.names ++ name :: reading.names

/-- The text of a pattern in a named group, which may be named like no group before, is read as a group
around what is read of the text alone. -/
theorem read?_named {fuel : Nat} {reading last : Reading} {item content : Item}
    {name text behind : List Char} (start : reading.flags = {}) (closed : '>' ∉ name)
    (reads : Reads {} text last) (ended : last.item? = some content)
    (read : read? fuel reading
      ('(' :: '?' :: 'P' :: '<' :: (name ++ '>' :: (text ++ ')' :: behind))) = some item) :
    String.ofList name ∉ reading.names ∧ ∃ fewer depth,
      read? fewer (reading.withGroup last (String.ofList name) content depth) behind = some item := by
  have terse : reading.flags.verbose = false := by rw [start]
  rcases read?_cases terse read with ⟨absurdity, _⟩ | ⟨token, rest, next, fewer, _, taken, stepped, onward⟩
  · cases absurdity
  · obtain ⟨rfl, rfl⟩ := Token.next?_named terse closed taken
    obtain ⟨fresh, rfl⟩ := enterCapture?_parts stepped
    let group : OpenGroup :=
      ⟨.capture (reading.groups + 1) (some (String.ofList name)), reading.flags, reading.choices⟩
    have mirrors : Mirrors (reading.groups + 1) (group :: reading.outer)
        (String.ofList name :: reading.names) {} { reading with
          choices := {}, outer := group :: reading.outer, groups := reading.groups + 1
          names := String.ofList name :: reading.names } :=
      ⟨start, rfl, ⟨[], rfl, .nil⟩, (Nat.zero_add _).symm, rfl⟩
    obtain ⟨there, left, mirrors, further⟩ := mirrors.reads reads onward
    obtain ⟨fewest, depth, closes⟩ := mirrors.close ended reads.terse further
    refine ⟨fresh _ rfl, fewest, depth, ?_⟩
    rw [withGroup, ← mirrors.groups, ← mirrors.names]
    exact closes

end Reading

/-- Whether blanks are read like other characters all along the text of a pattern. -/
def isTerse (text : String) : Bool :=
  Reading.isTerse text.toList.length {} text.toList

/-- The groups of a pattern that has been read are numbered from one on. -/
theorem reads_of_parse? {text : String} {p : Pattern} (terse : isTerse text = true)
    (parsed : parse? text = some p) : ∃ last item, Reading.Reads {} text.toList last ∧
      last.item? = some item ∧ item.pattern = p ∧ p.Every fun number name =>
        1 ≤ number ∧ number ≤ last.groups ∧ ∀ known ∈ name, known ∈ last.names := by
  obtain ⟨item, read, shallow⟩ := Option.bind_eq_some_iff.mp parsed
  split at shallow
  · cases shallow
    obtain ⟨last, reads, ended⟩ := Reading.reads_of_isTerse terse read
    have numbered := Reading.numbered_start.reads reads
    refine ⟨last, item, reads, ended, rfl, ?_⟩
    have closed : last.outer = [] ∧ last.choices.item = item := by
      simpa [Reading.item?] using ended
    rw [← closed.2]
    exact numbered.choices.item
  · cases shallow

end Highlighting.Pattern
