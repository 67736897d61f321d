import Highlighting.Proofs.Scan.Illegal
import Highlighting.Proofs.Scan.Simulation

/-! # Highlighters that sort alike

Rules touch a word table only by sorting text with it. Two highlighters whose rules are the same apart
from word tables that sort every text alike therefore come to the same result. -/
set_option autoImplicit false
namespace Highlighting

/-- Both tables, or their absence, make the same of every stretch of text. -/
def SortAlike (left right : Option WordTable) : Prop :=
  ∀ (source : Source) (start stop : Nat),
    Yield.ofText source left start stop = Yield.ofText source right start stop

/-- Tables that find the same words and operators, and give them the same scopes. -/
structure WordTable.Alike (left right : WordTable) : Prop where
  pattern : left.pattern = right.pattern
  scope? : ∀ word, left.scope? word = right.scope? word
  operators : ∀ (source : Source) (place limit : Nat),
    left.operators.bind (·.stop? source.chars place limit) =
      right.operators.bind (·.stop? source.chars place limit)

namespace WordTable.Alike
variable {left right : WordTable}

theorem lookUp_eq (alike : left.Alike right) (source : Source) (start stop : Nat) :
    left.lookUp source start stop = right.lookUp source start stop := by
  simp only [lookUp, alike.scope?]

theorem sortFrom_eq (alike : left.Alike right) (source : Source) (stop room : Nat) :
    ∀ (place : Nat) (sorting : Sorting),
      left.sortFrom source stop room place sorting = right.sortFrom source stop room place sorting := by
  induction room with
  | zero => exact fun _ _ => rfl
  | succ room ih =>
      intro place sorting
      simp only [sortFrom, alike.pattern, alike.lookUp_eq, alike.operators, ih]

theorem sortAlike (alike : left.Alike right) : SortAlike (some left) (some right) := by
  intro source start stop
  have sorted : left.sort source start stop = right.sort source start stop :=
    congrArg (·.finish stop) (alike.sortFrom_eq source stop (stop - start) start { last := start })
  rw [Yield.ofText, Yield.ofText, sorted]

end WordTable.Alike

def SingleRule.wordless (rule : SingleRule) : SingleRule :=
  { rule with words := none }

def ContainerRule.wordless (rule : ContainerRule) : ContainerRule :=
  { rule with words := none }

/-- Rules that are the same apart from words that sort alike. -/
structure SingleRule.Alike (left right : SingleRule) : Prop where
  same : left.wordless = right.wordless
  words : SortAlike left.words right.words

structure ContainerRule.Alike (left right : ContainerRule) : Prop where
  same : left.wordless = right.wordless
  words : SortAlike left.words right.words

inductive Rule.Alike : Rule → Rule → Prop where
  | single {left right : SingleRule} (alike : left.Alike right) : Rule.Alike (.single left) (.single right)
  | parts (rule : PartsRule) : Rule.Alike (.parts rule) (.parts rule)
  | container {left right : ContainerRule} (alike : left.Alike right) :
      Rule.Alike (.container left) (.container right)

inductive Found.Alike : Found → Found → Prop where
  | single (index stop : Nat) {left right : SingleRule} (alike : left.Alike right) :
      Found.Alike (.single index left stop) (.single index right stop)
  | parts (index : Nat) (rule : PartsRule) (stop : Nat) (parts : List Part) :
      Found.Alike (.parts index rule stop parts) (.parts index rule stop parts)
  | container (index stop : Nat) {left right : ContainerRule} (alike : left.Alike right) :
      Found.Alike (.container index left stop) (.container index right stop)

inductive Border.Alike : Border → Border → Prop where
  | inner {left right : Found} (alike : left.Alike right) : Border.Alike (.inner left) (.inner right)
  | closer (stop : Nat) : Border.Alike (.closer stop) (.closer stop)
  | illegal (stop : Nat) : Border.Alike (.illegal stop) (.illegal stop)

/-- Highlighters that are the same apart from words that sort alike. -/
structure Highlighter.Alike (left right : Highlighter) : Prop where
  name : left.name = right.name
  rules : ∀ index : Nat, Option.Rel Rule.Alike left.rules[index]? right.rules[index]?
  root : left.root = right.root
  words : SortAlike (some left.words) (some right.words)
  illegal : left.illegal = right.illegal
  ignoreIllegal : left.ignoreIllegal = right.ignoreIllegal

/-! ## Matching alike -/

/-- What a rule has apart from its words is the same. -/
theorem SingleRule.Alike.apart {left right : SingleRule} {kind : Type} (alike : left.Alike right)
    (has : SingleRule → kind) (wordless : ∀ rule, has rule.wordless = has rule) :
    has left = has right := by
  rw [← wordless left, alike.same, wordless right]

theorem ContainerRule.Alike.apart {left right : ContainerRule} {kind : Type} (alike : left.Alike right)
    (has : ContainerRule → kind) (wordless : ∀ rule, has rule.wordless = has rule) :
    has left = has right := by
  rw [← wordless left, alike.same, wordless right]

theorem Rule.Alike.match? {left right : Rule} (alike : left.Alike right) (source : Source)
    (place index : Nat) :
    Option.Rel Found.Alike (left.match? source place index) (right.match? source place index) := by
  cases alike with
  | single alike =>
      rw [Rule.match?, Rule.match?, alike.apart (·.stop? source place) fun _ => rfl]
      cases SingleRule.stop? _ source place with
      | none => exact .none
      | some stop => exact .some (.single index stop alike)
  | parts rule =>
      rw [Rule.match?]
      cases rule.pattern.match? source.chars place source.size with
      | none => exact .none
      | some m =>
          dsimp only
          split
          · exact .some (.parts index rule m.stop (rule.locate m))
          · exact .none
  | @container left right alike =>
      rw [Rule.match?, Rule.match?, alike.apart (·.opener) fun _ => rfl]
      cases (right.opener.stop? source.chars place source.size).filter (place < ·) with
      | none => exact .none
      | some stop => exact .some (.container index stop alike)

namespace Highlighter.Alike
variable {left right : Highlighter} {source : Source} {around other : Option ContainerRule}

theorem firstMatch? (alike : left.Alike right) (source : Source) (place : Nat) (indices : List Nat) :
    Option.Rel Found.Alike (left.firstMatch? source place indices)
      (right.firstMatch? source place indices) := by
  induction indices with
  | nil => exact .none
  | cons index rest ih =>
      have tried : Option.Rel Found.Alike
          (left.rules[index]?.bind (·.match? source place index))
          (right.rules[index]?.bind (·.match? source place index)) := by
        have listed := alike.rules index
        generalize left.rules[index]? = first at listed
        generalize right.rules[index]? = second at listed
        cases listed with
        | none => exact .none
        | some same => exact same.match? source place index
      rw [Highlighter.firstMatch?, Highlighter.firstMatch?]
      generalize left.rules[index]?.bind (·.match? source place index) = first at tried
      generalize right.rules[index]?.bind (·.match? source place index) = second at tried
      cases tried with
      | none => exact ih
      | some found => exact .some found

theorem rulesIn (alike : left.Alike right) (same : Option.Rel ContainerRule.Alike around other) :
    left.rulesIn around = right.rulesIn other := by
  cases same with
  | none => exact alike.root
  | some container => exact container.apart (·.rules) fun _ => rfl

theorem wordsIn (alike : left.Alike right) (same : Option.Rel ContainerRule.Alike around other) :
    SortAlike (left.wordsIn around) (right.wordsIn other) := by
  cases same with
  | none => exact alike.words
  | some container => exact container.words

theorem illegalIn (alike : left.Alike right) (same : Option.Rel ContainerRule.Alike around other) :
    left.illegalIn around = right.illegalIn other := by
  cases same with
  | none => exact alike.illegal
  | some container => exact container.apart (·.illegal) fun _ => rfl

theorem border? (alike : left.Alike right) (source : Source)
    (same : Option.Rel ContainerRule.Alike around other) (place : Nat) :
    Option.Rel Border.Alike (left.border? source around place) (right.border? source other place) := by
  have first := alike.firstMatch? source place (left.rulesIn around)
  have closer : around.bind (·.closer.stop? source.chars place source.size) =
      other.bind (·.closer.stop? source.chars place source.size) := by
    cases same with
    | none => rfl
    | some container => exact container.apart (·.closer.stop? source.chars place source.size) fun _ => rfl
  rw [Highlighter.border?, Highlighter.border?, ← alike.rulesIn same, closer, alike.illegalIn same,
    alike.ignoreIllegal]
  generalize left.firstMatch? source place (left.rulesIn around) = found at first
  generalize right.firstMatch? source place (left.rulesIn around) = also at first
  cases first with
  | some found => exact .some (.inner found)
  | none =>
      dsimp only
      cases other.bind (·.closer.stop? source.chars place source.size) with
      | some stop => exact .some (.closer stop)
      | none =>
          dsimp only
          split
          · exact .none
          · cases ((right.illegalIn other).bind (·.stop? source.chars place source.size)).filter
                (place < ·) with
            | none => exact .none
            | some stop => exact .some (.illegal stop)

/-- Borders at the same place. -/
def SoughtAlike (left right : Nat × Border) : Prop :=
  left.1 = right.1 ∧ left.2.Alike right.2

theorem seek (alike : left.Alike right) (source : Source)
    (same : Option.Rel ContainerRule.Alike around other) (room : Nat) :
    ∀ place, Option.Rel SoughtAlike (left.seek source around room place)
      (right.seek source other room place) := by
  induction room with
  | zero => exact fun _ => .none
  | succ room ih =>
      intro place
      have here := alike.border? source same place
      rw [Highlighter.seek, Highlighter.seek]
      generalize left.border? source around place = border at here
      generalize right.border? source other place = also at here
      cases here with
      | none => exact ih (place + 1)
      | some border => exact .some ⟨rfl, border⟩

/-! ## Reading alike -/

theorem ofParts_eq {table words : Option WordTable} (same : SortAlike table words) (source : Source)
    (stop : Nat) (parts : List Part) :
    ∀ last, Yield.ofParts source table stop last parts = Yield.ofParts source words stop last parts := by
  induction parts with
  | nil => exact fun _ => rfl
  | cons part rest ih =>
      intro last
      rw [Yield.ofParts, Yield.ofParts, ih, ih, same]

theorem plainText_eq (alike : left.Alike right) (same : Option.Rel ContainerRule.Alike around other)
    (first place next stop : Nat) :
    left.plainText source around first place next stop =
      right.plainText source other first place next stop := by
  rw [plainText, plainText, alike.wordsIn same]

theorem foundYield_eq (alike : left.Alike right) (same : Option.Rel ContainerRule.Alike around other)
    {found also : Found} (matched : found.Alike also) (place : Nat) :
    left.foundYield source around place found = right.foundYield source other place also := by
  cases matched with
  | single index stop rule =>
      have scope := rule.apart (·.scope) fun _ => rfl
      have relevance := rule.apart (·.relevance) fun _ => rfl
      rw [foundYield, foundYield, Yield.ofSingle, Yield.ofSingle, rule.words, scope, relevance]
  | parts index rule stop parts =>
      rw [foundYield, foundYield, ofParts_eq (alike.wordsIn same)]
  | container index stop rule =>
      exact congrArg Yield.ofMatch (rule.apart (·.relevance) fun _ => rfl)

theorem throughFound_eq (alike : left.Alike right) (source : Source)
    (same : Option.Rel ContainerRule.Alike around other) {found also : Found} (matched : found.Alike also)
    (first place next : Nat) :
    left.throughFound source around first place next found =
      right.throughFound source other first place next also := by
  rw [throughFound, throughFound, alike.plainText_eq same, alike.foundYield_eq same matched]

end Highlighter.Alike

namespace Highlighter
variable {highlighter : Highlighter} {source : Source} {around : Option ContainerRule}
  {first place next : Nat}

theorem left_of_end (source : Source) (place : Nat) :
    source.size - source.size ≤ source.size - place := by
  omega

theorem left_of_closer {stop : Nat}
    (sought : highlighter.seek source around (source.size - place) place = some (next, .closer stop)) :
    source.size - stop ≤ source.size - place := by
  have := seek_closer sought
  omega

theorem left_of_inner {found : Found}
    (sought : highlighter.seek source around (source.size - place) place = some (next, .inner found)) :
    source.size - found.stop ≤ source.size - place := by
  have := seek_inner sought
  omega

theorem descend_of_none
    (sought : highlighter.seek source around (source.size - place) place = none) :
    highlighter.descend source around first place =
      .ok
        { stop := source.size
          inside := Nat.le_refl _
          left_le := left_of_end source place
          yield := highlighter.plainText source around first place source.size source.size } := by
  rw [descend]
  split <;> rename_i other <;> cases sought.symm.trans other
  rfl

theorem descend_of_closer {stop : Nat}
    (sought : highlighter.seek source around (source.size - place) place = some (next, .closer stop)) :
    highlighter.descend source around first place =
      .ok
        { stop
          inside := (seek_closer sought).2.2
          left_le := left_of_closer sought
          yield := highlighter.plainText source around first place next stop } := by
  rw [descend]
  split <;> rename_i other <;> cases sought.symm.trans other
  rfl

theorem descend_of_illegal {stop : Nat}
    (sought : highlighter.seek source around (source.size - place) place = some (next, .illegal stop)) :
    highlighter.descend source around first place =
      .error (Refusal.illegalText ⟨next, stop, []⟩ source) := by
  rw [descend]
  split <;> rename_i other <;> cases sought.symm.trans other
  rfl

theorem descend_of_flat {found : Found} (flat : found.container? = none)
    (sought : highlighter.seek source around (source.size - place) place = some (next, .inner found)) :
    highlighter.descend source around first place = do
      let rest ← highlighter.descend source around found.stop found.stop
      return rest.behind (highlighter.throughFound source around first place next found)
        (left_of_inner sought) := by
  rw [descend]
  split <;> rename_i other <;> cases sought.symm.trans other
  dsimp only
  split <;> rename_i also <;> cases flat.symm.trans also
  rfl

theorem descend_of_container {found : Found} {container : ContainerRule}
    (opens : found.container? = some container)
    (sought : highlighter.seek source around (source.size - place) place = some (next, .inner found)) :
    highlighter.descend source around first place = do
      let inside ← highlighter.descend source (some container) next found.stop
      let rest ← highlighter.descend source around inside.stop inside.stop
      return rest.behind (highlighter.throughFound source around first place next found ++
          inside.enclosed container.scope next)
        (Nat.le_trans inside.left_le (left_of_inner sought)) := by
  rw [descend]
  split <;> rename_i other <;> cases sought.symm.trans other
  dsimp only
  split <;> rename_i also <;> cases opens.symm.trans also
  rfl

theorem Alike.descend_eq {left right : Highlighter} (alike : left.Alike right) (source : Source)
    (rest : Nat) :
    ∀ {around other : Option ContainerRule} {first place : Nat}, source.size - place = rest →
      Option.Rel ContainerRule.Alike around other →
        left.descend source around first place = right.descend source other first place := by
  induction rest using Nat.strongRecOn with
  | ind rest ih =>
      intro around other first place ahead same
      have sought := alike.seek source same (source.size - place) place
      generalize here : left.seek source around (source.size - place) place = border at sought
      generalize also : right.seek source other (source.size - place) place = border' at sought
      cases sought with
      | none => rw [descend_of_none here, descend_of_none also, alike.plainText_eq same]
      | @some sight sight' both =>
          obtain ⟨next, border⟩ := sight
          obtain ⟨next', border'⟩ := sight'
          obtain ⟨rfl, border⟩ := both
          cases border with
          | closer stop =>
              rw [descend_of_closer here, descend_of_closer also]
              simp only [alike.plainText_eq same]
          | illegal stop => rw [descend_of_illegal here, descend_of_illegal also]
          | @inner found found' matched =>
              have bounds := seek_inner here
              have through := alike.throughFound_eq source same matched first place next
              cases matched with
              | single index stop rule =>
                  rw [descend_of_flat rfl here, descend_of_flat rfl also, through]
                  dsimp only [Found.stop] at bounds ⊢
                  rw [ih (source.size - stop) (by omega) rfl same]
              | parts index rule stop parts =>
                  rw [descend_of_flat rfl here, descend_of_flat rfl also, through]
                  dsimp only [Found.stop] at bounds ⊢
                  rw [ih (source.size - stop) (by omega) rfl same]
              | container index stop rule =>
                  rw [descend_of_container rfl here, descend_of_container rfl also, through,
                    rule.apart (·.scope) fun _ => rfl]
                  dsimp only [Found.stop] at bounds ⊢
                  rw [ih (source.size - stop) (by omega) rfl (.some rule)]
                  refine congrArg (Except.bind _) (funext fun inside => ?_)
                  have behind := inside.left_le
                  rw [ih (source.size - inside.stop) (by omega) rfl same]

/-- Highlighters that sort alike come to the same result, or to the same illegal text. -/
theorem Alike.highlight_eq {left right : Highlighter} (alike : left.Alike right) (text : String) :
    left.highlight text = right.highlight text := by
  have descended : ∀ highlighter : Highlighter, highlighter.outcome (.ofString text) {} =
      (highlighter.descend (.ofString text) none 0 0).bind fun passage =>
        highlighter.leave (.ofString text) (({} : Scan).pass passage.yield passage.stop) :=
    fun highlighter => outcome_descend _ (Scan.ready_start _) rfl rfl rfl rfl
  rw [highlight_eq_outcome, highlight_eq_outcome, descended, descended, alike.name,
    alike.descend_eq _ _ rfl .none]
  cases right.descend (.ofString text) none 0 0 <;> rfl

theorem Alike.ignoring {left right : Highlighter} (alike : left.Alike right) (ignore : Bool) :
    (left.ignoring ignore).Alike (right.ignoring ignore) :=
  ⟨alike.name, alike.rules, alike.root, alike.words, alike.illegal, rfl⟩

end Highlighter

end Highlighting
