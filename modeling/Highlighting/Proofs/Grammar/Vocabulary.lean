import Mathlib.Data.List.Forall2
import Highlighting.Proofs.Grammar.Listed
import Highlighting.Proofs.Pattern.Spellings
import Highlighting.Proofs.Scan.Alike

/-! # The order of words

A language lists its words and operators in some order, and may list them more than once. Languages
that list the same words compile to highlighters that sort alike: a word is looked up by the vocabularies
that list it, and of several operators the longest is taken. -/
set_option autoImplicit false
namespace Highlighting

/-- The same words, in any order and any number of times. -/
def SameWords (few many : List String) : Prop :=
  ∀ word, word ∈ few ↔ word ∈ many

instance (few many : List String) : Decidable (SameWords few many) :=
  decidable_of_iff ((∀ word ∈ few, word ∈ many) ∧ ∀ word ∈ many, word ∈ few)
    ⟨fun both word => ⟨both.1 word, both.2 word⟩, fun same =>
      ⟨fun word => (same word).mp, fun word => (same word).mpr⟩⟩

structure Keywords.Reordered (left right : Keywords) : Prop where
  pattern : left.pattern = right.pattern
  types : SameWords left.types right.types
  keyword : SameWords left.keyword right.keyword
  literal : SameWords left.literal right.literal
  builtIn : SameWords left.builtIn right.builtIn
  operator : SameWords left.operator right.operator

/-- The same rule apart from the order of its words. -/
inductive Single.Reordered : Single → Single → Prop where
  | words (rule : Single) {few many : Option Keywords} (same : Option.Rel Keywords.Reordered few many) :
      Single.Reordered { rule with keywords := few } { rule with keywords := many }

inductive Container.Reordered : Container → Container → Prop where
  | words (rule : Container) {few many : Option Keywords}
      (same : Option.Rel Keywords.Reordered few many) :
      Container.Reordered { rule with keywords := few } { rule with keywords := many }

mutual

inductive Entry.Reordered : Entry → Entry → Prop where
  | single {left right : Single} (same : left.Reordered right) :
      Entry.Reordered (.single left) (.single right)
  | parts (rule : Parts) : Entry.Reordered (.parts rule) (.parts rule)
  | container {left right : Container} {rules others : List Entry} (same : left.Reordered right)
      (inside : Entry.ReorderedAll rules others) :
      Entry.Reordered (.container left rules) (.container right others)
  | named (name : String) : Entry.Reordered (.named name) (.named name)
  | enclosing : Entry.Reordered .enclosing .enclosing

inductive Entry.ReorderedAll : List Entry → List Entry → Prop where
  | nil : Entry.ReorderedAll [] []
  | cons {left right : Entry} {rest others : List Entry} (same : left.Reordered right)
      (behind : Entry.ReorderedAll rest others) : Entry.ReorderedAll (left :: rest) (right :: others)

end

/-- The same language apart from the order of the words in its vocabularies. -/
structure Language.Reordered (left right : Language) : Prop where
  name : left.name = right.name
  aliases : left.aliases = right.aliases
  keywords : left.keywords.Reordered right.keywords
  illegal : left.illegal = right.illegal
  rules : Entry.ReorderedAll left.rules right.rules

/-! ## Laying out -/

inductive Definition.Reordered : Definition → Definition → Prop where
  | single {left right : Single} (same : left.Reordered right) :
      Definition.Reordered (.single left) (.single right)
  | parts (rule : Parts) : Definition.Reordered (.parts rule) (.parts rule)
  | container {left right : Container} (same : left.Reordered right) (slots : List Slot) :
      Definition.Reordered (.container left slots) (.container right slots)

/-- Two computations that start alike and both come to something do so behind the same start. -/
theorem ok_of_bind_both {ε α β γ : Type} {first : Except ε α} {rest : α → Except ε β}
    {other : α → Except ε γ} {last : β} {also : γ} (left : first >>= rest = .ok last)
    (right : first >>= other = .ok also) :
    ∃ middle, rest middle = .ok last ∧ other middle = .ok also := by
  obtain ⟨middle, rfl, behind⟩ := ok_of_bind left
  exact ⟨middle, behind, right⟩

/-- What is laid out is the same apart from the order of words. -/
structure LaidOutAlike {kind : Type} (left right : kind × List Definition × RuleNames) : Prop where
  slots : left.1 = right.1
  definitions : List.Forall₂ Definition.Reordered left.2.1 right.2.1
  names : left.2.2 = right.2.2

mutual

theorem Entry.Reordered.layOut {owner : Option Nat} : ∀ {left right : Entry}, left.Reordered right →
    ∀ (next : Nat) (names : RuleNames) {laid also : Slot × List Definition × RuleNames},
      left.layOut owner next names = .ok laid → right.layOut owner next names = .ok also →
        LaidOutAlike laid also
  | _, _, .single same, next, names => by
      intro here there
      cases here
      cases there
      exact ⟨rfl, .cons (.single same) .nil, rfl⟩
  | _, _, .parts rule, next, names => by
      intro here there
      cases here
      cases there
      exact ⟨rfl, .cons (.parts rule) .nil, rfl⟩
  | _, _, .container (.words rule same) inside, next, names => by
      intro here there
      rw [Entry.layOut] at here there
      obtain ⟨extended, here, there⟩ := ok_of_bind_both here there
      obtain ⟨⟨slots, inner, last⟩, within, here⟩ := ok_of_bind here
      obtain ⟨⟨slots', inner', last'⟩, within', there⟩ := ok_of_bind there
      cases here
      cases there
      obtain ⟨rfl, inner, rfl⟩ := inside.layOutList _ _ within within'
      exact ⟨rfl, .cons (.container (.words rule same) slots) inner, rfl⟩
  | _, _, .named name, next, names => by
      intro here there
      cases here
      cases there
      exact ⟨rfl, .nil, rfl⟩
  | _, _, .enclosing, next, names => by
      intro here there
      cases owner with
      | none => exact nomatch here
      | some index =>
          cases here
          cases there
          exact ⟨rfl, .nil, rfl⟩

theorem Entry.ReorderedAll.layOutList {owner : Option Nat} : ∀ {left right : List Entry},
    Entry.ReorderedAll left right →
      ∀ (next : Nat) (names : RuleNames) {laid also : List Slot × List Definition × RuleNames},
        Entry.layOutList owner next names left = .ok laid →
          Entry.layOutList owner next names right = .ok also → LaidOutAlike laid also
  | _, _, .nil, next, names => by
      intro here there
      cases here
      cases there
      exact ⟨rfl, .nil, rfl⟩
  | _, _, .cons same behind, next, names => by
      intro here there
      rw [Entry.layOutList] at here there
      obtain ⟨⟨slot, first, extended⟩, one, here⟩ := ok_of_bind here
      obtain ⟨⟨slot', first', extended'⟩, one', there⟩ := ok_of_bind there
      obtain ⟨⟨slots, others, all⟩, rest, here⟩ := ok_of_bind here
      obtain ⟨⟨slots', others', all'⟩, rest', there⟩ := ok_of_bind there
      cases here
      cases there
      obtain ⟨rfl, definitions, rfl⟩ := same.layOut next names one one'
      rw [← definitions.length_eq] at rest'
      obtain ⟨rfl, more, rfl⟩ := behind.layOutList _ _ rest rest'
      exact ⟨rfl, List.rel_append definitions more, rfl⟩

end

/-! ## Compiling -/

theorem Keywords.Reordered.vocabularies {left right : Keywords} (same : left.Reordered right) :
    List.Forall₂ (fun few many => few.1 = many.1 ∧ SameWords few.2 many.2) left.vocabularies
      right.vocabularies :=
  .cons ⟨rfl, same.types⟩ <| .cons ⟨rfl, same.keyword⟩ <| .cons ⟨rfl, same.literal⟩ <|
    .cons ⟨rfl, same.builtIn⟩ <| .cons ⟨rfl, same.operator⟩ .nil

/-- The first vocabulary that lists a word has the same scope. -/
theorem scope_of_sameWords {few many : List (Scope × List String)}
    (same : List.Forall₂ (fun few many => few.1 = many.1 ∧ SameWords few.2 many.2) few many)
    (word : String) :
    (few.find? fun vocabulary => vocabulary.2.contains word).map (·.1) =
      (many.find? fun vocabulary => vocabulary.2.contains word).map (·.1) := by
  induction same with
  | nil => rfl
  | @cons first second rest others both behind ih =>
      have listed : first.2.contains word = second.2.contains word := by
        rw [Bool.eq_iff_iff, List.contains_iff_mem, List.contains_iff_mem, both.2 word]
      rw [List.find?_cons, List.find?_cons, listed]
      cases second.2.contains word with
      | true => exact congrArg some both.1
      | false => exact ih

theorem Keywords.Reordered.table {left right : Keywords} (same : left.Reordered right)
    {owner : PatternOwner} {table words : WordTable}
    (made : WordTable.ofKeywords owner left = .ok table)
    (also : WordTable.ofKeywords owner right = .ok words) : table.Alike words := by
  rw [WordTable.ofKeywords, same.pattern] at made
  rw [WordTable.ofKeywords] at also
  obtain ⟨pattern, made, also⟩ := ok_of_bind_both made also
  obtain ⟨operators, here, made⟩ := ok_of_bind made
  obtain ⟨others, there, also⟩ := ok_of_bind also
  cases made
  cases also
  obtain rfl : operators = WordTable.operatorPattern left.operator := eq_of_readProgram? here
  obtain rfl : others = WordTable.operatorPattern right.operator := eq_of_readProgram? there
  exact ⟨rfl, scope_of_sameWords same.vocabularies, operatorPattern_stop?_congr same.operator⟩

theorem sortAlike_of_ofKeywords? {few many : Option Keywords}
    (same : Option.Rel Keywords.Reordered few many) {owner : PatternOwner}
    {table words : Option WordTable} (made : WordTable.ofKeywords? owner few = .ok table)
    (also : WordTable.ofKeywords? owner many = .ok words) : SortAlike table words := by
  cases same with
  | none =>
      cases made
      cases also
      exact fun _ _ _ => rfl
  | some same =>
      rw [WordTable.ofKeywords?] at made also
      obtain ⟨first, here, made⟩ := ok_of_bind made
      obtain ⟨second, there, also⟩ := ok_of_bind also
      cases made
      cases also
      exact (same.table here there).sortAlike

theorem Definition.Reordered.toRule {names : RuleNames} {index : Nat} {left right : Definition}
    (same : left.Reordered right) {rule other : Rule} (made : left.toRule names index = .ok rule)
    (also : right.toRule names index = .ok other) : rule.Alike other := by
  cases same with
  | single same =>
      obtain ⟨single, words⟩ := same
      rw [Definition.toRule] at made also
      obtain ⟨opener, made, also⟩ := ok_of_bind_both made also
      obtain ⟨followedBy, made, also⟩ := ok_of_bind_both made also
      obtain ⟨table, here, made⟩ := ok_of_bind made
      obtain ⟨table', there, also⟩ := ok_of_bind also
      cases made
      cases also
      exact .single ⟨rfl, sortAlike_of_ofKeywords? words here there⟩
  | parts parts =>
      cases Except.ok.inj (made.symm.trans also)
      rw [Definition.toRule] at made
      obtain ⟨pattern, _, made⟩ := ok_of_bind made
      cases made
      exact .parts _
  | container same slots =>
      obtain ⟨container, words⟩ := same
      rw [Definition.toRule] at made also
      obtain ⟨opener, made, also⟩ := ok_of_bind_both made also
      obtain ⟨closer, made, also⟩ := ok_of_bind_both made also
      obtain ⟨rules, made, also⟩ := ok_of_bind_both made also
      obtain ⟨illegal, made, also⟩ := ok_of_bind_both made also
      obtain ⟨table, here, made⟩ := ok_of_bind made
      obtain ⟨table', there, also⟩ := ok_of_bind also
      cases made
      cases also
      exact .container ⟨rfl, sortAlike_of_ofKeywords? words here there⟩

theorem rel_getElem? {α β : Type} {related : α → β → Prop} {left : List α} {right : List β}
    (all : List.Forall₂ related left right) :
    ∀ index : Nat, Option.Rel related left[index]? right[index]? := by
  induction all with
  | nil => exact fun _ => .none
  | cons here behind ih =>
      intro index
      cases index with
      | zero => exact .some here
      | succ index => exact ih index

theorem toRules_alike {names : RuleNames} {left right : List Definition}
    (same : List.Forall₂ Definition.Reordered left right) :
    ∀ {index : Nat} {rules others : List Rule}, Definition.toRules names index left = .ok rules →
      Definition.toRules names index right = .ok others → List.Forall₂ Rule.Alike rules others := by
  induction same with
  | nil =>
      intro index rules others made also
      cases made
      cases also
      exact .nil
  | cons same behind ih =>
      intro index rules others made also
      rw [Definition.toRules] at made also
      obtain ⟨first, here, made⟩ := ok_of_bind made
      obtain ⟨first', there, also⟩ := ok_of_bind also
      obtain ⟨more, rest, made⟩ := ok_of_bind made
      obtain ⟨more', rest', also⟩ := ok_of_bind also
      cases made
      cases also
      exact .cons (same.toRule here there) (ih rest rest')

namespace Highlighter

theorem ofLanguage_alike {left right : Language} (same : left.Reordered right)
    {first second : Highlighter} (compiled : ofLanguage left = .ok first)
    (also : ofLanguage right = .ok second) : first.Alike second := by
  rw [ofLanguage] at compiled also
  obtain ⟨⟨slots, definitions, names⟩, laid, compiled⟩ := ok_of_bind compiled
  obtain ⟨⟨slots', definitions', names'⟩, laid', also⟩ := ok_of_bind also
  obtain ⟨rfl, definitions, rfl⟩ := same.rules.layOutList _ _ laid laid'
  obtain ⟨root, compiled, also⟩ := ok_of_bind_both compiled also
  obtain ⟨rules, made, compiled⟩ := ok_of_bind compiled
  obtain ⟨others, made', also⟩ := ok_of_bind also
  obtain ⟨table, read, compiled⟩ := ok_of_bind compiled
  obtain ⟨words, read', also⟩ := ok_of_bind also
  rw [same.name, same.illegal] at compiled
  obtain ⟨illegal, compiled, also⟩ := ok_of_bind_both compiled also
  cases compiled
  cases also
  have rules := toRules_alike definitions made made'
  rw [same.name] at read
  refine ⟨rfl, fun index => ?_, rfl, (same.keywords.table read read').sortAlike, rfl, rfl⟩
  rw [List.getElem?_toArray, List.getElem?_toArray]
  exact rel_getElem? rules index

/-- The order in which a language lists its words, and how often, makes no difference to what is
highlighted or refused, nor does the order of operators to which of them is taken. -/
theorem ofLanguage_forgets_order {left right : Language} (same : left.Reordered right)
    {first second : Highlighter} (compiled : ofLanguage left = .ok first)
    (also : ofLanguage right = .ok second) :
    (∀ (ignore : Bool) (text : String),
      (first.ignoring ignore).highlight text = (second.ignoring ignore).highlight text) ∧
    ∀ few many : List String, SameWords few many → ∀ (source : Source) (place limit : Nat),
      (WordTable.operatorPattern few).bind (·.stop? source.chars place limit) =
        (WordTable.operatorPattern many).bind (·.stop? source.chars place limit) :=
  ⟨fun ignore => ((ofLanguage_alike same compiled also).ignoring ignore).highlight_eq,
    fun _ _ words => operatorPattern_stop?_congr words⟩

end Highlighter

namespace Shuffled

/-- Operators that start with one another, and a word in two vocabularies. -/
def words : Keywords where
  types := ["int"]
  keyword := ["if", "int", "else"]
  operator := ["=", "=>", "==", "+"]

def shuffledWords : Keywords where
  types := ["int", "int"]
  keyword := ["else", "int", "if", "else"]
  operator := ["==", "+", "=", "=>", "="]

def brackets : Container where
  scope := some .metadata
  opener := "\\("
  closer := "\\)"

def symbol : Single where
  scope := some .symbol
  opener := ":[a-z=+]+"

def language (words : Keywords) : Language where
  name := "shuffled"
  keywords := words
  illegal := some "!"
  rules :=
    [.container { brackets with keywords := some words }
      [.single { symbol with keywords := some words }]]

theorem reordered : (language words).Reordered (language shuffledWords) := by
  have same : words.Reordered shuffledWords :=
    ⟨rfl, by decide, by decide, by decide, by decide, by decide⟩
  have single := Entry.Reordered.single (.words symbol (.some same))
  exact ⟨rfl, rfl, same, rfl, .cons (.container (.words brackets (.some same)) (.cons single .nil)) .nil⟩

theorem compiles : (Highlighter.ofLanguage (language words)).toOption.isSome = true := by
  decide +kernel

theorem shuffled_compiles : (Highlighter.ofLanguage (language shuffledWords)).toOption.isSome = true := by
  decide +kernel

def ordered : Highlighter :=
  (Highlighter.ofLanguage (language words)).toOption.get compiles

def shuffled : Highlighter :=
  (Highlighter.ofLanguage (language shuffledWords)).toOption.get shuffled_compiles

theorem shuffled_highlights_alike :
    ((ordered.ignoring true).highlight "int==! (else=>:a+) =").toOption.map (·.stats.keywordHits) =
      some 6 := by
  have first : Highlighter.ofLanguage (language words) = .ok ordered := ok_toOption_get compiles
  have second : Highlighter.ofLanguage (language shuffledWords) = .ok shuffled :=
    ok_toOption_get shuffled_compiles
  have alike := (Highlighter.ofLanguage_forgets_order reordered first second).1 true
  have hits : ((shuffled.ignoring true).highlight "int==! (else=>:a+) =").toOption.map
      (·.stats.keywordHits) = some 6 := by
    decide +kernel
  rw [alike]
  exact hits

end Shuffled

end Highlighting
