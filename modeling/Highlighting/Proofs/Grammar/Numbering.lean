import Highlighting.Grammar.Layout

/-! # The numbers of definitions

The definitions of a language are numbered in the order in which they start, a container before the ones
inside it. Laying a language out finds this order and what each entry of a list stands for, or the first
of the mistakes that it comes by on the way. -/
set_option autoImplicit false
namespace Highlighting

/-- A check that has these mistakes before it in order stops at the first one, and comes to something
good if there is none. -/
def StopsAt {ε α : Type} (mistakes : List ε) (good : α → Prop) (result : Except ε α) : Prop :=
  match mistakes with
  | [] => ∃ value, result = .ok value ∧ good value
  | first :: _ => result = .error first

namespace StopsAt
variable {ε α β : Type} {first second : List ε} {good : α → Prop} {last : β → Prop}
  {result : Except ε α}

theorem ok {value : α} (fine : good value) : StopsAt (ε := ε) [] good (.ok value) :=
  ⟨value, rfl, fine⟩

/-- One check after the other stops at the mistakes of the first and then at those of the second. -/
theorem bind {next : α → Except ε β} (here : StopsAt first good result)
    (behind : ∀ value, good value → StopsAt second last (next value)) :
    StopsAt (first ++ second) last (result >>= next) := by
  cases first with
  | cons mistake rest =>
      obtain rfl : result = .error mistake := here
      rfl
  | nil =>
      obtain ⟨value, rfl, fine⟩ := here
      exact behind value fine

theorem map {next : α → β} (here : StopsAt first good result)
    (behind : ∀ value, good value → last (next value)) : StopsAt first last (result.map next) := by
  cases first with
  | cons mistake rest =>
      obtain rfl : result = .error mistake := here
      rfl
  | nil =>
      obtain ⟨value, rfl, fine⟩ := here
      exact ⟨next value, rfl, behind value fine⟩

theorem eq_ok_iff (here : StopsAt first good result) : (∃ value, result = .ok value) ↔ first = [] := by
  cases first with
  | cons mistake rest =>
      obtain rfl : result = .error mistake := here
      refine ⟨?_, fun absurdity => nomatch absurdity⟩
      rintro ⟨_, absurdity⟩
      exact nomatch absurdity
  | nil =>
      obtain ⟨value, came, _⟩ := here
      exact ⟨fun _ => rfl, fun _ => ⟨value, came⟩⟩

theorem eq_error_iff (here : StopsAt first good result) (mistake : ε) :
    result = .error mistake ↔ first.head? = some mistake := by
  cases first with
  | cons other rest =>
      obtain rfl : result = .error other := here
      simp
  | nil =>
      obtain ⟨value, rfl, _⟩ := here
      simp

theorem good_of_ok (here : StopsAt first good result) {value : α} (came : result = .ok value) :
    good value := by
  cases first with
  | cons mistake rest =>
      obtain rfl : result = .error mistake := here
      exact nomatch came
  | nil =>
      obtain ⟨other, rfl, fine⟩ := here
      cases came
      exact fine

end StopsAt

/-! ## Definitions and what entries stand for -/

mutual

/-- The definitions in an entry, each before the ones inside it. -/
def Entry.definitions : Entry → List Entry
  | .single rule => [.single rule]
  | .parts rule => [.parts rule]
  | .container rule rules => .container rule rules :: Entry.definitionsAll rules
  | .named _ | .enclosing => []

def Entry.definitionsAll : List Entry → List Entry
  | [] => []
  | entry :: rest => entry.definitions ++ Entry.definitionsAll rest

end

namespace Entry

/-- The name that a definition can be referred to by. -/
def name? : Entry → Option String
  | container rule _ => rule.name
  | single _ | parts _ | named _ | enclosing => none

/-- What an entry stands for when the next definition gets the number `next`. -/
def slot (owner : Option Nat) (next : Nat) : Entry → Slot
  | single _ | parts _ | container _ _ => .rule next
  | named name => .named name
  | enclosing => .rule (owner.getD 0)

def slots (owner : Option Nat) (next : Nat) : List Entry → List Slot
  | [] => []
  | entry :: rest => entry.slot owner next :: slots owner (next + entry.definitions.length) rest

/-- A definition with its number. -/
def definition? (number : Nat) : Entry → Option Definition
  | single rule => some (.single rule)
  | parts rule => some (.parts rule)
  | container rule rules => some (.container rule (slots (some number) (number + 1) rules))
  | named _ | enclosing => none

/-- The names of numbered definitions, the latest first. -/
def nameTable (definitions : List (Entry × Nat)) : RuleNames :=
  (definitions.filterMap fun numbered => numbered.1.name?.map (·, numbered.2)).reverse

end Entry

/-! ## Mistakes on the way -/

/-- What a walk through lists of rules comes by and has to watch. -/
inductive Landmark where
  | naming (name : String)
  /-- A reference to the enclosing container outside of all containers. -/
  | stray
deriving DecidableEq, Repr

namespace Landmark

def name? : Landmark → Option String
  | naming name => some name
  | stray => none

/-- The mistakes on a walk, in order, when these names have been given before. -/
def mistakes (known : List String) : List Landmark → List GrammarError
  | [] => []
  | naming name :: rest =>
      if name ∈ known then .duplicateRule name :: mistakes (name :: known) rest
      else mistakes (name :: known) rest
  | stray :: rest => .enclosingOutside :: mistakes known rest

theorem mistakes_append {left right : List Landmark} :
    ∀ {known : List String}, mistakes known (left ++ right) =
      mistakes known left ++ mistakes ((left.filterMap name?).reverse ++ known) right := by
  induction left with
  | nil => intro known; rfl
  | cons mark rest ih =>
      intro known
      cases mark with
      | stray =>
          rw [List.cons_append, mistakes, mistakes, ih]
          rfl
      | naming name =>
          have named : ((naming name :: rest).filterMap name?).reverse ++ known =
              (rest.filterMap name?).reverse ++ (name :: known) := by
            simp [name?]
          rw [named, List.cons_append, mistakes, mistakes, ih]
          split <;> rfl

theorem mistakes_eq_nil_iff {marks : List Landmark} :
    ∀ {known : List String}, mistakes known marks = [] ↔
      stray ∉ marks ∧ (marks.filterMap name?).Nodup ∧ ∀ name ∈ marks.filterMap name?, name ∉ known := by
  induction marks with
  | nil => intro known; simp [mistakes]
  | cons mark rest ih =>
      intro known
      cases mark with
      | stray => simp [mistakes]
      | naming name =>
          have listed : (naming name :: rest).filterMap name? = name :: rest.filterMap name? := rfl
          have elsewhere : stray ∉ naming name :: rest ↔ stray ∉ rest := by simp
          rw [listed, elsewhere, List.nodup_cons, List.forall_mem_cons]
          simp only [mistakes]
          split
          · next given => simp [given]
          · next fresh =>
              rw [ih]
              constructor
              · rintro ⟨inside, once, others⟩
                refine ⟨inside, ⟨fun again => ?_, once⟩, fresh, fun other member => ?_⟩
                · exact others name again List.mem_cons_self
                · exact fun earlier => others other member (List.mem_cons_of_mem _ earlier)
              · rintro ⟨inside, ⟨new, once⟩, _, others⟩
                refine ⟨inside, once, fun other member again => ?_⟩
                rcases List.mem_cons.mp again with rfl | earlier
                · exact new member
                · exact others other member earlier

end Landmark

mutual

/-- The landmarks in an entry in order. A container gives its name before the ones inside it do. -/
def Entry.landmarks (outside : Bool) : Entry → List Landmark
  | .container rule rules => rule.name.toList.map .naming ++ Entry.landmarksAll false rules
  | .enclosing => if outside then [.stray] else []
  | .single _ | .parts _ | .named _ => []

def Entry.landmarksAll (outside : Bool) : List Entry → List Landmark
  | [] => []
  | entry :: rest => entry.landmarks outside ++ Entry.landmarksAll outside rest

end

mutual

theorem Entry.landmarks_names (outside : Bool) :
    (entry : Entry) →
      (entry.landmarks outside).filterMap Landmark.name? = entry.definitions.filterMap Entry.name?
  | .single _ | .parts _ | .named _ => rfl
  | .enclosing => by cases outside <;> rfl
  | .container rule rules => by
      rw [Entry.landmarks, Entry.definitions, List.filterMap_append, Entry.landmarksAll_names false rules]
      cases named : rule.name <;> simp [Entry.name?, Landmark.name?, named]

theorem Entry.landmarksAll_names (outside : Bool) :
    (entries : List Entry) → (Entry.landmarksAll outside entries).filterMap Landmark.name? =
      (Entry.definitionsAll entries).filterMap Entry.name?
  | [] => rfl
  | entry :: rest => by
      rw [Entry.landmarksAll, Entry.definitionsAll, List.filterMap_append, List.filterMap_append,
        Entry.landmarks_names outside entry, Entry.landmarksAll_names outside rest]

end

/-! ## Laying out -/

namespace RuleNames

/-- The names that have been given, the latest first. -/
def given (names : RuleNames) : List String :=
  names.map (·.1)

theorem lookup_isSome_iff {names : RuleNames} {name : String} :
    (names.lookup name).isSome ↔ name ∈ names.given := by
  induction names with
  | nil => simp [given]
  | cons entry rest ih =>
      have split : name ∈ given (entry :: rest) ↔ name = entry.1 ∨ name ∈ given rest := List.mem_cons
      rw [List.lookup_cons, split, ← ih]
      by_cases same : name = entry.1
      · simp [same]
      · rw [beq_false_of_ne same]
        simp [same]

theorem add?_stops (names : RuleNames) (name : Option String) (index : Nat) :
    StopsAt (Landmark.mistakes names.given (name.toList.map .naming))
      (· = (name.toList.map (·, index)) ++ names) (names.add? name index) := by
  cases name with
  | none => exact .ok rfl
  | some name =>
      simp only [add?, lookup_isSome_iff, Option.toList_some, List.map_cons, List.map_nil,
        Landmark.mistakes]
      split
      · rfl
      · exact .ok rfl

end RuleNames

namespace Entry

theorem given_nameTable (entries : List Entry) :
    ∀ next, (nameTable (entries.zipIdx next)).given = (entries.filterMap name?).reverse := by
  induction entries with
  | nil => intro next; rfl
  | cons entry rest ih =>
      intro next
      have later := ih (next + 1)
      rw [nameTable, RuleNames.given, List.map_reverse, List.reverse_inj] at later ⊢
      rw [List.zipIdx_cons]
      cases named : entry.name? with
      | none =>
          rw [List.filterMap_cons_none (by simp [named]), List.filterMap_cons_none named]
          exact later
      | some name =>
          rw [List.filterMap_cons_some (b := (name, next)) (by simp [named]),
            List.filterMap_cons_some named]
          exact congrArg (name :: ·) later

theorem nameTable_append (left right : List Entry) (next : Nat) :
    nameTable ((left ++ right).zipIdx next) =
      nameTable (right.zipIdx (next + left.length)) ++ nameTable (left.zipIdx next) := by
  rw [nameTable, List.zipIdx_append, List.filterMap_append, List.reverse_append]
  rfl

/-- What laying entries out from the number `next` on comes to: the definitions with their numbers, and
their names before those that have been given already. -/
structure LaidOutFrom (next : Nat) (names : RuleNames) (entries : List Entry)
    (definitions : List Definition) (all : RuleNames) : Prop where
  definitions : definitions.map some = (entries.zipIdx next).map fun (entry, number) =>
    entry.definition? number
  names : all = nameTable (entries.zipIdx next) ++ names

theorem LaidOutFrom.length {next : Nat} {names all : RuleNames} {entries : List Entry}
    {definitions : List Definition} (laid : LaidOutFrom next names entries definitions all) :
    definitions.length = entries.length := by
  have same := congrArg List.length laid.definitions
  simpa using same

theorem LaidOutFrom.given {next : Nat} {names all : RuleNames} {entries : List Entry}
    {definitions : List Definition} (laid : LaidOutFrom next names entries definitions all) :
    all.given = (entries.filterMap name?).reverse ++ names.given := by
  rw [laid.names, RuleNames.given, List.map_append, ← RuleNames.given, given_nameTable]
  rfl

theorem LaidOutFrom.append {next : Nat} {names middle all : RuleNames} {left right : List Entry}
    {first second : List Definition} (here : LaidOutFrom next names left first middle)
    (behind : LaidOutFrom (next + left.length) middle right second all) :
    LaidOutFrom next names (left ++ right) (first ++ second) all := by
  refine ⟨?_, ?_⟩
  · rw [List.map_append, here.definitions, behind.definitions, List.zipIdx_append, List.map_append]
  · rw [behind.names, here.names, nameTable_append, List.append_assoc]

mutual

/-- Laying an entry out stops at its first mistake, or gives its definitions in order. -/
theorem layOut_stops (owner : Option Nat) :
    (entry : Entry) → (next : Nat) → (names : RuleNames) →
      StopsAt (Landmark.mistakes names.given (entry.landmarks owner.isNone))
        (fun (slot, definitions, all) => slot = entry.slot owner next ∧
          LaidOutFrom next names entry.definitions definitions all)
        (entry.layOut owner next names)
  | .single rule, next, names => .ok ⟨rfl, rfl, rfl⟩
  | .parts rule, next, names => .ok ⟨rfl, rfl, rfl⟩
  | .named name, next, names => .ok ⟨rfl, rfl, rfl⟩
  | .enclosing, next, names => by
      cases owner with
      | none => rfl
      | some index => exact .ok ⟨rfl, rfl, rfl⟩
  | .container rule rules, next, names => by
      have named : ((rule.name.toList.map Landmark.naming).filterMap Landmark.name?).reverse ++ names.given =
          RuleNames.given (rule.name.toList.map (·, next) ++ names) := by
        cases rule.name <;> rfl
      rw [landmarks, Landmark.mistakes_append, named, layOut]
      refine (names.add?_stops rule.name next).bind ?_
      rintro extended rfl
      refine (layOutList_stops (some next) rules (next + 1) _).map ?_
      rintro ⟨slots, inner, all⟩ ⟨rfl, laid⟩
      refine ⟨rfl, ?_, ?_⟩
      · rw [List.map_cons, laid.definitions, definitions, List.zipIdx_cons, List.map_cons]
        rfl
      · rw [laid.names, definitions, List.zipIdx_cons, nameTable, nameTable, List.filterMap_cons]
        simp only [name?]
        cases rule.name <;> simp

theorem layOutList_stops (owner : Option Nat) :
    (entries : List Entry) → (next : Nat) → (names : RuleNames) →
      StopsAt (Landmark.mistakes names.given (landmarksAll owner.isNone entries))
        (fun (given, definitions, all) => given = slots owner next entries ∧
          LaidOutFrom next names (definitionsAll entries) definitions all)
        (layOutList owner next names entries)
  | [], next, names => .ok ⟨rfl, rfl, rfl⟩
  | entry :: rest, next, names => by
      rw [landmarksAll, Landmark.mistakes_append, landmarks_names, layOutList]
      refine (layOut_stops owner entry next names).bind ?_
      rintro ⟨slot, first, extended⟩ ⟨rfl, here⟩
      rw [← here.given]
      refine (layOutList_stops owner rest (next + first.length) extended).map ?_
      rintro ⟨others, more, all⟩ ⟨rfl, behind⟩
      rw [here.length] at behind
      refine ⟨?_, here.append behind⟩
      rw [slots, here.length]

end

end Entry

end Highlighting
