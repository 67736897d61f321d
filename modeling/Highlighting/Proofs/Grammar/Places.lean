import Highlighting.Proofs.Grammar.Consistency

/-! # Places in a grammar

An entry has its place: the numbers of the entries on the way to it, from the outermost list down. The
places of the definitions of a language, each before the ones inside it, are in the order of words in a
dictionary. This is the order in which the definitions are numbered, so that every number that a rule
lists can be told from the place of the entry that it stands for. -/
set_option autoImplicit false
namespace Highlighting

namespace Entry

/-- The entry that a way leads to from an entry on. -/
def inside? (entry : Entry) : List Nat → Option Entry
  | [] => some entry
  | step :: way => entry.rules[step]?.bind fun inner => inner.inside? way

/-- The entry at a place. No entry is at the place of the whole list. -/
def at? (entries : List Entry) : List Nat → Option Entry
  | [] => none
  | step :: way => entries[step]?.bind fun entry => entry.inside? way

/-- A place in a list is another one when an entry comes before the list. -/
def shift : List Nat → List Nat
  | [] => []
  | step :: way => (step + 1) :: way

end Entry

mutual

/-- The ways from an entry to the definitions in it, each before the ones inside it. -/
def Entry.ways : Entry → List (List Nat)
  | .single _ | .parts _ => [[]]
  | .container _ rules => [] :: Entry.places rules
  | .named _ | .enclosing => []

/-- The places of the definitions in a list. -/
def Entry.places : List Entry → List (List Nat)
  | [] => []
  | entry :: rest => entry.ways.map (0 :: ·) ++ (Entry.places rest).map Entry.shift

end

namespace Entry

theorem inside?_of_rules {entry : Entry} {way : List Nat} (deeper : way ≠ []) :
    entry.inside? way = at? entry.rules way := by
  obtain ⟨step, rest, rfl⟩ := List.exists_cons_of_ne_nil deeper
  rfl

theorem at?_cons_shift (entry : Entry) (rest : List Entry) (place : List Nat) :
    at? (entry :: rest) (shift place) = at? rest place := by
  cases place with
  | nil => rfl
  | cons step way => rw [shift, at?, at?, List.getElem?_cons_succ]

theorem places_ne_nil {entries : List Entry} : ∀ place ∈ places entries, place ≠ [] := by
  induction entries with
  | nil => exact fun _ absurdity => nomatch absurdity
  | cons entry rest ih =>
      intro place member
      rcases List.mem_append.mp member with here | behind
      · obtain ⟨way, _, rfl⟩ := List.mem_map.mp here
        exact List.cons_ne_nil _ _
      · obtain ⟨other, listed, rfl⟩ := List.mem_map.mp behind
        obtain ⟨step, way, rfl⟩ := List.exists_cons_of_ne_nil (ih other listed)
        exact List.cons_ne_nil _ _

/-! ## The places of all definitions -/

mutual

theorem ways_map_inside? : (entry : Entry) →
    entry.ways.map entry.inside? = entry.definitions.map some
  | .single _ | .parts _ | .named _ | .enclosing => rfl
  | .container rule rules => by
      rw [ways, definitions, List.map_cons, List.map_cons, ← places_map_at? rules]
      refine congrArg (_ :: ·) (List.map_congr_left fun place listed => ?_)
      exact inside?_of_rules (places_ne_nil place listed)

/-- The definitions at the places are the definitions in their order. -/
theorem places_map_at? : (entries : List Entry) →
    (places entries).map (at? entries) = (definitionsAll entries).map some
  | [] => rfl
  | entry :: rest => by
      rw [places, definitionsAll, List.map_append, List.map_append, List.map_map, List.map_map,
        ← ways_map_inside? entry, ← places_map_at? rest]
      refine congrArg₂ (· ++ ·) rfl (List.map_congr_left fun place _ => ?_)
      exact at?_cons_shift entry rest place

end

mutual

theorem mem_ways_of_inside? {definition : Entry} (defines : definition.IsDefinition) :
    (entry : Entry) → {way : List Nat} → entry.inside? way = some definition → way ∈ entry.ways
  | .single rule, [], _ => List.mem_cons_self
  | .parts rule, [], _ => List.mem_cons_self
  | .container rule rules, [], _ => List.mem_cons_self
  | .named name, [], found => by
      cases found
      exact defines.elim
  | .enclosing, [], found => by
      cases found
      exact defines.elim
  | .container rule rules, step :: way, found =>
      List.mem_cons_of_mem _ (mem_places_of_at? defines rules found)
  | .single rule, _ :: _, absurdity => nomatch absurdity
  | .parts rule, _ :: _, absurdity => nomatch absurdity
  | .named name, _ :: _, absurdity => nomatch absurdity
  | .enclosing, _ :: _, absurdity => nomatch absurdity

theorem mem_places_of_at? {definition : Entry} (defines : definition.IsDefinition) :
    (entries : List Entry) → {place : List Nat} → at? entries place = some definition →
      place ∈ places entries
  | [], [], absurdity => nomatch absurdity
  | [], _ :: _, absurdity => nomatch absurdity
  | _ :: _, [], absurdity => nomatch absurdity
  | entry :: rest, 0 :: way, found =>
      List.mem_append_left _ (List.mem_map_of_mem (mem_ways_of_inside? defines entry found))
  | entry :: rest, (step + 1) :: way, found => by
      rw [← shift, at?_cons_shift] at found
      exact List.mem_append_right _
        (List.mem_map.mpr ⟨step :: way, mem_places_of_at? defines rest found, rfl⟩)

end

theorem mem_places_iff {entries : List Entry} {place : List Nat} :
    place ∈ places entries ↔ ∃ definition, at? entries place = some definition ∧ definition.IsDefinition := by
  constructor
  · intro listed
    have found : at? entries place ∈ (definitionsAll entries).map some := by
      rw [← places_map_at?]
      exact List.mem_map_of_mem listed
    obtain ⟨definition, member, same⟩ := List.mem_map.mp found
    exact ⟨definition, same.symm, (mem_definitionsAll_iff.mp member).1⟩
  · rintro ⟨definition, found, defines⟩
    exact mem_places_of_at? defines entries found

theorem shift_lt_shift {left right : List Nat} (before : left < right) : shift left < shift right := by
  cases right with
  | nil => exact absurd before (List.not_lt_nil left)
  | cons step way =>
      cases left with
      | nil => exact List.nil_lt_cons _ _
      | cons other rest =>
          refine List.cons_lt_cons_iff.mpr ?_
          rcases List.cons_lt_cons_iff.mp before with less | ⟨rfl, less⟩
          · exact .inl (Nat.succ_lt_succ less)
          · exact .inr ⟨rfl, less⟩

mutual

theorem ways_ascending : (entry : Entry) → entry.ways.Pairwise (· < ·)
  | .single _ | .parts _ => List.pairwise_singleton _ _
  | .named _ | .enclosing => .nil
  | .container rule rules => by
      refine .cons ?_ (places_ascending rules)
      intro place listed
      obtain ⟨step, way, rfl⟩ := List.exists_cons_of_ne_nil (places_ne_nil place listed)
      exact List.nil_lt_cons _ _

/-- The places are in the order of words in a dictionary. -/
theorem places_ascending : (entries : List Entry) → (places entries).Pairwise (· < ·)
  | [] => .nil
  | entry :: rest => by
      rw [places, List.pairwise_append]
      refine ⟨?_, ?_, ?_⟩
      · refine List.Pairwise.map _ (fun left right before => ?_) (ways_ascending entry)
        exact List.cons_lt_cons_iff.mpr (.inr ⟨rfl, before⟩)
      · exact List.Pairwise.map _ (fun left right before => shift_lt_shift before) (places_ascending rest)
      · intro first here second behind
        obtain ⟨way, _, rfl⟩ := List.mem_map.mp here
        obtain ⟨place, listed, rfl⟩ := List.mem_map.mp behind
        obtain ⟨step, rest, rfl⟩ := List.exists_cons_of_ne_nil (places_ne_nil place listed)
        exact List.cons_lt_cons_iff.mpr (.inl (Nat.succ_pos step))

end

end Entry

end Highlighting
