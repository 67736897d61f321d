import Highlighting.Proofs.Pattern.Paths

/-! # What matches take

A match takes no character that is in none of the sets of its program. What it takes first is in a set
that the program comes to before any other, and such places are found by going on from the start as long
as nothing is taken. -/
set_option autoImplicit false
namespace Highlighting

namespace Instruction

/-- Where an instruction leads without a character. -/
def quiet : Instruction → List Nat
  | take _ _ | accept => []
  | check _ next | mark _ _ next | jump next => [next]
  | fork first second => [first, second]

def takes (c : Char) : Instruction → Bool
  | take set _ => set.contains c
  | check _ _ | fork _ _ | mark _ _ _ | jump _ | accept => false

end Instruction

namespace Program

/-- Adds to `seen` the instructions that can be come to from `open` ones without a character. -/
def spread (program : Program) : Nat → List Nat → List Nat → List Nat
  | 0, _, seen => seen
  | _, [], seen => seen
  | fuel + 1, index :: rest, seen =>
      if seen.contains index then program.spread fuel rest seen
      else
        let further := (program.code[index]?.map (·.quiet)).getD []
        program.spread fuel (further ++ rest) (index :: seen)

/-- The instructions that come before the first character. An instruction leads to two at most. -/
def openings (program : Program) : List Nat :=
  program.spread (2 * program.code.size + 1) [0] []

/-- No match starts with the character, and none is empty. -/
structure Shuns (program : Program) (c : Char) : Prop where
  start : 0 ∈ program.openings
  closed : ∀ index ∈ program.openings, ∀ instruction ∈ program.code[index]?,
    (∀ next ∈ instruction.quiet, next ∈ program.openings) ∧ instruction.takes c = false ∧
      instruction ≠ .accept

/-- No match has the character in it. -/
def Lacks (program : Program) (c : Char) : Prop :=
  ∀ instruction ∈ program.code, instruction.takes c = false

theorem shuns_iff {program : Program} {c : Char} :
    program.Shuns c ↔
      0 ∈ program.openings ∧ ∀ index ∈ program.openings, ∀ instruction ∈ program.code[index]?,
        (∀ next ∈ instruction.quiet, next ∈ program.openings) ∧ instruction.takes c = false ∧
          instruction ≠ .accept :=
  ⟨fun shuns => ⟨shuns.start, shuns.closed⟩, fun both => ⟨both.1, both.2⟩⟩

instance (program : Program) (c : Char) : Decidable (program.Shuns c) :=
  decidable_of_iff' _ shuns_iff

instance (program : Program) (c : Char) : Decidable (program.Lacks c) :=
  inferInstanceAs (Decidable (∀ instruction ∈ program.code, instruction.takes c = false))

variable {program : Program} {text : Array Char} {start place : Nat} {c : Char}

/-- Where the character stands, nothing is ever taken. -/
theorem Shuns.path (shuns : program.Shuns c) (here : text[start]? = some c) {thread : Thread}
    (path : program.Path text start place thread) :
    place = start ∧ thread.instruction ∈ program.openings := by
  induction path with
  | start => exact ⟨rfl, shuns.start⟩
  | take path code there member ih =>
      obtain ⟨rfl, opening⟩ := ih
      obtain rfl := Option.some.inj (here.symm.trans there)
      have untaken := (shuns.closed _ opening _ code).2.1
      exact absurd member (ne_true_of_eq_false untaken)
  | check path code holds ih =>
      exact ⟨ih.1, (shuns.closed _ ih.2 _ code).1 _ List.mem_cons_self⟩
  | first path code ih =>
      exact ⟨ih.1, (shuns.closed _ ih.2 _ code).1 _ List.mem_cons_self⟩
  | second path code ih =>
      exact ⟨ih.1, (shuns.closed _ ih.2 _ code).1 _ (List.mem_cons_of_mem _ List.mem_cons_self)⟩
  | mark path code ih =>
      exact ⟨ih.1, (shuns.closed _ ih.2 _ code).1 _ List.mem_cons_self⟩
  | jump path code ih =>
      exact ⟨ih.1, (shuns.closed _ ih.2 _ code).1 _ List.mem_cons_self⟩

theorem Shuns.match?_eq_none (shuns : program.Shuns c) (here : text[start]? = some c) (limit : Nat) :
    program.match? text start limit = none := by
  cases found : program.match? text start limit with
  | none => rfl
  | some m =>
      obtain ⟨index, code, path⟩ := match?_accepted found
      exact absurd rfl (shuns.closed index (shuns.path here path).2 _ code).2.2

theorem Lacks.path (lacks : program.Lacks c) {thread : Thread}
    (path : program.Path text start place thread) :
    ∀ passed, start ≤ passed → passed < place → text[passed]? ≠ some c := by
  induction path with
  | start => intro passed forth before; omega
  | take path code there member ih =>
      intro passed forth before here
      rcases Nat.lt_succ_iff_lt_or_eq.mp before with earlier | rfl
      · exact ih passed forth earlier here
      · obtain rfl := Option.some.inj (here.symm.trans there)
        have untaken := lacks _ (Array.mem_of_getElem? code)
        exact absurd member (ne_true_of_eq_false untaken)
  | check path code holds ih => exact ih
  | first path code ih => exact ih
  | second path code ih => exact ih
  | mark path code ih => exact ih
  | jump path code ih => exact ih

theorem Lacks.match? (lacks : program.Lacks c) {limit : Nat} {m : Match}
    (found : program.match? text start limit = some m) :
    ∀ passed, start ≤ passed → passed < m.stop → text[passed]? ≠ some c := by
  obtain ⟨index, _, path⟩ := match?_accepted found
  exact lacks.path path

theorem Lacks.stop? (lacks : program.Lacks c) {limit stop : Nat}
    (found : program.stop? text start limit = some stop) :
    ∀ passed, start ≤ passed → passed < stop → text[passed]? ≠ some c := by
  obtain ⟨m, matched, rfl⟩ := Option.map_eq_some_iff.mp found
  exact lacks.match? matched

end Program

end Highlighting
