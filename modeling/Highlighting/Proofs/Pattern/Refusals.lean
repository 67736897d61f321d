import Highlighting.Proofs.Pattern.Takes
import Highlighting.Proofs.Text.Cuts

/-! # Texts at which nothing matches

A program can be followed through a text that stands somewhere: behind each character it is at some of its
instructions. If it comes to none in the end, and has not accepted on the way, then no match starts where
the text stands. -/
set_option autoImplicit false
namespace Highlighting

/-- Where an instruction leads with the character. -/
def Instruction.led (c : Char) : Instruction → List Nat
  | take set next => if set.contains c then [next] else []
  | check _ _ | fork _ _ | mark _ _ _ | jump _ | accept => []

namespace Program

/-- The instructions that can be come to behind the character, from these ones before it. -/
def behind (program : Program) (c : Char) (seen : List Nat) : List Nat :=
  let next := seen.flatMap fun index => (program.code[index]?.map (·.led c)).getD []
  program.spread (2 * program.code.size + next.length) next []

/-- Nothing goes on from these instructions through the whole text, and nothing accepts before. -/
def Withers (program : Program) (seen : List Nat) : List Char → Prop
  | [] => seen = []
  | c :: rest =>
      (∀ index ∈ seen, ∀ instruction ∈ program.code[index]?, instruction ≠ .accept ∧
        instruction.quiet ⊆ seen ∧ instruction.led c ⊆ program.behind c seen) ∧
      Withers program (program.behind c seen) rest

/-- No match that starts where the text stands goes through it or ends in it. -/
structure Refuses (program : Program) (chars : List Char) : Prop where
  start : 0 ∈ program.openings
  withers : program.Withers program.openings chars

instance decidableWithers (program : Program) (seen : List Nat) :
    (chars : List Char) → Decidable (program.Withers seen chars)
  | [] => inferInstanceAs (Decidable (seen = []))
  | c :: rest =>
      have := decidableWithers program (program.behind c seen) rest
      inferInstanceAs (Decidable ((∀ index ∈ seen, ∀ instruction ∈ program.code[index]?, _) ∧ _))

instance (program : Program) (chars : List Char) : Decidable (program.Refuses chars) :=
  decidable_of_iff (0 ∈ program.openings ∧ program.Withers program.openings chars)
    ⟨fun both => ⟨both.1, both.2⟩, fun refuses => ⟨refuses.start, refuses.withers⟩⟩

variable {program : Program} {source : Source} {start place : Nat} {chars : List Char}

/-- Some of the text has been passed, and what is left of it is yet to wither. -/
def Along (program : Program) (chars : List Char) (start place index : Nat) : Prop :=
  ∃ passed c rest seen, chars = passed ++ c :: rest ∧ place = start + passed.length ∧
    program.Withers seen (c :: rest) ∧ index ∈ seen

theorem Along.intro (start : Nat) (passed : List Char) {rest : List Char} {seen : List Nat} {index : Nat}
    (split : chars = passed ++ rest) (withers : program.Withers seen rest) (member : index ∈ seen) :
    program.Along chars start (start + passed.length) index := by
  cases rest with
  | nil =>
      have nothing : seen = [] := withers
      rw [nothing] at member
      exact absurd member List.not_mem_nil
  | cons c rest => exact ⟨passed, c, rest, seen, split, rfl, withers, member⟩

theorem Along.quiet {index next : Nat} {instruction : Instruction}
    (along : program.Along chars start place index) (code : program.code[index]? = some instruction)
    (leads : next ∈ instruction.quiet) : program.Along chars start place next := by
  obtain ⟨passed, c, rest, seen, split, rfl, withers, member⟩ := along
  exact .intro start passed split withers ((withers.1 index member instruction code).2.1 leads)

theorem Along.take {index next : Nat} {set : CharSet} {c : Char}
    (stands : source.holdsAt chars start = true) (along : program.Along chars start place index)
    (code : program.code[index]? = some (.take set next)) (here : source.chars[place]? = some c)
    (taken : set.contains c = true) : program.Along chars start (place + 1) next := by
  obtain ⟨passed, d, rest, seen, rfl, rfl, withers, member⟩ := along
  rw [source.holdsAt_append] at stands
  have same : d = c := Option.some.inj
    ((source.char_of_holdsAt (Bool.and_eq_true_iff.mp stands).2).symm.trans here)
  have leads : next ∈ (Instruction.take set next).led d := by
    rw [same, Instruction.led, if_pos taken]
    exact List.mem_singleton_self next
  have further := (withers.1 index member _ code).2.2 leads
  have behind := Along.intro start (passed ++ [d]) (List.append_cons passed d rest) withers.2 further
  rwa [List.length_append, List.length_singleton, ← Nat.add_assoc] at behind

/-- Where the text stands, every path is somewhere along it. -/
theorem Refuses.path (refuses : program.Refuses chars) (stands : source.holdsAt chars start = true)
    {thread : Thread} (path : program.Path source.chars start place thread) :
    program.Along chars start place thread.instruction := by
  induction path with
  | start => exact .intro start [] rfl refuses.withers refuses.start
  | take path code here taken ih => exact ih.take stands code here taken
  | check path code holds ih => exact ih.quiet code List.mem_cons_self
  | first path code ih => exact ih.quiet code List.mem_cons_self
  | second path code ih => exact ih.quiet code (List.mem_cons_of_mem _ List.mem_cons_self)
  | mark path code ih => exact ih.quiet code List.mem_cons_self
  | jump path code ih => exact ih.quiet code List.mem_cons_self

theorem Refuses.match?_eq_none (refuses : program.Refuses chars)
    (stands : source.holdsAt chars start = true) (limit : Nat) :
    program.match? source.chars start limit = none := by
  cases found : program.match? source.chars start limit with
  | none => rfl
  | some m =>
      obtain ⟨index, code, path⟩ := match?_accepted found
      obtain ⟨_, _, _, _, _, _, withers, member⟩ := refuses.path stands path
      exact absurd rfl (withers.1 index member _ code).1

end Program

end Highlighting
