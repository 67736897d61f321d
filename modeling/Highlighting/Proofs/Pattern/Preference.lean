import Mathlib.Logic.Relation
import Highlighting.Pattern.Match

/-! # The preferred way

A program can be run one way after the other: at a fork the first way is gone to its end before the
second one is tried. Threads that all stand at one place, of which no two follow the same instruction,
come to the same match. For a thread that comes to an instruction after another one, the more preferred
thread has already gone every way from there, and what it does not come to cannot be come to again. -/
set_option autoImplicit false
namespace Highlighting

/-- The frontier in which an instruction has been followed, too. -/
def Frontier.visit (frontier : Frontier) (index : Nat) : Frontier :=
  { frontier with followed := frontier.followed.setIfInBounds index true }

theorem Frontier.count_visit {frontier : Frontier} {index : Nat}
    (new : frontier.followed[index]? = some false) :
    (frontier.visit index).followed.count false + 1 = frontier.followed.count false := by
  obtain ⟨inside, unseen⟩ := Array.getElem?_eq_some_iff.mp new
  have some : 0 < frontier.followed.count false :=
    Array.count_pos_iff.mpr (unseen ▸ Array.getElem_mem inside)
  rw [visit, Array.setIfInBounds_def, dif_pos inside, Array.count_set inside, unseen]
  simp only [beq_self_eq_true, if_true, Bool.true_beq, Bool.false_eq_true, if_false]
  omega

/-- Where an instruction leads at a place without a character. -/
def Instruction.slips (text : Array Char) (place : Nat) : Instruction → List Nat
  | .take _ _ | .accept => []
  | .check assertion next => if assertion.holds text place then [next] else []
  | .fork first second => [first, second]
  | .mark _ _ next | .jump next => [next]

namespace Program

/-- What becomes of a match that has come to an instruction when every way from there is gone to its
end, the preferred one first. -/
inductive Leads (program : Program) (text : Array Char) (limit : Nat) :
    Nat → Match → Option Match → Prop where
  | take {index next : Nat} {m : Match} {set : CharSet} {c : Char} {result : Option Match}
      (code : program.code[index]? = some (.take set next)) (within : m.stop < limit)
      (here : text[m.stop]? = some c) (member : set.contains c = true)
      (leads : Leads program text limit next { m with stop := m.stop + 1 } result) :
      Leads program text limit index m result
  | stuck {index next : Nat} {m : Match} {set : CharSet}
      (code : program.code[index]? = some (.take set next))
      (stuck : ∀ c, m.stop < limit → text[m.stop]? = some c → set.contains c = false) :
      Leads program text limit index m none
  | check {index next : Nat} {m : Match} {assertion : Assertion} {result : Option Match}
      (code : program.code[index]? = some (.check assertion next))
      (holds : assertion.holds text m.stop = true)
      (leads : Leads program text limit next m result) : Leads program text limit index m result
  | fails {index next : Nat} {m : Match} {assertion : Assertion}
      (code : program.code[index]? = some (.check assertion next))
      (fails : assertion.holds text m.stop = false) : Leads program text limit index m none
  | fork {index first second : Nat} {m : Match} {result other : Option Match}
      (code : program.code[index]? = some (.fork first second))
      (leads : Leads program text limit first m result)
      (otherwise : Leads program text limit second m other) :
      Leads program text limit index m (result.or other)
  | mark {index next number : Nat} {opens : Bool} {m : Match} {result : Option Match}
      (code : program.code[index]? = some (.mark number opens next))
      (leads : Leads program text limit next
        { m with marks := ⟨number, opens, m.stop⟩ :: m.marks } result) :
      Leads program text limit index m result
  | jump {index next : Nat} {m : Match} {result : Option Match}
      (code : program.code[index]? = some (.jump next))
      (leads : Leads program text limit next m result) : Leads program text limit index m result
  | accept {index : Nat} {m : Match} (code : program.code[index]? = some .accept) :
      Leads program text limit index m (some m)

variable {program : Program} {text : Array Char} {limit place index : Nat} {m : Match}
  {result : Option Match}

/-- What becomes of a match that has come to this instruction. -/
def Goes (program : Program) (text : Array Char) (limit : Nat) (m : Match) (result : Option Match) :
    Instruction → Prop
  | .take set next =>
      (∃ c, m.stop < limit ∧ text[m.stop]? = some c ∧ set.contains c = true ∧
        program.Leads text limit next { m with stop := m.stop + 1 } result) ∨
      (∀ c, m.stop < limit → text[m.stop]? = some c → set.contains c = false) ∧ result = none
  | .check assertion next =>
      if assertion.holds text m.stop then program.Leads text limit next m result else result = none
  | .fork first second =>
      ∃ preferred other, program.Leads text limit first m preferred ∧
        program.Leads text limit second m other ∧ result = preferred.or other
  | .mark number opens next =>
      program.Leads text limit next { m with marks := ⟨number, opens, m.stop⟩ :: m.marks } result
  | .jump next => program.Leads text limit next m result
  | .accept => result = some m

theorem Leads.goes {instruction : Instruction} (leads : program.Leads text limit index m result)
    (code : program.code[index]? = some instruction) : program.Goes text limit m result instruction := by
  cases leads with
  | take listed within here member leads =>
      cases code.symm.trans listed
      exact .inl ⟨_, within, here, member, leads⟩
  | stuck listed stuck =>
      cases code.symm.trans listed
      exact .inr ⟨stuck, rfl⟩
  | check listed holds leads =>
      cases code.symm.trans listed
      rwa [Goes, if_pos holds]
  | fails listed fails =>
      cases code.symm.trans listed
      rw [Goes, if_neg (ne_true_of_eq_false fails)]
  | fork listed leads otherwise =>
      cases code.symm.trans listed
      exact ⟨_, _, leads, otherwise, rfl⟩
  | mark listed leads =>
      cases code.symm.trans listed
      exact leads
  | jump listed leads =>
      cases code.symm.trans listed
      exact leads
  | accept listed =>
      cases code.symm.trans listed
      rfl

/-- Whether a match is come to does not depend on the marks that have been made. -/
theorem Leads.agree (leads : program.Leads text limit index m result) :
    ∀ {same : Match} {other : Option Match}, same.stop = m.stop →
      program.Leads text limit index same other → (other = none ↔ result = none) := by
  induction leads with
  | take code within here member leads ih =>
      intro same other stop others
      rcases others.goes code with ⟨d, _, _, _, further⟩ | ⟨stuck, _⟩
      · exact ih (congrArg (· + 1) stop) further
      · rw [stop] at stuck
        exact absurd member (ne_true_of_eq_false (stuck _ within here))
  | stuck code stuck =>
      intro same other stop others
      rcases others.goes code with ⟨d, within, here, member, _⟩ | ⟨_, nothing⟩
      · rw [stop] at within here
        exact absurd member (ne_true_of_eq_false (stuck _ within here))
      · exact iff_of_true nothing rfl
  | check code holds leads ih =>
      intro same other stop others
      have further := others.goes code
      rw [Goes, stop, if_pos holds] at further
      exact ih stop further
  | fails code fails =>
      intro same other stop others
      have further := others.goes code
      rw [Goes, stop, if_neg (ne_true_of_eq_false fails)] at further
      exact iff_of_true further rfl
  | fork code leads otherwise ih also =>
      intro same other stop others
      obtain ⟨preferred, second, first, further, rfl⟩ := others.goes code
      rw [Option.or_eq_none_iff, Option.or_eq_none_iff, ih stop first, also stop further]
  | mark code leads ih =>
      intro same other stop others
      refine ih ?_ (others.goes code)
      exact stop
  | jump code leads ih =>
      intro same other stop others
      exact ih stop (others.goes code)
  | accept code =>
      intro same other stop others
      have further : other = some same := others.goes code
      rw [further]
      exact iff_of_false (Option.some_ne_none _) (Option.some_ne_none _)

/-! ## No way leads back -/

/-- At the place, the one instruction leads to the other without a character. -/
def Slips (program : Program) (text : Array Char) (place index next : Nat) : Prop :=
  ∃ instruction, program.code[index]? = some instruction ∧ next ∈ instruction.slips text place

theorem slips_iff {instruction : Instruction} {next : Nat}
    (code : program.code[index]? = some instruction) :
    program.Slips text place index next ↔ next ∈ instruction.slips text place := by
  rw [Slips, code]
  simp

/-- Where every way is gone to its end, none leads back to where it started. -/
theorem Leads.acyclic (leads : program.Leads text limit index m result) :
    ¬ Relation.TransGen (program.Slips text m.stop) index index := by
  have away : ∀ {instruction : Instruction} {index place : Nat},
      program.code[index]? = some instruction →
        (∀ next ∈ instruction.slips text place,
          ¬ Relation.TransGen (program.Slips text place) next next) →
          ¬ Relation.TransGen (program.Slips text place) index index := by
    intro instruction index place code further cycle
    obtain ⟨next, slip, back⟩ := Relation.TransGen.head'_iff.mp cycle
    exact further next ((slips_iff code).mp slip) (Relation.TransGen.tail' back slip)
  induction leads with
  | take code within here member leads ih => exact away code (List.forall_mem_nil _)
  | stuck code stuck => exact away code (List.forall_mem_nil _)
  | check code holds leads ih =>
      refine away code ?_
      rw [Instruction.slips, if_pos holds]
      exact List.forall_mem_singleton.mpr ih
  | fails code fails =>
      refine away code ?_
      rw [Instruction.slips, if_neg (ne_true_of_eq_false fails)]
      exact List.forall_mem_nil _
  | fork code leads otherwise ih also =>
      exact away code (List.forall_mem_cons.mpr ⟨ih, List.forall_mem_singleton.mpr also⟩)
  | mark code leads ih => exact away code (List.forall_mem_singleton.mpr ih)
  | jump code leads ih => exact away code (List.forall_mem_singleton.mpr ih)
  | accept code => exact away code (List.forall_mem_nil _)

/-! ## Following a thread -/

/-- The threads lead to the match, the most preferred one first. -/
inductive LeadAll (program : Program) (text : Array Char) (limit place : Nat) :
    List Thread → Option Match → Prop where
  | nil : LeadAll program text limit place [] none
  | cons {thread : Thread} {rest : List Thread} {result other : Option Match}
      (leads : program.Leads text limit thread.instruction ⟨place, thread.marks⟩ result)
      (behind : LeadAll program text limit place rest other) :
      LeadAll program text limit place (thread :: rest) (result.or other)

theorem LeadAll.append {threads behind : List Thread} {result other : Option Match}
    (leads : program.LeadAll text limit place threads result)
    (further : program.LeadAll text limit place behind other) :
    program.LeadAll text limit place (threads ++ behind) (result.or other) := by
  induction leads with
  | nil => exact further
  | cons leads rest ih =>
      rw [Option.or_assoc]
      exact .cons leads ih

theorem leadAll_single {thread : Thread}
    (leads : program.Leads text limit thread.instruction ⟨place, thread.marks⟩ result) :
    program.LeadAll text limit place [thread] result := by
  have alone := LeadAll.cons leads .nil
  rwa [Option.or_none] at alone

/-- A thread that waits for a character or has come to a match. -/
def Waits (program : Program) (thread : Thread) : Prop :=
  (∃ set next, program.code[thread.instruction]? = some (.take set next)) ∨
    program.code[thread.instruction]? = some .accept

/-- The threads that wait have come from all that has been followed, and lead to the match. -/
structure Gathered (program : Program) (text : Array Char) (limit place : Nat) (value : Option Match)
    (frontier : Frontier) : Prop where
  size : frontier.followed.size = program.code.size
  waits : ∀ thread ∈ frontier.waiting, program.Waits thread
  leads : program.LeadAll text limit place frontier.waiting.reverse value

/-- Nothing more is come to from the instruction than the match that there is. -/
def Settled (program : Program) (text : Array Char) (limit place : Nat) (value : Option Match)
    (index : Nat) : Prop :=
  value ≠ none ∨ ∀ marks result, program.Leads text limit index ⟨place, marks⟩ result → result = none

theorem Settled.or {value : Option Match} (settled : program.Settled text limit place value index)
    (other : Option Match) : program.Settled text limit place (value.or other) index := by
  rcases settled with found | nothing
  · refine .inl fun lost => found ?_
    exact (Option.or_eq_none_iff.mp lost).1
  · exact .inr nothing

theorem Leads.settled (leads : program.Leads text limit index m result) (value : Option Match) :
    program.Settled text limit m.stop (value.or result) index := by
  cases result with
  | none =>
      refine .inr fun marks other others => (leads.agree ?_ others).mpr rfl
      rfl
  | some found =>
      refine .inl fun lost => ?_
      exact nomatch (Option.or_eq_none_iff.mp lost).2

/-- What has been followed since is settled. -/
structure Settles (program : Program) (text : Array Char) (limit place : Nat) (value : Option Match)
    (before after : Frontier) : Prop where
  gathered : program.Gathered text limit place value after
  fewer : after.followed.count false ≤ before.followed.count false
  settled : ∀ other, after.followed[other]? = some true →
    before.followed[other]? = some true ∨ program.Settled text limit place value other

theorem Settles.trans {value further : Option Match} {before between after : Frontier}
    (first : program.Settles text limit place value before between)
    (second : program.Settles text limit place (value.or further) between after) :
    program.Settles text limit place (value.or further) before after := by
  refine ⟨second.gathered, Nat.le_trans second.fewer first.fewer, ?_⟩
  intro other followed
  rcases second.settled other followed with earlier | settled
  · rcases first.settled other earlier with earliest | settled
    · exact .inl earliest
    · exact .inr (settled.or further)
  · exact .inr settled

variable {frontier : Frontier} {value : Option Match}

theorem Gathered.visit (gathered : program.Gathered text limit place value frontier) (index : Nat) :
    program.Gathered text limit place value (frontier.visit index) := by
  refine ⟨?_, gathered.waits, gathered.leads⟩
  rw [Frontier.visit, Array.size_setIfInBounds, gathered.size]

theorem Gathered.wait {thread : Thread} (gathered : program.Gathered text limit place value frontier)
    (waits : program.Waits thread)
    (leads : program.Leads text limit thread.instruction ⟨place, thread.marks⟩ result) :
    program.Gathered text limit place (value.or result)
      { frontier with waiting := thread :: frontier.waiting } := by
  refine ⟨gathered.size, ?_, ?_⟩
  · intro other member
    rcases List.mem_cons.mp member with rfl | earlier
    · exact waits
    · exact gathered.waits other earlier
  · rw [List.reverse_cons]
    exact gathered.leads.append (leadAll_single leads)

/-- What has been done behind an instruction that had not been followed settles the instruction, too. -/
theorem Leads.settles (leads : program.Leads text limit index m result)
    (new : frontier.followed[index]? = some false) {after : Frontier}
    (settles : program.Settles text limit m.stop (value.or result) (frontier.visit index) after) :
    program.Settles text limit m.stop (value.or result) frontier after := by
  refine ⟨settles.gathered, ?_, ?_⟩
  · have fewer := settles.fewer
    rw [← Frontier.count_visit new]
    exact Nat.le_succ_of_le fewer
  · intro other followed
    rcases settles.settled other followed with earlier | settled
    · rw [Frontier.visit, Array.getElem?_setIfInBounds] at earlier
      by_cases same : index = other
      · exact .inr (same ▸ leads.settled value)
      · rw [if_neg same] at earlier
        exact .inl earlier
    · exact .inr settled

/-- Whatever has been followed is settled or cannot be come to from the instruction. -/
def Ahead (program : Program) (text : Array Char) (limit place : Nat) (value : Option Match)
    (frontier : Frontier) (index : Nat) : Prop :=
  ∀ other, frontier.followed[other]? = some true →
    program.Settled text limit place value other ∨
      ¬ Relation.ReflTransGen (program.Slips text place) index other

theorem Ahead.slip (ahead : program.Ahead text limit m.stop value frontier index)
    (leads : program.Leads text limit index m result) {instruction : Instruction} {next : Nat}
    (code : program.code[index]? = some instruction) (slip : next ∈ instruction.slips text m.stop) :
    program.Ahead text limit m.stop value (frontier.visit index) next := by
  intro other followed
  rw [Frontier.visit, Array.getElem?_setIfInBounds] at followed
  have slip := (slips_iff code).mpr slip
  by_cases same : index = other
  · subst same
    exact .inr fun back => leads.acyclic (Relation.TransGen.head' slip back)
  · rw [if_neg same] at followed
    rcases ahead other followed with settled | away
    · exact .inl settled
    · exact .inr fun further => away (Relation.ReflTransGen.head slip further)

/-- What is settled on the way stays out of the way of what follows. -/
theorem Settles.ahead {further : Option Match} {before after : Frontier}
    (settles : program.Settles text limit place (value.or further) before after)
    (ahead : program.Ahead text limit place value before index) :
    program.Ahead text limit place (value.or further) after index := by
  intro other followed
  rcases settles.settled other followed with earlier | settled
  · rcases ahead other earlier with settled | away
    · exact .inl (settled.or further)
    · exact .inr away
  · exact .inl settled

/-- What is done behind an instruction that had not been followed. -/
def followBehind (program : Program) (text : Array Char) (place fuel : Nat) (seen : Frontier)
    (thread : Thread) : Instruction → Frontier
  | .take _ _ | .accept => { seen with waiting := thread :: seen.waiting }
  | .check assertion next =>
      if assertion.holds text place then
        program.follow text place fuel seen { thread with instruction := next }
      else seen
  | .fork first second =>
      program.follow text place fuel
        (program.follow text place fuel seen { thread with instruction := first })
        { thread with instruction := second }
  | .mark number opens next =>
      program.follow text place fuel seen ⟨next, ⟨number, opens, place⟩ :: thread.marks⟩
  | .jump next => program.follow text place fuel seen { thread with instruction := next }

theorem follow_new {fuel : Nat} {marks : List Mark} {instruction : Instruction}
    (new : frontier.followed[index]? = some false) (code : program.code[index]? = some instruction) :
    program.follow text place (fuel + 1) frontier ⟨index, marks⟩ =
      program.followBehind text place fuel (frontier.visit index) ⟨index, marks⟩ instruction := by
  have unseen : frontier.followed[index]?.getD true = false := by
    rw [new]
    rfl
  rw [follow, if_neg (ne_true_of_eq_false unseen)]
  cases instruction <;> rw [code] <;> rfl

theorem follow_old {fuel : Nat} {marks : List Mark} (old : frontier.followed[index]? = some true) :
    program.follow text place fuel frontier ⟨index, marks⟩ = frontier := by
  cases fuel with
  | zero => rfl
  | succ fuel =>
      have seen : frontier.followed[index]?.getD true = true := by
        rw [old]
        rfl
      rw [follow, if_pos seen]

/-- Following a thread finds what its instruction leads to, behind what has been found. -/
def Follows (program : Program) (text : Array Char) (limit index : Nat) (m : Match)
    (result : Option Match) : Prop :=
  ∀ ⦃fuel : Nat⦄ ⦃frontier : Frontier⦄ ⦃value : Option Match⦄,
    program.Gathered text limit m.stop value frontier → frontier.followed.count false ≤ fuel →
      program.Ahead text limit m.stop value frontier index →
        program.Settles text limit m.stop (value.or result) frontier
          (program.follow text m.stop fuel frontier ⟨index, m.marks⟩)

/-- An instruction that has been followed leads to nothing more, so that only a new one matters. -/
theorem Leads.follows_of_behind {instruction : Instruction}
    (leads : program.Leads text limit index m result)
    (code : program.code[index]? = some instruction)
    (behind : ∀ {fuel : Nat} {frontier : Frontier} {value : Option Match},
      program.Gathered text limit m.stop value (frontier.visit index) →
        (frontier.visit index).followed.count false ≤ fuel →
          program.Ahead text limit m.stop value frontier index →
            program.Settles text limit m.stop (value.or result) (frontier.visit index)
              (program.followBehind text m.stop fuel (frontier.visit index) ⟨index, m.marks⟩
                instruction)) :
    program.Follows text limit index m result := by
  intro fuel frontier value gathered enough ahead
  obtain ⟨inside, _⟩ := Array.getElem?_eq_some_iff.mp code
  rw [← gathered.size] at inside
  cases known : frontier.followed[index] with
  | true =>
      have old : frontier.followed[index]? = some true := Array.getElem?_eq_some_iff.mpr ⟨inside, known⟩
      have same : value.or result = value := by
        rcases ahead index old with (found | nothing) | away
        · exact Option.or_of_isSome (Option.isSome_iff_ne_none.mpr found)
        · rw [nothing m.marks result leads, Option.or_none]
        · exact absurd .refl away
      rw [follow_old old, same]
      exact ⟨gathered, Nat.le_refl _, fun _ followed => .inl followed⟩
  | false =>
      have new : frontier.followed[index]? = some false :=
        Array.getElem?_eq_some_iff.mpr ⟨inside, known⟩
      have fewer := Frontier.count_visit new
      obtain ⟨fuel, rfl⟩ := Nat.exists_eq_add_one_of_ne_zero (n := fuel) (by omega)
      rw [follow_new new code]
      exact leads.settles new (behind (gathered.visit index) (by omega) ahead)

theorem Leads.follows_waiting {instruction : Instruction}
    (leads : program.Leads text limit index m result)
    (code : program.code[index]? = some instruction) (waits : program.Waits ⟨index, m.marks⟩) :
    program.Follows text limit index m result := by
  refine leads.follows_of_behind code fun {fuel frontier value} gathered enough ahead => ?_
  have waiting : program.followBehind text m.stop fuel (frontier.visit index) ⟨index, m.marks⟩
      instruction = { frontier.visit index with
        waiting := ⟨index, m.marks⟩ :: (frontier.visit index).waiting } := by
    rcases waits with ⟨set, next, listed⟩ | listed <;>
    · cases code.symm.trans listed
      rfl
  rw [waiting]
  exact ⟨gathered.wait waits leads, Nat.le_refl _, fun _ seen => .inl seen⟩

theorem Leads.follows (leads : program.Leads text limit index m result) :
    program.Follows text limit index m result := by
  have whole := leads
  induction leads with
  | take code within here member leads ih => exact whole.follows_waiting code (.inl ⟨_, _, code⟩)
  | stuck code stuck => exact whole.follows_waiting code (.inl ⟨_, _, code⟩)
  | accept code => exact whole.follows_waiting code (.inr code)
  | check code holds leads ih =>
      refine whole.follows_of_behind code fun gathered enough ahead => ?_
      rw [followBehind, if_pos holds]
      refine ih leads gathered enough (ahead.slip whole code ?_)
      rw [Instruction.slips, if_pos holds]
      exact List.mem_cons_self
  | fails code fails =>
      refine whole.follows_of_behind code fun gathered enough ahead => ?_
      rw [followBehind, if_neg (ne_true_of_eq_false fails), Option.or_none]
      exact ⟨gathered, Nat.le_refl _, fun _ seen => .inl seen⟩
  | fork code leads otherwise ih also =>
      refine whole.follows_of_behind code fun gathered enough ahead => ?_
      have first := ih leads gathered enough (ahead.slip whole code List.mem_cons_self)
      have aside := ahead.slip whole code (List.mem_cons_of_mem _ List.mem_cons_self)
      have second := also otherwise first.gathered (Nat.le_trans first.fewer enough) (first.ahead aside)
      rw [← Option.or_assoc]
      exact first.trans second
  | mark code leads ih =>
      refine whole.follows_of_behind code fun gathered enough ahead => ?_
      exact ih leads gathered enough (ahead.slip whole code List.mem_cons_self)
  | jump code leads ih =>
      refine whole.follows_of_behind code fun gathered enough ahead => ?_
      exact ih leads gathered enough (ahead.slip whole code List.mem_cons_self)

/-- Threads that are followed one after the other wait where they lead on. -/
theorem gather_leads {threads : List Thread} (all : program.LeadAll text limit place threads result) :
    program.LeadAll text limit place (program.gather text place threads) result ∧
      ∀ thread ∈ program.gather text place threads, program.Waits thread := by
  have folded : ∀ {frontier : Frontier} {value : Option Match},
      program.Gathered text limit place value frontier →
        (∀ other, frontier.followed[other]? = some true →
          program.Settled text limit place value other) →
          program.Gathered text limit place (value.or result)
            (threads.foldl (program.follow text place program.code.size) frontier) := by
    induction all with
    | nil =>
        intro frontier value gathered settled
        rwa [Option.or_none]
    | cons leads behind ih =>
        intro frontier value gathered settled
        have enough : frontier.followed.count false ≤ program.code.size :=
          gathered.size ▸ Array.count_le_size
        have settles := leads.follows gathered enough fun other seen => .inl (settled other seen)
        rw [← Option.or_assoc]
        refine ih settles.gathered fun other seen => ?_
        rcases settles.settled other seen with earlier | now
        · exact (settled other earlier).or _
        · exact now
  have start : program.Gathered text limit place none
      { followed := .replicate program.code.size false } :=
    ⟨Array.size_replicate, List.forall_mem_nil _, .nil⟩
  have gathered := folded start fun other seen => by
    rw [Array.getElem?_replicate] at seen
    split at seen <;> exact nomatch seen
  rw [Option.none_or] at gathered
  refine ⟨gathered.leads, fun thread member => gathered.waits thread (List.mem_reverse.mp member)⟩

/-! ## Running the threads -/

theorem accepts_iff {thread : Thread} :
    program.accepts thread = true ↔ program.code[thread.instruction]? = some .accept :=
  beq_iff_eq

theorem not_accepts_take {thread : Thread} {set : CharSet} {next : Nat}
    (code : program.code[thread.instruction]? = some (.take set next)) :
    program.accepts thread = false := by
  rw [accepts, code]
  rfl

theorem found?_cons_accept {thread : Thread} (rest : List Thread)
    (code : program.code[thread.instruction]? = some .accept) :
    program.found? place (thread :: rest) = some ⟨place, thread.marks⟩ := by
  rw [found?, List.find?_cons_of_pos (accepts_iff.mpr code)]
  rfl

theorem found?_cons_take {thread : Thread} {set : CharSet} {next : Nat} (rest : List Thread)
    (code : program.code[thread.instruction]? = some (.take set next)) :
    program.found? place (thread :: rest) = program.found? place rest := by
  rw [found?, List.find?_cons_of_neg (ne_true_of_eq_false (not_accepts_take code)), found?]

/-- Where no character can be taken, only a thread that has come to a match leads to one. -/
theorem LeadAll.found? {threads : List Thread}
    (all : program.LeadAll text limit place threads result)
    (waits : ∀ thread ∈ threads, program.Waits thread)
    (ended : ∀ c, place < limit → text[place]? ≠ some c) :
    program.found? place threads = result := by
  induction all with
  | nil => rfl
  | cons leads behind ih =>
      have rest := ih fun other member => waits other (List.mem_cons_of_mem _ member)
      rcases waits _ List.mem_cons_self with ⟨set, next, code⟩ | code
      · rcases leads.goes code with ⟨c, within, here, _⟩ | ⟨_, rfl⟩
        · exact absurd here (ended c within)
        · rw [found?_cons_take _ code, rest, Option.none_or]
      · have stops := leads.goes code
        rw [found?_cons_accept _ code, stops]
        rfl

/-- The threads that take the character lead on, and behind them is the match that there is. -/
theorem LeadAll.step {c : Char} {threads : List Thread}
    (all : program.LeadAll text limit place threads result)
    (waits : ∀ thread ∈ threads, program.Waits thread) (within : place < limit)
    (here : text[place]? = some c) :
    ∃ further, result = further.or (program.found? place threads) ∧
      program.LeadAll text limit (place + 1)
        ((threads.takeWhile (!program.accepts ·)).filterMap (program.take? c)) further := by
  induction all with
  | nil => exact ⟨none, rfl, .nil⟩
  | @cons thread rest preferred other leads behind ih =>
      obtain ⟨further, same, leadsOn⟩ := ih fun other member => waits other (List.mem_cons_of_mem _ member)
      rcases waits _ List.mem_cons_self with ⟨set, next, code⟩ | code
      · have waiting : (thread :: rest).takeWhile (!program.accepts ·) =
            thread :: rest.takeWhile (!program.accepts ·) := by
          rw [List.takeWhile_cons, not_accepts_take code]
          rfl
        rw [waiting, found?_cons_take _ code, same, ← Option.or_assoc]
        refine ⟨preferred.or further, rfl, ?_⟩
        rcases leads.goes code with ⟨d, _, there, member, onward⟩ | ⟨stuck, rfl⟩
        · obtain rfl := Option.some.inj (here.symm.trans there)
          have taken : program.take? c thread = some { thread with instruction := next } := by
            rw [take?, code]
            exact if_pos member
          rw [List.filterMap_cons_some taken]
          exact .cons onward leadsOn
        · have left : program.take? c thread = none := by
            rw [take?, code]
            exact if_neg (ne_true_of_eq_false (stuck c within here))
          rwa [List.filterMap_cons_none left, Option.none_or]
      · have stops := leads.goes code
        have last : (thread :: rest).takeWhile (!program.accepts ·) = [] := by
          rw [List.takeWhile_cons, accepts_iff.mpr code]
          rfl
        rw [last, found?_cons_accept _ code, stops]
        exact ⟨none, rfl, .nil⟩

/-- A run comes to the match that its threads lead to, and without one to the match that there was. -/
theorem run_leads (room : Nat) :
    ∀ {place : Nat} {threads : List Thread} {result best : Option Match},
      program.LeadAll text limit place threads result → (∀ thread ∈ threads, program.Waits thread) →
        room = limit - place → program.run text room place threads best = result.or best := by
  induction room with
  | zero =>
      intro place threads result best all waits ended
      have found := all.found? waits fun c within => by omega
      cases all with
      | nil => simp only [run, Option.none_or]
      | cons leads behind => exact congrArg (Option.or · best) found
  | succ room ih =>
      intro place threads result best all waits left
      cases all with
      | nil => simp only [run, Option.none_or]
      | @cons thread rest preferred other leads behind =>
          have all := LeadAll.cons leads behind
          unfold run
          split
          · next ended => rw [all.found? waits fun c _ here => nomatch ended.symm.trans here]
          · next c here =>
              obtain ⟨further, same, onward⟩ := all.step waits (by omega) here
              obtain ⟨gathered, waitsOn⟩ := gather_leads onward
              rw [Program.step, ih gathered waitsOn (by omega), same, Option.or_assoc]

/-- The preferred match is the one that is come to when one way is gone after the other. -/
theorem match?_of_leads (leads : program.Leads text limit 0 ⟨place, []⟩ result) :
    program.match? text place limit = result := by
  have alone : program.LeadAll text limit place [⟨0, []⟩] result := leadAll_single leads
  obtain ⟨gathered, waits⟩ := gather_leads alone
  rw [match?, run_leads _ gathered waits rfl, Option.or_none]

end Program

end Highlighting
