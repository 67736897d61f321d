import Highlighting.Pattern.Match

/-! # The paths of threads

A path leads a thread through a program, one instruction at a time, from a start of its own. Threads are
only ever moved along paths, so that every match ends a path that comes to an accepting instruction. -/
set_option autoImplicit false
namespace Highlighting.Program

/-- The thread can stand at the place when it has started at `start`. -/
inductive Path (program : Program) (text : Array Char) (start : Nat) : Nat → Thread → Prop where
  | start : Path program text start start ⟨0, []⟩
  | take {place next : Nat} {thread : Thread} {set : CharSet} {c : Char}
      (path : Path program text start place thread)
      (code : program.code[thread.instruction]? = some (.take set next))
      (here : text[place]? = some c) (member : set.contains c = true) :
      Path program text start (place + 1) { thread with instruction := next }
  | check {place next : Nat} {thread : Thread} {assertion : Assertion}
      (path : Path program text start place thread)
      (code : program.code[thread.instruction]? = some (.check assertion next))
      (holds : assertion.holds text place = true) :
      Path program text start place { thread with instruction := next }
  | first {place first second : Nat} {thread : Thread} (path : Path program text start place thread)
      (code : program.code[thread.instruction]? = some (.fork first second)) :
      Path program text start place { thread with instruction := first }
  | second {place first second : Nat} {thread : Thread} (path : Path program text start place thread)
      (code : program.code[thread.instruction]? = some (.fork first second)) :
      Path program text start place { thread with instruction := second }
  | mark {place next number : Nat} {opens : Bool} {thread : Thread}
      (path : Path program text start place thread)
      (code : program.code[thread.instruction]? = some (.mark number opens next)) :
      Path program text start place ⟨next, ⟨number, opens, place⟩ :: thread.marks⟩
  | jump {place next : Nat} {thread : Thread} (path : Path program text start place thread)
      (code : program.code[thread.instruction]? = some (.jump next)) :
      Path program text start place { thread with instruction := next }

variable {program : Program} {text : Array Char} {start place : Nat}

theorem follow_path (fuel : Nat) :
    ∀ {frontier : Frontier} {thread : Thread},
      (∀ other ∈ frontier.waiting, program.Path text start place other) →
        program.Path text start place thread →
          ∀ other ∈ (program.follow text place fuel frontier thread).waiting,
            program.Path text start place other := by
  induction fuel with
  | zero => intro frontier thread all _; exact all
  | succ fuel ih =>
      intro frontier thread all path
      have waits : ∀ other ∈ thread :: frontier.waiting, program.Path text start place other := by
        intro other member
        rcases List.mem_cons.mp member with rfl | earlier
        · exact path
        · exact all other earlier
      unfold follow
      split
      · exact all
      · split
        · exact all
        · exact waits
        · exact waits
        · next assertion next code =>
            split
            · next holds => exact ih all (path.check code holds)
            · exact all
        · next first second code => exact ih (ih all (path.first code)) (path.second code)
        · next number opens next code => exact ih all (path.mark code)
        · next next code => exact ih all (path.jump code)

theorem gather_path {threads : List Thread}
    (all : ∀ thread ∈ threads, program.Path text start place thread) :
    ∀ thread ∈ program.gather text place threads, program.Path text start place thread := by
  have folded : ∀ (threads : List Thread) (frontier : Frontier),
      (∀ other ∈ frontier.waiting, program.Path text start place other) →
        (∀ thread ∈ threads, program.Path text start place thread) →
          ∀ other ∈ (threads.foldl (program.follow text place program.code.size) frontier).waiting,
            program.Path text start place other := by
    intro threads
    induction threads with
    | nil => intro frontier reached _; exact reached
    | cons thread rest ih =>
        intro frontier reached each
        exact ih _ (follow_path _ reached (each thread List.mem_cons_self))
          fun other member => each other (List.mem_cons_of_mem _ member)
  intro thread member
  exact folded threads _ (fun _ absurdity => absurd absurdity List.not_mem_nil) all thread
    (List.mem_reverse.mp member)

theorem step_path {c : Char} (here : text[place]? = some c) {threads : List Thread}
    (all : ∀ thread ∈ threads, program.Path text start place thread) :
    ∀ thread ∈ program.step text place c threads, program.Path text start (place + 1) thread := by
  refine gather_path ?_
  intro thread member
  obtain ⟨before, listed, taken⟩ := List.mem_filterMap.mp member
  have path := all before ((List.takeWhile_sublist _).subset listed)
  unfold take? at taken
  split at taken
  · next set next code =>
      split at taken
      · next contained =>
          cases taken
          exact path.take code here contained
      · exact nomatch taken
  · exact nomatch taken

/-- The end of a path that comes to an accepting instruction. -/
def Accepted (program : Program) (text : Array Char) (start : Nat) (m : Match) : Prop :=
  ∃ index, program.code[index]? = some .accept ∧ program.Path text start m.stop ⟨index, m.marks⟩

theorem found?_accepted {threads : List Thread} {best : Option Match}
    (all : ∀ thread ∈ threads, program.Path text start place thread)
    (known : ∀ m ∈ best, program.Accepted text start m) :
    ∀ m ∈ (program.found? place threads).or best, program.Accepted text start m := by
  intro m member
  rcases Option.or_eq_some_iff.mp member with found | ⟨_, found⟩
  · obtain ⟨thread, accepted, rfl⟩ := Option.map_eq_some_iff.mp found
    have code := List.find?_some accepted
    exact ⟨thread.instruction, eq_of_beq code, all thread (List.mem_of_find?_eq_some accepted)⟩
  · exact known m found

theorem run_accepted (room : Nat) :
    ∀ {place : Nat} {threads : List Thread} {best : Option Match},
      (∀ thread ∈ threads, program.Path text start place thread) →
        (∀ m ∈ best, program.Accepted text start m) →
          ∀ m ∈ program.run text room place threads best, program.Accepted text start m := by
  induction room with
  | zero =>
      intro place threads best all known
      cases threads with
      | nil => simpa only [run] using known
      | cons thread rest => exact found?_accepted all known
  | succ room ih =>
      intro place threads best all known
      cases threads with
      | nil => simpa only [run] using known
      | cons thread rest =>
          have better : ∀ m ∈ (program.found? place (thread :: rest)).or best,
              program.Accepted text start m :=
            found?_accepted all known
          unfold run
          split
          · exact better
          · next c here => exact ih (step_path here all) better

/-- A match ends a path from its start. -/
theorem match?_accepted {limit : Nat} {m : Match} (found : program.match? text start limit = some m) :
    program.Accepted text start m := by
  refine run_accepted (limit - start) (gather_path ?_)
    (fun _ absurdity => absurd absurdity (Option.not_mem_none _)) m found
  intro thread member
  rw [List.mem_singleton.mp member]
  exact .start

end Highlighting.Program
