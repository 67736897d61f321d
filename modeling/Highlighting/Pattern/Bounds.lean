import Highlighting.Pattern.Match

/-! # Where matches end

A thread that started at a place has marks between that place and where it stands, and no mark comes
before an earlier one. So a match from a place ends there or behind it, never beyond the limit unless it
is empty, and what its groups took lies inside it. -/
set_option autoImplicit false
namespace Highlighting

/-- The marks of a thread from `start` that stands at `place`. -/
structure Marked (start place : Nat) (marks : List Mark) : Prop where
  falling : marks.Pairwise fun later earlier => earlier.place ≤ later.place
  within : ∀ mark ∈ marks, start ≤ mark.place ∧ mark.place ≤ place

namespace Marked
variable {start place : Nat} {marks : List Mark}

theorem nil (start place : Nat) : Marked start place [] :=
  ⟨.nil, fun _ absurdity => nomatch absurdity⟩

theorem cons (marked : Marked start place marks) (started : start ≤ place) (number : Nat)
    (opens : Bool) : Marked start place (⟨number, opens, place⟩ :: marks) := by
  refine ⟨List.pairwise_cons.mpr ⟨fun mark member => (marked.within mark member).2, marked.falling⟩, ?_⟩
  intro mark member
  rcases List.mem_cons.mp member with rfl | earlier
  · exact ⟨started, Nat.le_refl _⟩
  · exact marked.within mark earlier

theorem succ (marked : Marked start place marks) : Marked start (place + 1) marks :=
  ⟨marked.falling, fun mark member =>
    ⟨(marked.within mark member).1, Nat.le_succ_of_le (marked.within mark member).2⟩⟩

end Marked

namespace Program
variable {program : Program} {text : Array Char} {start place : Nat}

/-- All threads of a list are well marked. -/
def AllMarked (start place : Nat) (threads : List Thread) : Prop :=
  ∀ thread ∈ threads, Marked start place thread.marks

theorem follow_marked (started : start ≤ place) :
    ∀ (fuel : Nat) (frontier : Frontier) (thread : Thread), AllMarked start place frontier.waiting →
      Marked start place thread.marks →
        AllMarked start place (program.follow text place fuel frontier thread).waiting := by
  intro fuel
  induction fuel with
  | zero => exact fun _ _ all _ => all
  | succ fuel ih =>
      intro frontier thread all marked
      have waits : AllMarked start place (thread :: frontier.waiting) := by
        intro other member
        rcases List.mem_cons.mp member with rfl | earlier
        · exact marked
        · exact all other earlier
      unfold follow
      split
      · exact all
      · split
        · exact all
        · exact waits
        · exact waits
        · split
          · exact ih _ _ all marked
          · exact all
        · exact ih _ _ (ih _ _ all marked) marked
        · exact ih _ _ all (marked.cons started _ _)
        · exact ih _ _ all marked

theorem gather_marked (started : start ≤ place) {threads : List Thread}
    (all : AllMarked start place threads) :
    AllMarked start place (program.gather text place threads) := by
  have folded : ∀ (threads : List Thread) (frontier : Frontier),
      AllMarked start place frontier.waiting → AllMarked start place threads →
        AllMarked start place
          (threads.foldl (program.follow text place program.code.size) frontier).waiting := by
    intro threads
    induction threads with
    | nil => exact fun _ reached _ => reached
    | cons thread rest ih =>
        intro frontier reached each
        exact ih _ (follow_marked started _ _ _ reached (each thread List.mem_cons_self))
          (fun other member => each other (List.mem_cons_of_mem _ member))
  intro thread member
  exact folded threads _ (fun _ absurdity => absurd absurdity List.not_mem_nil) all thread
    (List.mem_reverse.mp member)

theorem take?_marked {c : Char} {threads : List Thread} (all : AllMarked start place threads) :
    AllMarked start (place + 1) (threads.filterMap (program.take? c)) := by
  intro thread member
  obtain ⟨before, listed, taken⟩ := List.mem_filterMap.mp member
  unfold take? at taken
  split at taken
  · split at taken
    · cases taken
      exact (all before listed).succ
    · exact nomatch taken
  · exact nomatch taken

theorem step_marked (started : start ≤ place) {c : Char} {threads : List Thread}
    (all : AllMarked start place threads) :
    AllMarked start (place + 1) (program.step text place c threads) :=
  gather_marked (Nat.le_succ_of_le started)
    (take?_marked fun thread member => all thread ((List.takeWhile_sublist _).subset member))

end Program

/-- A match from `start` that reads below `limit`. -/
structure Match.Within (start limit : Nat) (m : Match) : Prop where
  start_le : start ≤ m.stop
  stop_le : m.stop ≤ max start limit
  marked : Marked start m.stop m.marks

namespace Program
variable {program : Program} {text : Array Char} {start limit : Nat}

theorem found?_within {place : Nat} {threads : List Thread} {best : Option Match}
    (started : start ≤ place) (inside : place ≤ max start limit)
    (all : AllMarked start place threads) (known : ∀ m ∈ best, m.Within start limit) :
    ∀ m ∈ (program.found? place threads).or best, m.Within start limit := by
  intro m member
  rcases Option.or_eq_some_iff.mp member with found | ⟨_, found⟩
  · obtain ⟨thread, accepted, rfl⟩ := Option.map_eq_some_iff.mp found
    exact ⟨started, inside, all thread (List.mem_of_find?_eq_some accepted)⟩
  · exact known m found

theorem run_within :
    ∀ (room place : Nat) (threads : List Thread) (best : Option Match), start ≤ place →
      place + room ≤ max start limit → AllMarked start place threads →
        (∀ m ∈ best, m.Within start limit) →
          ∀ m ∈ program.run text room place threads best, m.Within start limit := by
  intro room
  induction room with
  | zero =>
      intro place threads best started ends all known
      cases threads with
      | nil => simpa [run] using known
      | cons thread rest => exact found?_within started (by omega) all known
  | succ room ih =>
      intro place threads best started ends all known
      cases threads with
      | nil => simpa [run] using known
      | cons thread rest =>
          have better : ∀ m ∈ (program.found? place (thread :: rest)).or best, m.Within start limit :=
            found?_within started (by omega) all known
          unfold run
          split
          · exact better
          · exact ih _ _ _ (by omega) (by omega) (step_marked started all) better

/-- A match lies between its start and the limit. -/
theorem match?_within {m : Match} (found : program.match? text start limit = some m) :
    m.Within start limit := by
  refine run_within (limit - start) start _ none (Nat.le_refl _) (by omega)
    (gather_marked (Nat.le_refl _) ?_) (fun _ absurdity => nomatch absurdity) m found
  intro thread member
  rw [List.mem_singleton.mp member]
  exact Marked.nil start start

/-- A match that is found ends between its start and the limit. -/
theorem stop?_within {stop : Nat} (found : program.stop? text start limit = some stop) :
    start ≤ stop ∧ stop ≤ max start limit := by
  obtain ⟨m, preferred, rfl⟩ := Option.map_eq_some_iff.mp found
  exact ⟨(match?_within preferred).start_le, (match?_within preferred).stop_le⟩

end Program

/-- What a group took lies inside the match. -/
theorem Match.Within.group {start limit number : Nat} {m : Match} (inside : m.Within start limit)
    {group : Group} (took : m.group? number = some group) :
    start ≤ group.start ∧ group.start ≤ group.stop ∧ group.stop ≤ m.stop := by
  unfold Match.group? at took
  split at took
  next => exact nomatch took
  next last earlier ended =>
    obtain ⟨first, opened, rfl⟩ := Option.map_eq_some_iff.mp took
    have before := List.mem_of_find?_eq_some opened
    have kept : (last :: earlier).Sublist m.marks := ended ▸ List.dropWhile_sublist _
    have ordered := List.pairwise_cons.mp (inside.marked.falling.sublist kept)
    have open_within := inside.marked.within first (kept.subset (List.mem_cons_of_mem _ before))
    have close_within := inside.marked.within last (kept.subset List.mem_cons_self)
    exact ⟨open_within.1, ordered.1 first before, close_within.2⟩

end Highlighting
