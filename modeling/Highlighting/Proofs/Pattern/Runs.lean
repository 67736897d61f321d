import Highlighting.Proofs.Pattern.Ways

/-! # Runs of characters

A greedy loop over one set of characters takes the characters of the set as long as there are any. -/
set_option autoImplicit false
namespace Highlighting

namespace Pattern
variable {text : Array Char} {limit stop : Nat} {m k : Match} {set : CharSet}

/-- The preferred way of a sequence goes on behind the preferred way of its first part. -/
theorem head?_flatMap_of_head? {ways : List Match} {f : Match → List Match} (first : ways.head? = some m)
    (next : (f m).head? = some k) : (ways.flatMap f).head? = some k := by
  obtain ⟨rest, rfl⟩ := List.head?_eq_some_iff.mp first
  rw [List.flatMap_cons, List.head?_append, next]
  rfl

/-- Rounds that take a character of the set each go on as long as there is one. -/
theorem head?_upTo_char (inside : stop ≤ limit) (ends : text[stop]?.any set.contains = false)
    {count : Nat} (behind : m.stop ≤ stop) (left : limit - m.stop = count)
    (each : ∀ place, m.stop ≤ place → place < stop → text[place]?.any set.contains = true) :
    (Ways.upTo true ((char set).ways text limit) count m).head? = some { m with stop } := by
  induction count generalizing m with
  | zero =>
      have same : m.stop = stop := by omega
      rw [← same]
      rfl
  | succ count ih =>
      rw [Ways.upTo, Ways.orElse, if_pos rfl]
      by_cases more : m.stop < stop
      · have taken : m.stop < limit ∧ text[m.stop]?.any set.contains = true :=
          ⟨by omega, each m.stop (Nat.le_refl _) more⟩
        have further := ih (m := { m with stop := m.stop + 1 }) more (by dsimp only; omega)
          fun place after before => each place (Nat.le_of_succ_le after) before
        rw [ways, if_pos taken, List.flatMap_singleton, List.head?_append, further]
        rfl
      · have same : m.stop = stop := by omega
        rw [← same] at ends
        have stays : ¬ (m.stop < limit ∧ text[m.stop]?.any set.contains = true) := by
          simp [ends]
        rw [ways, if_neg stays, ← same]
        rfl

/-- The preferred way takes as many characters as there are. -/
theorem head?_ways_many (inside : stop ≤ limit) (ends : text[stop]?.any set.contains = false)
    (behind : m.stop ≤ stop)
    (each : ∀ place, m.stop ≤ place → place < stop → text[place]?.any set.contains = true) :
    ((rounds 0 none true (char set)).ways text limit m).head? = some { m with stop } := by
  have rounds : (rounds 0 none true (char set)).ways text limit m =
      Ways.upTo true ((char set).ways text limit) (limit - m.stop) m :=
    List.flatMap_singleton _ m
  rw [rounds]
  exact head?_upTo_char inside ends behind rfl each

/-- The same with one character at least. -/
theorem head?_ways_several (inside : stop ≤ limit) (ends : text[stop]?.any set.contains = false)
    (proper : m.stop < stop)
    (each : ∀ place, m.stop ≤ place → place < stop → text[place]?.any set.contains = true) :
    ((rounds 1 none true (char set)).ways text limit m).head? = some { m with stop } := by
  have taken : m.stop < limit ∧ text[m.stop]?.any set.contains = true :=
    ⟨by omega, each m.stop (Nat.le_refl _) proper⟩
  have first : (Ways.times ((char set).ways text limit) 1 m).head? =
      some { m with stop := m.stop + 1 } := by
    rw [Ways.times_one, ways, if_pos taken]
    rfl
  refine head?_flatMap_of_head? first (head?_upTo_char inside ends ?_ rfl ?_)
  · exact proper
  · exact fun place after before => each place (Nat.le_of_succ_le after) before

/-- Without a first character there is no way. -/
theorem ways_several_eq_nil (missing : text[m.stop]?.any set.contains = false) :
    (rounds 1 none true (char set)).ways text limit m = [] := by
  have stays : ¬ (m.stop < limit ∧ text[m.stop]?.any set.contains = true) := by
    simp [missing]
  rw [ways, Ways.times_one, ways, if_neg stays, List.flatMap_nil]

/-- What a run takes is in the set. -/
theorem mem_ways_run {least : Nat} (way : k ∈ (rounds least none true (char set)).ways text limit m) :
    k.marks = m.marks ∧ m.stop ≤ k.stop ∧
      ∀ place, m.stop ≤ place → place < k.stop → text[place]?.any set.contains = true := by
  let Took (m k : Match) := k.marks = m.marks ∧ m.stop ≤ k.stop ∧
    ∀ place, m.stop ≤ place → place < k.stop → text[place]?.any set.contains = true
  have refl : ∀ m, Took m m := fun m =>
    ⟨rfl, Nat.le_refl _, fun place behind before => absurd before (Nat.not_lt.mpr behind)⟩
  have trans : ∀ {first second third}, Took first second → Took second third → Took first third := by
    rintro first second third ⟨same, forth, some⟩ ⟨also, further, others⟩
    refine ⟨also.trans same, Nat.le_trans forth further, fun place behind before => ?_⟩
    by_cases early : place < second.stop
    · exact some place behind early
    · exact others place (Nat.not_lt.mp early) before
  have each : ∀ m, ∀ k ∈ (char set).ways text limit m, Took m k := by
    intro m k inside
    rw [ways] at inside
    split at inside
    · next here =>
        obtain rfl := List.mem_singleton.mp inside
        refine ⟨rfl, Nat.le_succ _, fun place behind before => ?_⟩
        rw [Nat.le_antisymm (Nat.le_of_lt_succ before) behind]
        exact here.2
    · exact absurd inside List.not_mem_nil
  obtain ⟨between, first, others⟩ := List.mem_flatMap.mp way
  exact trans (Ways.mem_times refl trans each _ m between first)
    (Ways.mem_upTo refl trans each true _ between k others)

theorem isSteady_run (least : Nat) (nonempty : set ≠ .none) :
    (rounds least none true (char set)).isSteady = true := by
  simp [isSteady, movesOn, fewest?, nonempty]

end Pattern

namespace Program
variable {text : Array Char} {place limit stop : Nat} {set : CharSet}

theorem stop?_several (nonempty : set ≠ .none) (inside : stop ≤ limit)
    (ends : text[stop]?.any set.contains = false) (proper : place < stop)
    (each : ∀ passed, place ≤ passed → passed < stop → text[passed]?.any set.contains = true) :
    (ofPattern (.rounds 1 none true (.char set))).stop? text place limit = some stop := by
  rw [stop?_ofPattern (Pattern.isSteady_run 1 nonempty), Pattern.head?_ways_several inside ends proper each]
  rfl

theorem stop?_several_eq_none (nonempty : set ≠ .none)
    (missing : text[place]?.any set.contains = false) :
    (ofPattern (.rounds 1 none true (.char set))).stop? text place limit = none := by
  rw [stop?_ofPattern (Pattern.isSteady_run 1 nonempty), Pattern.ways_several_eq_nil missing]
  rfl

end Program

end Highlighting
