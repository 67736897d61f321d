import Highlighting.Proofs.Pattern.Meaning

/-! # Programs come to all matches

Whatever a pattern can match, the program of the pattern can come to. So the paths of a program end
where its pattern matches, and nowhere else. -/
set_option autoImplicit false
namespace Highlighting

theorem Rounds.split {body : Match → Match → Prop} {count more : Nat} {m k : Match}
    (rounds : Rounds body (count + more) m k) :
    ∃ l, Rounds body count m l ∧ Rounds body more l k := by
  induction count generalizing m with
  | zero =>
      rw [Nat.zero_add] at rounds
      exact ⟨m, rfl, rounds⟩
  | succ count ih =>
      rw [Nat.add_right_comm] at rounds
      obtain ⟨between, first, rest⟩ := rounds
      obtain ⟨l, before, behind⟩ := ih rest
      exact ⟨l, ⟨between, first, before⟩, behind⟩

namespace Block

/-- A path that comes to the block goes on to behind it, wherever the body leads. -/
def Carries (block : Block) (text : Array Char) (body : Match → Match → Prop) : Prop :=
  ∀ ⦃program : Program⦄ ⦃here next : Nat⦄, program.Has here (block.code here next) →
    ∀ ⦃start : Nat⦄ ⦃m k : Match⦄, body m k → program.Path text start m.stop ⟨here, m.marks⟩ →
      program.Path text start k.stop ⟨next, k.marks⟩

variable {text : Array Char} {body other : Match → Match → Prop} {block first second : Block}

theorem Carries.imp {stronger : Match → Match → Prop} (carries : block.Carries text body)
    (weaken : ∀ m k, stronger m k → body m k) : block.Carries text stronger :=
  fun _ _ _ has _ m k inside path => carries has (weaken m k inside) path

theorem carries_jump : (one .jump).Carries text fun m k => k = m := by
  rintro program here next has start m _ rfl path
  exact path.jump has.head

theorem Carries.seq (carries : first.Carries text body) (also : second.Carries text other) :
    (first.seq second).Carries text fun m k => ∃ l, body m l ∧ other l k := by
  rintro program here next has start m k ⟨l, inside, outside⟩ path
  have behind := has.back
  rw [first.length_code] at behind
  exact also behind outside (carries has.front inside path)

theorem Carries.alt (carries : first.Carries text body) (also : second.Carries text other) :
    (first.alt second).Carries text fun m k => body m k ∨ other m k := by
  intro program here next has start m k chosen path
  have behind := has.tail.back
  rw [first.length_code] at behind
  rcases chosen with inside | inside
  · exact carries has.tail.front inside (path.first has.head)
  · exact also behind inside (path.second has.head)

/-- A fork between a round and the way out goes both ways. -/
theorem path_roundOr {program : Program} {start place gate round next : Nat} {greedy : Bool}
    {marks : List Mark} (code : program.code[gate]? = some (roundOr greedy round next))
    (path : program.Path text start place ⟨gate, marks⟩) :
    program.Path text start place ⟨round, marks⟩ ∧ program.Path text start place ⟨next, marks⟩ := by
  cases greedy with
  | true => exact ⟨path.first code, path.second code⟩
  | false => exact ⟨path.second code, path.first code⟩

theorem Carries.optional (carries : block.Carries text body) (greedy : Bool) :
    (block.optional greedy).Carries text fun m k => ∃ rounds ≤ 1, Rounds body rounds m k := by
  rintro program here next has start m k ⟨_ | _ | rounds, few, once⟩ path
  · obtain rfl : k = m := once
    exact (path_roundOr has.head path).2
  · obtain ⟨_, inside, rfl⟩ := once
    exact carries has.tail inside (path_roundOr has.head path).1
  · omega

/-- A fork that the body leads back to carries any number of rounds. -/
theorem path_gate {program : Program} {gate round next : Nat} {greedy : Bool} {start count : Nat}
    (code : program.code[gate]? = some (roundOr greedy round next))
    (carries : ∀ {m k : Match}, body m k → program.Path text start m.stop ⟨round, m.marks⟩ →
      program.Path text start k.stop ⟨gate, k.marks⟩) :
    ∀ {m k : Match}, Rounds body count m k → program.Path text start m.stop ⟨gate, m.marks⟩ →
      program.Path text start k.stop ⟨next, k.marks⟩ := by
  induction count with
  | zero =>
      rintro m _ rfl path
      exact (path_roundOr code path).2
  | succ count ih =>
      rintro m k ⟨l, inside, others⟩ path
      exact ih others (carries inside (path_roundOr code path).1)

theorem Carries.loop (carries : block.Carries text body) (greedy : Bool) :
    (block.loop greedy).Carries text fun m k => ∃ rounds, Rounds body rounds m k := by
  rintro program here next has start m k ⟨rounds, several⟩ path
  exact path_gate has.head (fun inside => carries has.tail inside) several path

theorem Carries.again (carries : block.Carries text body) (greedy : Bool) :
    (block.again greedy).Carries text fun m k => ∃ rounds, 1 ≤ rounds ∧ Rounds body rounds m k := by
  rintro program here next has start m k ⟨_ | rounds, first, several⟩ path
  · omega
  · obtain ⟨l, inside, others⟩ := several
    have gate := has.back.head
    rw [block.length_code] at gate
    exact path_gate gate (fun inside => carries has.front inside) others (carries has.front inside path)

theorem Carries.times (carries : block.Carries text body) (count : Nat) :
    (block.times count).Carries text (Rounds body count) := by
  induction count with
  | zero => exact carries_jump
  | succ count ih =>
      cases count with
      | zero =>
          refine carries.imp ?_
          rintro m k ⟨_, once, rfl⟩
          exact once
      | succ count => exact carries.seq ih

theorem Carries.upTo (carries : block.Carries text body) (greedy : Bool) (count : Nat) :
    (block.upTo greedy count).Carries text fun m k => ∃ rounds ≤ count, Rounds body rounds m k := by
  induction count with
  | zero =>
      refine carries_jump.imp ?_
      rintro m k ⟨rounds, few, several⟩
      obtain rfl := Nat.le_zero.mp few
      exact several
  | succ count ih =>
      cases count with
      | zero => exact carries.optional greedy
      | succ count =>
          refine ((carries.seq ih).optional greedy).imp ?_
          rintro m k ⟨_ | rounds, few, several⟩
          · exact ⟨0, Nat.zero_le 1, several⟩
          · obtain ⟨l, inside, others⟩ := several
            exact ⟨1, Nat.le_refl 1, k, ⟨l, inside, rounds, Nat.le_of_succ_le_succ few, others⟩, rfl⟩

theorem Carries.rounds (carries : block.Carries text body) (movesOn : Bool) (least : Nat)
    (most : Option Nat) (greedy : Bool) :
    (rounds movesOn least most greedy block).Carries text fun m k =>
      ∃ count, least ≤ count ∧ (∀ bound ∈ most, count ≤ max least bound) ∧ Rounds body count m k := by
  have again := carries.again greedy
  unfold Block.rounds
  split
  · split
    · refine (carries.loop greedy).imp ?_
      rintro m k ⟨count, _, _, several⟩
      exact ⟨count, several⟩
    · refine (again.optional greedy).imp ?_
      rintro m k ⟨_ | count, _, _, several⟩
      · exact ⟨0, Nat.zero_le 1, several⟩
      · exact ⟨1, Nat.le_refl 1, k, ⟨count + 1, Nat.le_add_left 1 count, several⟩, rfl⟩
  · refine again.imp ?_
    rintro m k ⟨count, first, _, several⟩
    exact ⟨count, first, several⟩
  · next least _ =>
      refine ((carries.times least).seq again).imp ?_
      rintro m k ⟨count, enough, _, several⟩
      obtain ⟨more, rfl⟩ := Nat.exists_eq_add_of_le (Nat.le_of_succ_le enough)
      obtain ⟨l, before, behind⟩ := several.split
      exact ⟨l, before, more, by omega, behind⟩
  · next most =>
      refine (carries.upTo greedy most).imp ?_
      rintro m k ⟨count, _, bounded, several⟩
      have few := bounded most rfl
      exact ⟨count, by omega, several⟩
  · next most _ =>
      split
      · refine (carries.times least).imp ?_
        rintro m k ⟨count, enough, bounded, several⟩
        have few := bounded most rfl
        obtain rfl : count = least := by omega
        exact several
      · refine ((carries.times least).seq (carries.upTo greedy (most - least))).imp ?_
        rintro m k ⟨count, enough, bounded, several⟩
        have few := bounded most rfl
        obtain ⟨more, rfl⟩ := Nat.exists_eq_add_of_le enough
        obtain ⟨l, before, behind⟩ := several.split
        exact ⟨l, before, more, by omega, behind⟩

theorem Carries.group (carries : block.Carries text body) (number : Nat) :
    (group number block).Carries text fun m k =>
      ∃ l, body { m with marks := ⟨number, true, m.stop⟩ :: m.marks } l ∧
        k = { l with marks := ⟨number, false, l.stop⟩ :: l.marks } := by
  have mark (opens : Bool) : (one (.mark number opens)).Carries text fun m k =>
      k = { m with marks := ⟨number, opens, m.stop⟩ :: m.marks } := by
    rintro program here next has start m _ rfl path
    exact path.mark has.head
  refine ((mark true).seq (carries.seq (mark false))).imp ?_
  rintro m k ⟨l, inside, closed⟩
  exact ⟨_, rfl, l, inside, closed⟩

end Block

namespace Pattern

theorem carries_block (text : Array Char) (p : Pattern) : p.block.Carries text (p.Passes text) := by
  induction p with
  | empty => exact Block.carries_jump
  | char set =>
      rintro program here next has start m _ ⟨taken, rfl⟩ path
      obtain ⟨c, there, member⟩ := (Option.any_eq_true _ _).mp taken
      exact path.take has.head there member
  | check assertion =>
      rintro program here next has start m _ ⟨held, rfl⟩ path
      exact path.check has.head held
  | seq first second ih also => exact ih.seq also
  | alt first second ih also => exact ih.alt also
  | rounds least most greedy body ih => exact ih.rounds body.movesOn least most greedy
  | capture number name body ih => exact ih.group number

end Pattern

namespace Program

/-- The paths of a program end just where its pattern matches, as group zero. -/
theorem accepted_iff (p : Pattern) (text : Array Char) (start : Nat) (m : Match) :
    (ofPattern p).Accepted text start m ↔
      (Pattern.capture 0 none p).Passes text ⟨start, []⟩ m := by
  refine ⟨Accepted.passes, fun passes => ?_⟩
  let whole := Block.group 0 p.block
  have has : (ofPattern p).Has 0 (whole.code 0 whole.size ++ [.accept]) := has_all _
  have final := has.back.head
  rw [whole.length_code, Nat.zero_add] at final
  have carries : whole.Carries text ((Pattern.capture 0 none p).Passes text) :=
    (Pattern.carries_block text p).group 0
  exact ⟨whole.size, final, carries has.front passes .start⟩

/-- A pattern takes just what its own program can come to. -/
theorem takes_iff (p : Pattern) (text : Array Char) (start stop : Nat) :
    p.Takes text start stop ↔ ∃ marks, (ofPattern p).Accepted text start ⟨stop, marks⟩ := by
  constructor
  · rintro ⟨_, passes⟩
    rw [← p.renumber_zero] at passes
    obtain ⟨marks, inside⟩ := passes.of_renumber [⟨0, true, start⟩]
    exact ⟨_, (accepted_iff p text start _).mpr ⟨⟨stop, marks⟩, inside, rfl⟩⟩
  · rintro ⟨_, accepted⟩
    obtain ⟨l, inside, same⟩ := accepted.passes
    obtain ⟨rfl, _⟩ := Match.mk.inj same
    rw [← p.renumber_zero] at inside
    exact inside.takes

end Program

end Highlighting
