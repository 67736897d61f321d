import Highlighting.Proofs.Pattern.Paths
import Highlighting.Proofs.Pattern.Renumbering
import Highlighting.Proofs.Pattern.Ways

/-! # What patterns match

What a pattern can match is said for each kind of pattern by what its parts can match. Whatever the
program of a pattern comes to is a match in this sense, with the marks of its groups. The marks are made
by groups of the pattern, and what is matched does not depend on how the groups are numbered. -/
set_option autoImplicit false
namespace Highlighting

/-- So many rounds of a body, one after the other. -/
def Rounds (body : Match → Match → Prop) : Nat → Match → Match → Prop
  | 0, m, k => k = m
  | count + 1, m, k => ∃ l, body m l ∧ Rounds body count l k

namespace Rounds
variable {body : Match → Match → Prop} {m l k : Match} {count more : Nat}

theorem one (once : body m k) : Rounds body 1 m k :=
  ⟨k, once, rfl⟩

theorem append (before : Rounds body count m l) (behind : Rounds body more l k) :
    Rounds body (count + more) m k := by
  induction count generalizing m with
  | zero =>
      obtain rfl : l = m := before
      rw [Nat.zero_add]
      exact behind
  | succ count ih =>
      obtain ⟨between, first, rest⟩ := before
      rw [Nat.add_right_comm]
      exact ⟨between, first, ih rest⟩

/-- What every round keeps is kept by all of them. -/
theorem keeps (related : Match → Match → Prop) (refl : ∀ m, related m m)
    (trans : ∀ {m l k}, related m l → related l k → related m k)
    (each : ∀ {m k}, body m k → related m k) (rounds : Rounds body count m k) : related m k := by
  induction count generalizing m with
  | zero =>
      obtain rfl : k = m := rounds
      exact refl k
  | succ count ih =>
      obtain ⟨between, first, rest⟩ := rounds
      exact trans (each first) (ih rest)

end Rounds

namespace Pattern

/-- The pattern matches from where `m` ends to where `k` ends, with the marks of its groups added. -/
def Passes (text : Array Char) : Pattern → Match → Match → Prop
  | empty, m, k => k = m
  | char set, m, k => text[m.stop]?.any set.contains = true ∧ k = { m with stop := m.stop + 1 }
  | check assertion, m, k => assertion.holds text m.stop = true ∧ k = m
  | seq first second, m, k => ∃ l, first.Passes text m l ∧ second.Passes text l k
  | alt first second, m, k => first.Passes text m k ∨ second.Passes text m k
  | rounds least most _ body, m, k =>
      ∃ count, least ≤ count ∧ (∀ bound ∈ most, count ≤ max least bound) ∧
        Rounds (body.Passes text) count m k
  | capture number _ body, m, k =>
      ∃ l, body.Passes text { m with marks := ⟨number, true, m.stop⟩ :: m.marks } l ∧
        k = { l with marks := ⟨number, false, l.stop⟩ :: l.marks }

/-- The pattern matches the text between two places. -/
def Takes (text : Array Char) (p : Pattern) (start stop : Nat) : Prop :=
  ∃ marks, p.Passes text ⟨start, []⟩ ⟨stop, marks⟩

variable {text : Array Char} {p : Pattern} {m k : Match}

theorem Passes.stop_le (passes : p.Passes text m k) : m.stop ≤ k.stop := by
  induction p generalizing m k with
  | empty =>
      obtain rfl : k = m := passes
      exact Nat.le_refl _
  | char set =>
      obtain ⟨_, rfl⟩ := passes
      exact Nat.le_succ _
  | check assertion =>
      obtain ⟨_, rfl⟩ := passes
      exact Nat.le_refl _
  | seq first second ih also =>
      obtain ⟨l, before, behind⟩ := passes
      exact Nat.le_trans (ih before) (also behind)
  | alt first second ih also => exact passes.elim ih also
  | rounds least most greedy body ih =>
      obtain ⟨count, _, _, rounds⟩ := passes
      exact rounds.keeps (fun m k => m.stop ≤ k.stop) (fun _ => Nat.le_refl _) Nat.le_trans ih
  | capture number name body ih =>
      obtain ⟨l, inside, rfl⟩ := passes
      have forth := ih inside
      exact forth

/-- Every mark that is added is one of a group of the pattern. -/
theorem Passes.marks {holds : Nat → Option String → Prop} (every : p.Every holds)
    (passes : p.Passes text m k) :
    ∃ added, k.marks = added ++ m.marks ∧ ∀ mark ∈ added, ∃ name, holds mark.number name := by
  let Adds (m k : Match) := ∃ added, k.marks = added ++ m.marks ∧
    ∀ mark ∈ added, ∃ name, holds mark.number name
  have refl : ∀ m, Adds m m := fun m => ⟨[], rfl, List.forall_mem_nil _⟩
  have trans : ∀ {m l k}, Adds m l → Adds l k → Adds m k := by
    rintro m l k ⟨first, before, all⟩ ⟨second, behind, others⟩
    refine ⟨second ++ first, by rw [behind, before, List.append_assoc], ?_⟩
    intro mark member
    exact (List.mem_append.mp member).elim (others mark) (all mark)
  induction p generalizing m k with
  | empty =>
      obtain rfl : k = m := passes
      exact refl k
  | char set =>
      obtain ⟨_, rfl⟩ := passes
      exact refl m
  | check assertion =>
      obtain ⟨_, rfl⟩ := passes
      exact refl k
  | seq first second ih also =>
      obtain ⟨l, before, behind⟩ := passes
      exact trans (ih every.1 before) (also every.2 behind)
  | alt first second ih also => exact passes.elim (ih every.1) (also every.2)
  | rounds least most greedy body ih =>
      obtain ⟨count, _, _, rounds⟩ := passes
      exact rounds.keeps Adds refl trans (ih every)
  | capture number name body ih =>
      obtain ⟨l, inside, rfl⟩ := passes
      have mark (opens : Bool) (place stop : Nat) (marks : List Mark) :
          Adds ⟨stop, marks⟩ ⟨stop, ⟨number, opens, place⟩ :: marks⟩ := by
        refine ⟨[⟨number, opens, place⟩], rfl, ?_⟩
        intro mark member
        rw [List.mem_singleton.mp member]
        exact ⟨name, every.1⟩
      have opened : Adds m { m with marks := ⟨number, true, m.stop⟩ :: m.marks } := mark _ _ _ _
      exact trans (trans opened (ih every.2 inside)) (mark _ _ _ _)

/-- What is matched does not depend on the numbers of the groups, nor on what has been marked before. -/
theorem Passes.of_renumber {shift : Nat} (passes : (p.renumber shift).Passes text m k)
    (earlier : List Mark) : ∃ marks, p.Passes text ⟨m.stop, earlier⟩ ⟨k.stop, marks⟩ := by
  induction p generalizing m k earlier with
  | empty =>
      obtain rfl : k = m := passes
      exact ⟨earlier, rfl⟩
  | char set =>
      obtain ⟨taken, rfl⟩ := passes
      exact ⟨earlier, taken, rfl⟩
  | check assertion =>
      obtain ⟨held, rfl⟩ := passes
      exact ⟨earlier, held, rfl⟩
  | seq first second ih also =>
      obtain ⟨l, before, behind⟩ := passes
      obtain ⟨between, left⟩ := ih before earlier
      obtain ⟨marks, right⟩ := also behind between
      exact ⟨marks, _, left, right⟩
  | alt first second ih also =>
      rcases passes with left | right
      · exact (ih left earlier).imp fun _ => .inl
      · exact (also right earlier).imp fun _ => .inr
  | rounds least most greedy body ih =>
      obtain ⟨count, enough, bounded, rounds⟩ := passes
      -- The bounds are about the whole number of rounds, the induction takes them off one by one.
      have alike : ∃ marks, Rounds (body.Passes text) count ⟨m.stop, earlier⟩ ⟨k.stop, marks⟩ := by
        clear enough bounded
        induction count generalizing m earlier with
        | zero =>
            obtain rfl : k = m := rounds
            exact ⟨earlier, rfl⟩
        | succ count again =>
            obtain ⟨l, first, rest⟩ := rounds
            obtain ⟨between, here⟩ := ih first earlier
            obtain ⟨marks, others⟩ := again between rest
            exact ⟨marks, _, here, others⟩
      exact alike.imp fun _ rounds => ⟨count, enough, bounded, rounds⟩
  | capture number name body ih =>
      obtain ⟨l, inside, rfl⟩ := passes
      obtain ⟨marks, within⟩ := ih inside (⟨number, true, m.stop⟩ :: earlier)
      exact ⟨_, _, within, rfl⟩

theorem passes_seqs_cons {ps : List Pattern} :
    (seqs (p :: ps)).Passes text m k ↔ ∃ l, p.Passes text m l ∧ (seqs ps).Passes text l k := by
  cases ps with
  | nil =>
      constructor
      · exact fun passes => ⟨k, passes, rfl⟩
      · rintro ⟨_, passes, rfl⟩
        exact passes
  | cons q rest => exact Iff.rfl

theorem Passes.takes {shift : Nat} (passes : (p.renumber shift).Passes text m k) :
    p.Takes text m.stop k.stop :=
  passes.of_renumber []

end Pattern

/-! ## Walks through programs -/

/-- From `m`, the instruction leads to the one with this number, where `l` has been matched. -/
def Instruction.Moves (text : Array Char) (m l : Match) (index : Nat) : Instruction → Prop
  | take set next =>
      text[m.stop]?.any set.contains = true ∧ l = { m with stop := m.stop + 1 } ∧ index = next
  | check assertion next => assertion.holds text m.stop = true ∧ l = m ∧ index = next
  | fork first second => l = m ∧ (index = first ∨ index = second)
  | mark number opens next =>
      l = { m with marks := ⟨number, opens, m.stop⟩ :: m.marks } ∧ index = next
  | jump next => l = m ∧ index = next
  | accept => False

namespace Program

/-- From an instruction and from what has been matched, so many steps lead to a match. -/
inductive Walks (program : Program) (text : Array Char) (last : Match) : Nat → Nat → Match → Prop
  | accept {index : Nat} (code : program.code[index]? = some .accept) :
      Walks program text last 0 index last
  | step {count index next : Nat} {instruction : Instruction} {m l : Match}
      (code : program.code[index]? = some instruction) (moves : instruction.Moves text m l next)
      (onward : Walks program text last count next l) : Walks program text last (count + 1) index m

variable {program : Program} {text : Array Char} {start : Nat} {last m : Match} {count index : Nat}

/-- A path can be walked from its start, if one can walk on from its end. -/
theorem Path.walks {place : Nat} {thread : Thread} (path : program.Path text start place thread)
    (onward : program.Walks text last count thread.instruction ⟨place, thread.marks⟩) :
    ∃ steps, program.Walks text last steps 0 ⟨start, []⟩ := by
  induction path generalizing count with
  | start => exact ⟨count, onward⟩
  | take path code here member ih =>
      have taken := (Option.any_eq_true _ _).mpr ⟨_, here, member⟩
      exact ih (.step code ⟨taken, rfl, rfl⟩ onward)
  | check path code holds ih => exact ih (.step code ⟨holds, rfl, rfl⟩ onward)
  | first path code ih => exact ih (.step code ⟨rfl, .inl rfl⟩ onward)
  | second path code ih => exact ih (.step code ⟨rfl, .inr rfl⟩ onward)
  | mark path code ih => exact ih (.step code ⟨rfl, rfl⟩ onward)
  | jump path code ih => exact ih (.step code ⟨rfl, rfl⟩ onward)

theorem Accepted.walks (accepted : program.Accepted text start last) :
    ∃ steps, program.Walks text last steps 0 ⟨start, []⟩ := by
  obtain ⟨index, code, path⟩ := accepted
  exact path.walks (.accept code)

/-- A walk that has come to an instruction goes where it leads, unless it accepts. -/
theorem Walks.onward {instruction : Instruction} (walks : program.Walks text last count index m)
    (code : program.code[index]? = some instruction) (further : instruction ≠ .accept) :
    ∃ l next, ∃ fewer < count, instruction.Moves text m l next ∧
      program.Walks text last fewer next l := by
  cases walks with
  | accept accepts =>
      rw [code] at accepts
      exact absurd (Option.some.inj accepts) further
  | step here moves onward =>
      rw [code] at here
      obtain rfl := Option.some.inj here
      exact ⟨_, _, _, Nat.lt_succ_self _, moves, onward⟩

theorem Walks.ends (walks : program.Walks text last count index m)
    (code : program.code[index]? = some .accept) : m = last := by
  cases walks with
  | accept _ => rfl
  | step here moves onward =>
      rw [code] at here
      cases here
      exact moves.elim

end Program

namespace Block

/-- A walk that comes to the block comes out behind it, and the block leads from what was matched
before to what has been matched then. -/
def Yields (block : Block) (text : Array Char) (body : Match → Match → Prop) : Prop :=
  ∀ ⦃program : Program⦄ ⦃here next : Nat⦄, program.Has here (block.code here next) →
    ∀ ⦃last m : Match⦄ ⦃count : Nat⦄, program.Walks text last count here m →
      ∃ l, ∃ fewer < count, body m l ∧ program.Walks text last fewer next l

variable {text : Array Char} {body other : Match → Match → Prop} {block first second : Block}

theorem Yields.imp {weaker : Match → Match → Prop} (yields : block.Yields text body)
    (weaken : ∀ m k, body m k → weaker m k) : block.Yields text weaker := by
  intro program here next has last m count walks
  obtain ⟨l, fewer, less, inside, onward⟩ := yields has walks
  exact ⟨l, fewer, less, weaken m l inside, onward⟩

/-- One instruction that leads behind the block. -/
theorem yields_one {instruction : Nat → Instruction} (further : ∀ next, instruction next ≠ .accept)
    (moves : ∀ next m l index, (instruction next).Moves text m l index → body m l ∧ index = next) :
    (one instruction).Yields text body := by
  intro program here next has last m count walks
  obtain ⟨l, index, fewer, less, moved, onward⟩ := walks.onward has.head (further next)
  obtain ⟨inside, rfl⟩ := moves _ _ _ _ moved
  exact ⟨l, fewer, less, inside, onward⟩

theorem Yields.seq (yields : first.Yields text body) (also : second.Yields text other) :
    (first.seq second).Yields text fun m k => ∃ l, body m l ∧ other l k := by
  intro program here next has last m count walks
  have behind := has.back
  rw [first.length_code] at behind
  obtain ⟨l, fewer, less, inside, onward⟩ := yields has.front walks
  obtain ⟨k, fewest, lesser, outside, further⟩ := also behind onward
  exact ⟨k, fewest, Nat.lt_trans lesser less, ⟨l, inside, outside⟩, further⟩

theorem Yields.alt (yields : first.Yields text body) (also : second.Yields text other) :
    (first.alt second).Yields text fun m k => body m k ∨ other m k := by
  intro program here next has last m count walks
  have behind := has.tail.back
  rw [first.length_code] at behind
  obtain ⟨_, index, fewer, less, ⟨rfl, chosen⟩, onward⟩ := walks.onward has.head (nomatch ·)
  rcases chosen with rfl | rfl
  · obtain ⟨k, fewest, lesser, inside, further⟩ := yields has.tail.front onward
    exact ⟨k, fewest, Nat.lt_trans lesser less, .inl inside, further⟩
  · obtain ⟨k, fewest, lesser, inside, further⟩ := also behind onward
    exact ⟨k, fewest, Nat.lt_trans lesser less, .inr inside, further⟩

theorem yields_jump : (one .jump).Yields text fun m k => k = m :=
  yields_one (fun _ => nofun) fun _ _ _ _ moves => moves

theorem roundOr_moves {greedy : Bool} {round next index : Nat} {m l : Match} :
    (roundOr greedy round next).Moves text m l index → l = m ∧ (index = round ∨ index = next) := by
  intro moves
  cases greedy
  · exact ⟨moves.1, moves.2.symm⟩
  · exact moves

theorem roundOr_ne_accept (greedy : Bool) (round next : Nat) :
    roundOr greedy round next ≠ .accept := by
  cases greedy <;> nofun

theorem Yields.optional (yields : block.Yields text body) (greedy : Bool) :
    (block.optional greedy).Yields text fun m k => ∃ rounds ≤ 1, Rounds body rounds m k := by
  intro program here next has last m count walks
  obtain ⟨l, index, fewer, less, moves, onward⟩ := walks.onward has.head (roundOr_ne_accept _ _ _)
  obtain ⟨rfl, rfl | rfl⟩ := roundOr_moves moves
  · obtain ⟨k, fewest, lesser, inside, further⟩ := yields has.tail onward
    exact ⟨k, fewest, Nat.lt_trans lesser less, ⟨1, Nat.le_refl 1, .one inside⟩, further⟩
  · exact ⟨l, fewer, less, ⟨0, Nat.zero_le 1, rfl⟩, onward⟩

/-- A fork that the body leads back to makes some number of rounds. Each of them takes a step, so that
the walk comes out of the loop. -/
theorem walks_gate {program : Program} {gate round next : Nat} {greedy : Bool} {last : Match}
    (code : program.code[gate]? = some (roundOr greedy round next))
    (yields : ∀ {m : Match} {count : Nat}, program.Walks text last count round m →
      ∃ l, ∃ fewer < count, body m l ∧ program.Walks text last fewer gate l)
    {count : Nat} : ∀ {m : Match}, program.Walks text last count gate m →
      ∃ k, ∃ fewer < count, (∃ rounds, Rounds body rounds m k) ∧
        program.Walks text last fewer next k := by
  -- The induction is on the steps that are left, since the body leads back to the same fork.
  induction count using Nat.strongRecOn with
  | ind count ih =>
    intro m walks
    obtain ⟨l, index, fewer, less, moves, onward⟩ := walks.onward code (roundOr_ne_accept _ _ _)
    obtain ⟨rfl, rfl | rfl⟩ := roundOr_moves moves
    · obtain ⟨between, left, lesser, inside, back⟩ := yields onward
      obtain ⟨k, fewest, least, ⟨rounds, others⟩, further⟩ := ih left (Nat.lt_trans lesser less) back
      exact ⟨k, fewest, by omega, ⟨rounds + 1, between, inside, others⟩, further⟩
    · exact ⟨l, fewer, less, ⟨0, rfl⟩, onward⟩

theorem Yields.loop (yields : block.Yields text body) (greedy : Bool) :
    (block.loop greedy).Yields text fun m k => ∃ rounds, Rounds body rounds m k := by
  intro program here next has last m count walks
  exact walks_gate has.head (fun inside => yields has.tail inside) walks

theorem Yields.again (yields : block.Yields text body) (greedy : Bool) :
    (block.again greedy).Yields text fun m k => ∃ rounds, 1 ≤ rounds ∧ Rounds body rounds m k := by
  intro program here next has last m count walks
  have gate := has.back.head
  rw [block.length_code] at gate
  obtain ⟨l, fewer, less, inside, onward⟩ := yields has.front walks
  obtain ⟨k, fewest, lesser, ⟨rounds, others⟩, further⟩ :=
    walks_gate gate (fun inside => yields has.front inside) onward
  exact ⟨k, fewest, Nat.lt_trans lesser less, ⟨rounds + 1, Nat.le_add_left 1 rounds, l, inside, others⟩,
    further⟩

theorem Yields.times (yields : block.Yields text body) (count : Nat) :
    (block.times count).Yields text (Rounds body count) := by
  induction count with
  | zero => exact yields_jump
  | succ count ih =>
      cases count with
      | zero => exact yields.imp fun _ _ => .one
      | succ count => exact yields.seq ih

theorem Yields.upTo (yields : block.Yields text body) (greedy : Bool) (count : Nat) :
    (block.upTo greedy count).Yields text fun m k => ∃ rounds ≤ count, Rounds body rounds m k := by
  induction count with
  | zero => exact yields_jump.imp fun m k same => ⟨0, Nat.le_refl 0, same⟩
  | succ count ih =>
      cases count with
      | zero => exact yields.optional greedy
      | succ count =>
          refine ((yields.seq ih).optional greedy).imp ?_
          rintro m k ⟨_ | _ | rounds, few, once⟩
          · exact ⟨0, Nat.zero_le _, once⟩
          · obtain ⟨_, ⟨l, first, rounds, bounded, rest⟩, rfl⟩ := once
            exact ⟨rounds + 1, Nat.succ_le_succ bounded, l, first, rest⟩
          · omega

/-- So many rounds at least, and no more than the bound, if there is one. -/
theorem Yields.rounds (yields : block.Yields text body) (movesOn : Bool) (least : Nat) (most : Option Nat)
    (greedy : Bool) : (rounds movesOn least most greedy block).Yields text fun m k =>
      ∃ count, least ≤ count ∧ (∀ bound ∈ most, count ≤ max least bound) ∧ Rounds body count m k := by
  have again := yields.again greedy
  have free {count : Nat} : ∀ bound ∈ (none : Option Nat), count ≤ max least bound := nofun
  unfold Block.rounds
  split
  · split
    · refine (yields.loop greedy).imp ?_
      rintro m k ⟨count, several⟩
      exact ⟨count, Nat.zero_le _, free, several⟩
    · refine (again.optional greedy).imp ?_
      rintro m k ⟨_ | _ | rounds, few, once⟩
      · exact ⟨0, Nat.le_refl 0, free, once⟩
      · obtain ⟨_, ⟨count, _, several⟩, rfl⟩ := once
        exact ⟨count, Nat.zero_le _, free, several⟩
      · omega
  · refine again.imp ?_
    rintro m k ⟨count, first, several⟩
    exact ⟨count, first, free, several⟩
  · next least _ =>
      refine ((yields.times least).seq again).imp ?_
      rintro m k ⟨l, before, count, first, several⟩
      exact ⟨least + count, Nat.add_le_add_left first least, free, before.append several⟩
  · next most =>
      refine (yields.upTo greedy most).imp ?_
      rintro m k ⟨count, few, several⟩
      have bounded : ∀ bound ∈ some most, count ≤ max 0 bound := by
        rintro _ ⟨⟩
        omega
      exact ⟨count, Nat.zero_le count, bounded, several⟩
  · next most _ =>
      split
      · refine (yields.times least).imp fun m k several => ?_
        have bounded : ∀ bound ∈ some most, least ≤ max least bound := fun bound _ =>
          Nat.le_max_left least bound
        exact ⟨least, Nat.le_refl least, bounded, several⟩
      · next more =>
          refine ((yields.times least).seq (yields.upTo greedy (most - least))).imp ?_
          rintro m k ⟨l, before, count, few, several⟩
          have bounded : ∀ bound ∈ some most, least + count ≤ max least bound := by
            rintro _ ⟨⟩
            omega
          exact ⟨least + count, Nat.le_add_right _ _, bounded, before.append several⟩

theorem Yields.group (yields : block.Yields text body) (number : Nat) :
    (group number block).Yields text fun m k =>
      ∃ l, body { m with marks := ⟨number, true, m.stop⟩ :: m.marks } l ∧
        k = { l with marks := ⟨number, false, l.stop⟩ :: l.marks } := by
  have mark (opens : Bool) : (one (.mark number opens)).Yields text fun m k =>
      k = { m with marks := ⟨number, opens, m.stop⟩ :: m.marks } :=
    yields_one (fun _ => nofun) fun _ _ _ _ moves => moves
  refine ((mark true).seq (yields.seq (mark false))).imp ?_
  rintro m k ⟨_, rfl, l, inside, closed⟩
  exact ⟨l, inside, closed⟩

end Block

namespace Pattern

/-- The block of a pattern leads wherever the pattern matches to. -/
theorem yields_block (text : Array Char) (p : Pattern) : p.block.Yields text (p.Passes text) := by
  induction p with
  | empty => exact Block.yields_jump
  | char set =>
      refine Block.yields_one (fun _ => nofun) ?_
      rintro next m l index ⟨taken, moved, behind⟩
      exact ⟨⟨taken, moved⟩, behind⟩
  | check assertion =>
      refine Block.yields_one (fun _ => nofun) ?_
      rintro next m l index ⟨held, stays, behind⟩
      exact ⟨⟨held, stays⟩, behind⟩
  | seq first second ih also => exact ih.seq also
  | alt first second ih also => exact ih.alt also
  | rounds least most greedy body ih => exact ih.rounds body.movesOn least most greedy
  | capture number name body ih => exact ih.group number

end Pattern

namespace Program

/-- Where a path comes to the end of the program of a pattern, the pattern matches, as group zero. -/
theorem Accepted.passes {p : Pattern} {text : Array Char} {start : Nat} {last : Match}
    (accepted : (ofPattern p).Accepted text start last) :
    (Pattern.capture 0 none p).Passes text ⟨start, []⟩ last := by
  let whole := Block.group 0 p.block
  have has : (ofPattern p).Has 0 (whole.code 0 whole.size ++ [.accept]) := has_all _
  have final := has.back.head
  rw [whole.length_code, Nat.zero_add] at final
  have yields : whole.Yields text ((Pattern.capture 0 none p).Passes text) :=
    (Pattern.yields_block text p).group 0
  obtain ⟨steps, walks⟩ := accepted.walks
  obtain ⟨l, _, _, passes, onward⟩ := yields has.front walks
  rwa [onward.ends final] at passes

end Program

end Highlighting
