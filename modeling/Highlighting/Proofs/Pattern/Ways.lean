import Highlighting.Proofs.Pattern.Preference

/-! # The ways of a pattern

A pattern can match at a place in several ways, which are listed here with the preferred one first. The
program of a pattern comes to the first of them, if every loop without bounds has a body that always
takes a character. -/
set_option autoImplicit false
namespace Highlighting

/-- How a match can go on, the preferred way first. -/
abbrev Ways := Match → List Match

theorem findSome?_flatMap {first second third : Type} (f : first → List second)
    (g : second → Option third) (xs : List first) :
    (xs.flatMap f).findSome? g = xs.findSome? fun x => (f x).findSome? g := by
  induction xs with
  | nil => rfl
  | cons x rest ih =>
      rw [List.flatMap_cons, List.findSome?_append, ih, List.findSome?_cons]
      cases (f x).findSome? g <;> rfl

namespace Ways

/-- The ways of so many rounds. -/
def times (body : Ways) : Nat → Ways
  | 0, m => [m]
  | count + 1, m => (body m).flatMap (body.times count)

/-- The ways of one more round, or of none. -/
def orElse (greedy : Bool) (round : List Match) (m : Match) : List Match :=
  if greedy then round ++ [m] else m :: round

/-- The ways of so many rounds or fewer. -/
def upTo (greedy : Bool) (body : Ways) : Nat → Ways
  | 0, m => [m]
  | count + 1, m => orElse greedy ((body m).flatMap (upTo greedy body count)) m

variable {body : Ways} {R : Match → Match → Prop}

theorem times_one (body : Ways) (m : Match) : body.times 1 m = body m :=
  List.flatMap_singleton' (body m)

theorem times_last (body : Ways) (count : Nat) :
    ∀ m, body.times (count + 1) m = (body.times count m).flatMap body := by
  induction count with
  | zero =>
      intro m
      rw [times_one]
      exact (List.flatMap_singleton body m).symm
  | succ count ih =>
      intro m
      calc body.times (count + 2) m
        _ = (body m).flatMap (body.times (count + 1)) := rfl
        _ = (body m).flatMap fun k => (body.times count k).flatMap body := by rw [funext ih]
        _ = (body.times (count + 1) m).flatMap body := List.flatMap_assoc.symm

theorem flatMap_upTo_zero (greedy : Bool) (body : Ways) (ms : List Match) :
    ms.flatMap (body.upTo greedy 0) = ms :=
  List.flatMap_singleton' ms

theorem mem_orElse {greedy : Bool} {round : List Match} {m k : Match} :
    k ∈ orElse greedy round m ↔ k ∈ round ∨ k = m := by
  cases greedy
  · exact List.mem_cons.trans or_comm
  · exact List.mem_append.trans (or_congr_right List.mem_singleton)

theorem times_stop {least : Nat} (each : ∀ m, ∀ k ∈ body m, m.stop + least ≤ k.stop) (count : Nat) :
    ∀ m, ∀ k ∈ body.times count m, m.stop + count * least ≤ k.stop := by
  induction count with
  | zero =>
      intro m k member
      rw [List.mem_singleton.mp member, Nat.zero_mul]
      exact Nat.le_refl _
  | succ count ih =>
      intro m k member
      obtain ⟨between, first, rest⟩ := List.mem_flatMap.mp member
      have once := each m between first
      have others := ih between k rest
      rw [Nat.succ_mul]
      omega

theorem mem_times (refl : ∀ m, R m m) (trans : ∀ {m k l}, R m k → R k l → R m l)
    (each : ∀ m, ∀ k ∈ body m, R m k) (count : Nat) :
    ∀ m, ∀ k ∈ body.times count m, R m k := by
  induction count with
  | zero =>
      intro m k member
      rw [List.mem_singleton.mp member]
      exact refl m
  | succ count ih =>
      intro m k member
      obtain ⟨between, first, rest⟩ := List.mem_flatMap.mp member
      exact trans (each m between first) (ih between k rest)

theorem mem_upTo (refl : ∀ m, R m m) (trans : ∀ {m k l}, R m k → R k l → R m l)
    (each : ∀ m, ∀ k ∈ body m, R m k) (greedy : Bool) (count : Nat) :
    ∀ m, ∀ k ∈ body.upTo greedy count m, R m k := by
  induction count with
  | zero =>
      intro m k member
      rw [List.mem_singleton.mp member]
      exact refl m
  | succ count ih =>
      intro m k member
      rcases mem_orElse.mp member with further | rfl
      · obtain ⟨between, first, rest⟩ := List.mem_flatMap.mp further
        exact trans (each m between first) (ih between k rest)
      · exact refl k

end Ways

namespace Pattern

/-- The ways in which the pattern can go on from a match, up to the limit. -/
def ways (text : Array Char) (limit : Nat) : Pattern → Ways
  | empty, m => [m]
  | char set, m =>
      if m.stop < limit ∧ text[m.stop]?.any set.contains = true then [{ m with stop := m.stop + 1 }]
      else []
  | check assertion, m => if assertion.holds text m.stop then [m] else []
  | seq first second, m => (first.ways text limit m).flatMap (second.ways text limit)
  | alt first second, m => first.ways text limit m ++ second.ways text limit m
  | rounds least most greedy body, m =>
      (Ways.times (body.ways text limit) least m).flatMap fun k =>
        Ways.upTo greedy (body.ways text limit) (most.elim (limit - k.stop) (· - least)) k
  | capture number _ body, m =>
      (body.ways text limit { m with marks := ⟨number, true, m.stop⟩ :: m.marks }).map fun k =>
        { k with marks := ⟨number, false, k.stop⟩ :: k.marks }

/-- Whether every loop without bounds has a body that always takes a character. -/
def isSteady : Pattern → Bool
  | empty | char _ | check _ => true
  | seq first second | alt first second => first.isSteady && second.isSteady
  | rounds _ most _ body => (most.isSome || body.movesOn) && body.isSteady
  | capture _ _ body => body.isSteady

variable {text : Array Char} {limit : Nat} {m k : Match}

/-- No way leads beyond the limit. -/
theorem ways_stop_le (p : Pattern) : ∀ m, ∀ k ∈ p.ways text limit m, k.stop ≤ max m.stop limit := by
  induction p with
  | empty =>
      intro m k member
      rw [List.mem_singleton.mp member]
      exact Nat.le_max_left _ _
  | char set =>
      intro m k member
      rw [ways] at member
      split at member
      · next taken =>
          rw [List.mem_singleton.mp member]
          exact Nat.le_trans taken.1 (Nat.le_max_right _ _)
      · exact nomatch member
  | check assertion =>
      intro m k member
      rw [ways] at member
      split at member
      · rw [List.mem_singleton.mp member]
        exact Nat.le_max_left _ _
      · exact nomatch member
  | seq first second ih also =>
      intro m k member
      obtain ⟨between, earlier, later⟩ := List.mem_flatMap.mp member
      have := ih m between earlier
      have := also between k later
      omega
  | alt first second ih also =>
      intro m k member
      rcases List.mem_append.mp member with preferred | other
      · exact ih m k preferred
      · exact also m k other
  | rounds least most greedy body ih =>
      intro m k member
      let Within (m k : Match) := k.stop ≤ max m.stop limit
      have refl : ∀ m, Within m m := fun m => Nat.le_max_left _ _
      have trans : ∀ {m k l}, Within m k → Within k l → Within m l := by
        intro m k l first second
        simp only [Within] at first second ⊢
        omega
      obtain ⟨between, earlier, later⟩ := List.mem_flatMap.mp member
      exact trans (Ways.mem_times (R := Within) refl trans ih _ m between earlier)
        (Ways.mem_upTo (R := Within) refl trans ih _ _ between k later)
  | capture number name body ih =>
      intro m k member
      obtain ⟨inner, inside, rfl⟩ := List.mem_map.mp member
      exact ih { m with marks := ⟨number, true, m.stop⟩ :: m.marks } inner inside

/-- A way takes as many characters as the pattern takes at least. -/
theorem ways_fewest (p : Pattern) :
    ∀ m, ∀ k ∈ p.ways text limit m, m.stop + p.fewest?.getD 0 ≤ k.stop := by
  induction p with
  | empty =>
      intro m k member
      exact Nat.le_of_eq (congrArg Match.stop (List.mem_singleton.mp member).symm)
  | char set =>
      intro m k member
      rw [ways] at member
      split at member
      · rw [List.mem_singleton.mp member, fewest?]
        split <;> exact Nat.add_le_add_left (by decide) _
      · exact nomatch member
  | check assertion =>
      intro m k member
      rw [ways] at member
      split at member
      · exact Nat.le_of_eq (congrArg Match.stop (List.mem_singleton.mp member).symm)
      · exact nomatch member
  | seq first second ih also =>
      intro m k member
      obtain ⟨between, earlier, later⟩ := List.mem_flatMap.mp member
      have earlier := ih m between earlier
      have later := also between k later
      cases left : first.fewest? <;> cases right : second.fewest? <;>
        simp only [fewest?, left, right, Option.bind_none, Option.bind_some, Option.map_none,
          Option.map_some, Option.getD_none, Option.getD_some] at earlier later ⊢ <;>
        omega
  | alt first second ih also =>
      intro m k member
      have chosen : m.stop + first.fewest?.getD 0 ≤ k.stop ∨ m.stop + second.fewest?.getD 0 ≤ k.stop :=
        (List.mem_append.mp member).imp (ih m k) (also m k)
      cases left : first.fewest? <;> cases right : second.fewest? <;>
        simp only [fewest?, left, right, Option.bind_none, Option.bind_some, Option.map_none,
          Option.map_some, Option.getD_none, Option.getD_some] at chosen ⊢ <;>
        omega
  | rounds least most greedy body ih =>
      intro m k member
      have forth : ∀ m, ∀ k ∈ body.ways text limit m, m.stop ≤ k.stop :=
        fun m k inside => Nat.le_trans (Nat.le_add_right _ _) (ih m k inside)
      obtain ⟨between, earlier, later⟩ := List.mem_flatMap.mp member
      have earlier := Ways.times_stop ih least m between earlier
      have later := Ways.mem_upTo (R := fun m k => m.stop ≤ k.stop) (fun _ => Nat.le_refl _)
        Nat.le_trans forth _ _ between k later
      have whole : (rounds least most greedy body).fewest?.getD 0 = least * body.fewest?.getD 0 := by
        cases fewest : body.fewest? <;> simp [fewest?, fewest]
      rw [whole]
      exact Nat.le_trans earlier later
  | capture number name body ih =>
      intro m k member
      obtain ⟨inner, inside, rfl⟩ := List.mem_map.mp member
      exact ih { m with marks := ⟨number, true, m.stop⟩ :: m.marks } inner inside

theorem ways_movesOn {p : Pattern} (moves : p.movesOn = true) :
    ∀ m, ∀ k ∈ p.ways text limit m, m.stop < k.stop := by
  intro m k member
  have taken := p.ways_fewest m k member
  cases fewest : p.fewest? with
  | none =>
      rw [movesOn, fewest] at moves
      exact nomatch moves
  | some least =>
      rw [movesOn, fewest] at moves
      have positive : 0 < least := of_decide_eq_true moves
      rw [fewest, Option.getD_some] at taken
      omega

end Pattern

/-! ## The instructions of blocks -/

namespace Program
variable {program : Program} {here : Nat}

/-- The program has these instructions from there on. -/
def Has (program : Program) (here : Nat) (code : List Instruction) : Prop :=
  ∀ index < code.length, program.code[here + index]? = code[index]?

theorem Has.head {instruction : Instruction} {rest : List Instruction}
    (has : program.Has here (instruction :: rest)) : program.code[here]? = some instruction :=
  has 0 (Nat.zero_lt_succ _)

theorem Has.front {code behind : List Instruction} (has : program.Has here (code ++ behind)) :
    program.Has here code := by
  intro index inside
  rw [has index (by rw [List.length_append]; omega), List.getElem?_append_left inside]

theorem Has.back {code behind : List Instruction} (has : program.Has here (code ++ behind)) :
    program.Has (here + code.length) behind := by
  intro index inside
  have there := has (code.length + index) (by rw [List.length_append]; omega)
  rwa [← Nat.add_assoc, List.getElem?_append_right (Nat.le_add_right _ _), Nat.add_sub_cancel_left]
    at there

theorem Has.tail {instruction : Instruction} {rest : List Instruction}
    (has : program.Has here ([instruction] ++ rest)) : program.Has (here + 1) rest :=
  has.back

end Program

/-! ## The ways of blocks -/

namespace Block

/-- Wherever the block stands in a program, it leads where these ways lead behind it. -/
def Goes (block : Block) (text : Array Char) (limit : Nat) (ways : Ways) : Prop :=
  ∀ ⦃program : Program⦄ ⦃here next : Nat⦄, program.Has here (block.code here next) →
    ∀ ⦃m : Match⦄ ⦃leads : Match → Option Match⦄,
      (∀ k ∈ ways m, program.Leads text limit next k (leads k)) →
        program.Leads text limit here m ((ways m).findSome? leads)

variable {text : Array Char} {limit : Nat} {body first second : Block} {ways others : Ways}
  {program : Program} {m : Match} {leads : Match → Option Match}

theorem goes_jump : (one .jump).Goes text limit fun m => [m] := by
  intro program here next has m leads onward
  rw [List.findSome?_singleton]
  exact .jump has.head (onward m List.mem_cons_self)

theorem goes_take (set : CharSet) :
    (one (.take set)).Goes text limit ((Pattern.char set).ways text limit) := by
  intro program here next has m leads onward
  rw [Pattern.ways] at onward ⊢
  split at onward
  · next taken =>
      obtain ⟨c, there, member⟩ := (Option.any_eq_true _ _).mp taken.2
      rw [if_pos taken, List.findSome?_singleton]
      exact .take has.head taken.1 there member (onward _ List.mem_cons_self)
  · next stays =>
      rw [if_neg stays]
      refine .stuck has.head fun c within there => ?_
      rw [← Bool.not_eq_true]
      intro member
      exact stays ⟨within, (Option.any_eq_true _ _).mpr ⟨c, there, member⟩⟩

theorem goes_check (assertion : Assertion) :
    (one (.check assertion)).Goes text limit ((Pattern.check assertion).ways text limit) := by
  intro program here next has m leads onward
  rw [Pattern.ways] at onward ⊢
  split at onward
  · next holds =>
      rw [if_pos holds, List.findSome?_singleton]
      exact .check has.head holds (onward m List.mem_cons_self)
  · next fails =>
      rw [if_neg fails]
      exact .fails has.head (eq_false_of_ne_true fails)

theorem Goes.seq (goes : first.Goes text limit ways) (also : second.Goes text limit others) :
    (first.seq second).Goes text limit fun m => (ways m).flatMap others := by
  intro program here next has m leads onward
  have behind := has.back
  rw [first.length_code] at behind
  rw [findSome?_flatMap]
  refine goes has.front fun k member => also behind fun l further => onward l ?_
  exact List.mem_flatMap.mpr ⟨k, member, further⟩

theorem Goes.alt (goes : first.Goes text limit ways) (also : second.Goes text limit others) :
    (first.alt second).Goes text limit fun m => ways m ++ others m := by
  intro program here next has m leads onward
  have behind := has.tail.back
  rw [first.length_code] at behind
  rw [List.findSome?_append]
  refine .fork has.head (goes has.tail.front fun k member => ?_) (also behind fun k member => ?_)
  · exact onward k (List.mem_append_left _ member)
  · exact onward k (List.mem_append_right _ member)

theorem leads_roundOr {gate round next : Nat} {greedy : Bool} {rounds : List Match}
    (code : program.code[gate]? = some (roundOr greedy round next))
    (again : program.Leads text limit round m (rounds.findSome? leads))
    (out : program.Leads text limit next m (leads m)) :
    program.Leads text limit gate m ((Ways.orElse greedy rounds m).findSome? leads) := by
  cases greedy with
  | true =>
      have forked := Program.Leads.fork code again out
      rw [← List.findSome?_singleton (f := leads), ← List.findSome?_append] at forked
      exact forked
  | false =>
      have forked := Program.Leads.fork code out again
      rw [← List.findSome?_singleton (f := leads), ← List.findSome?_append] at forked
      exact forked

theorem Goes.optional (goes : body.Goes text limit ways) (greedy : Bool) :
    (body.optional greedy).Goes text limit fun m => Ways.orElse greedy (ways m) m := by
  intro program here next has m leads onward
  refine leads_roundOr has.head (goes has.tail fun k member => ?_) ?_
  · exact onward k (Ways.mem_orElse.mpr (.inl member))
  · exact onward m (Ways.mem_orElse.mpr (.inr rfl))

theorem Goes.times (goes : body.Goes text limit ways) (count : Nat) :
    (body.times count).Goes text limit (Ways.times ways count) := by
  induction count with
  | zero => exact goes_jump
  | succ count ih =>
      cases count with
      | zero =>
          rw [funext (Ways.times_one ways)]
          exact goes
      | succ count => exact goes.seq ih

theorem Goes.upTo (goes : body.Goes text limit ways) (greedy : Bool) (count : Nat) :
    (body.upTo greedy count).Goes text limit (Ways.upTo greedy ways count) := by
  induction count with
  | zero => exact goes_jump
  | succ count ih =>
      cases count with
      | zero =>
          have once : Ways.upTo greedy ways 1 = fun m => Ways.orElse greedy (ways m) m :=
            funext fun m => congrArg (Ways.orElse greedy · m) (List.flatMap_singleton' (ways m))
          rw [once]
          exact goes.optional greedy
      | succ count => exact (goes.seq ih).optional greedy

/-- Each way takes a character at least, and none leads beyond the limit. -/
def Moving (limit : Nat) (ways : Ways) : Prop :=
  ∀ m, ∀ k ∈ ways m, m.stop < k.stop ∧ k.stop ≤ max m.stop limit

/-- A fork that a body leads back to makes as many rounds as there are characters, and no more. -/
theorem leads_loop {gate round next : Nat} {greedy : Bool} (moving : Moving limit ways)
    (code : program.code[gate]? = some (roundOr greedy round next))
    (goes : ∀ ⦃m : Match⦄ ⦃leads : Match → Option Match⦄,
      (∀ k ∈ ways m, program.Leads text limit gate k (leads k)) →
        program.Leads text limit round m ((ways m).findSome? leads)) (count : Nat) :
    ∀ {m : Match}, limit - m.stop ≤ count →
      (∀ k ∈ Ways.upTo greedy ways count m, program.Leads text limit next k (leads k)) →
        program.Leads text limit gate m ((Ways.upTo greedy ways count m).findSome? leads) := by
  induction count with
  | zero =>
      intro m ended onward
      have none : ways m = [] := by
        rw [List.eq_nil_iff_forall_not_mem]
        intro k member
        have := moving m k member
        omega
      have last : Ways.upTo greedy ways 0 m = Ways.orElse greedy [] m := by cases greedy <;> rfl
      rw [last]
      refine leads_roundOr code ?_ (onward m List.mem_cons_self)
      have stuck := @goes m leads
      rw [none] at stuck
      exact stuck (List.forall_mem_nil _)
  | succ count ih =>
      intro m left onward
      refine leads_roundOr code ?_ (onward m (Ways.mem_orElse.mpr (.inr rfl)))
      rw [findSome?_flatMap]
      refine goes fun k member => ih ?_ fun l further => onward l (Ways.mem_orElse.mpr (.inl ?_))
      · have := moving m k member
        omega
      · exact List.mem_flatMap.mpr ⟨k, member, further⟩

theorem Goes.loop (goes : body.Goes text limit ways) (moving : Moving limit ways) (greedy : Bool) :
    (body.loop greedy).Goes text limit fun m => Ways.upTo greedy ways (limit - m.stop) m := by
  intro program here next has m leads onward
  exact leads_loop moving has.head (goes has.tail) _ (Nat.le_refl _) onward

theorem Goes.again (goes : body.Goes text limit ways) (moving : Moving limit ways) (greedy : Bool) :
    (body.again greedy).Goes text limit fun m =>
      (ways m).flatMap fun k => Ways.upTo greedy ways (limit - k.stop) k := by
  intro program here next has m leads onward
  have gate := has.back.head
  rw [body.length_code] at gate
  rw [findSome?_flatMap]
  refine goes has.front fun k member => ?_
  refine leads_loop moving gate (goes has.front) _ (Nat.le_refl _) fun l further => onward l ?_
  exact List.mem_flatMap.mpr ⟨k, member, further⟩

theorem Goes.group (goes : body.Goes text limit ways) (number : Nat) :
    (group number body).Goes text limit fun m =>
      (ways { m with marks := ⟨number, true, m.stop⟩ :: m.marks }).map fun k =>
        { k with marks := ⟨number, false, k.stop⟩ :: k.marks } := by
  intro program here next has m leads onward
  have inner := has.back
  have last := inner.back.head
  rw [body.length_code] at last
  rw [List.findSome?_map]
  refine .mark has.front.head (goes inner.front fun k member => ?_)
  exact .mark last (onward _ (List.mem_map.mpr ⟨k, member, rfl⟩))

theorem Goes.rounds (goes : body.Goes text limit ways) (least : Nat) (most : Option Nat) (greedy : Bool)
    (moving : most = none → Moving limit ways) {movesOn : Bool} (moves : most = none → movesOn = true) :
    (rounds movesOn least most greedy body).Goes text limit fun m =>
      (Ways.times ways least m).flatMap fun k =>
        Ways.upTo greedy ways (most.elim (limit - k.stop) (· - least)) k := by
  cases most with
  | none =>
      have again := goes.again (moving rfl) greedy
      match least with
      | 0 =>
          rw [Block.rounds, if_pos (moves rfl)]
          have none : ∀ m, (Ways.times ways 0 m).flatMap
              (fun k => Ways.upTo greedy ways (limit - k.stop) k) =
                Ways.upTo greedy ways (limit - m.stop) m := fun m => List.flatMap_singleton _ m
          simp only [Option.elim_none, none]
          exact goes.loop (moving rfl) greedy
      | 1 =>
          simp only [Option.elim_none, Ways.times_one]
          exact again
      | least + 2 =>
          have several := (goes.times (least + 1)).seq again
          simp only [← List.flatMap_assoc, ← Ways.times_last] at several
          exact several
  | some most =>
      cases least with
      | zero =>
          have none : ∀ m, (Ways.times ways 0 m).flatMap (Ways.upTo greedy ways (most - 0)) =
              Ways.upTo greedy ways most m := fun m => List.flatMap_singleton _ m
          simp only [Option.elim_some, none]
          exact goes.upTo greedy most
      | succ least =>
          simp only [Block.rounds]
          split
          · next few =>
              have exactly : most - (least + 1) = 0 := Nat.sub_eq_zero_of_le few
              simp only [Option.elim_some, exactly, Ways.flatMap_upTo_zero]
              exact goes.times (least + 1)
          · exact (goes.times (least + 1)).seq (goes.upTo greedy (most - (least + 1)))

end Block

namespace Pattern

theorem isSteady.goes {p : Pattern} (steady : p.isSteady = true) (text : Array Char) (limit : Nat) :
    p.block.Goes text limit (p.ways text limit) := by
  induction p with
  | empty => exact Block.goes_jump
  | char set => exact Block.goes_take set
  | check assertion => exact Block.goes_check assertion
  | seq first second ih also =>
      obtain ⟨left, right⟩ := Bool.and_eq_true_iff.mp steady
      exact (ih left).seq (also right)
  | alt first second ih also =>
      obtain ⟨left, right⟩ := Bool.and_eq_true_iff.mp steady
      exact (ih left).alt (also right)
  | rounds least most greedy body ih =>
      obtain ⟨bounded, inner⟩ := Bool.and_eq_true_iff.mp steady
      have moves : most = none → body.movesOn = true := by
        rintro rfl
        exact bounded
      refine (ih inner).rounds least most greedy (fun unbounded m k member => ⟨?_, ?_⟩) moves
      · exact ways_movesOn (moves unbounded) m k member
      · exact body.ways_stop_le m k member
  | capture number name body ih => exact (ih steady).group number

end Pattern

namespace Program

theorem has_all (code : List Instruction) : Has ⟨code.toArray⟩ 0 code := by
  intro index _
  rw [Nat.zero_add, List.getElem?_toArray]

/-- A program matches in the first way of its pattern. -/
theorem match?_ofPattern {p : Pattern} (steady : p.isSteady = true) (text : Array Char)
    (place limit : Nat) :
    (ofPattern p).match? text place limit =
      ((Pattern.capture 0 none p).ways text limit ⟨place, []⟩).head? := by
  let whole := Block.group 0 p.block
  have has : (ofPattern p).Has 0 (whole.code 0 whole.size ++ [.accept]) := has_all _
  have last := has.back.head
  rw [whole.length_code, Nat.zero_add] at last
  have goes : whole.Goes text limit ((Pattern.capture 0 none p).ways text limit) :=
    (Pattern.isSteady.goes steady text limit).group 0
  have leads := goes has.front (m := ⟨place, []⟩) fun k _ => .accept last
  rw [match?_of_leads leads]
  cases (Pattern.capture 0 none p).ways text limit ⟨place, []⟩ <;> rfl

/-- Where the match of a program ends does not depend on the marks around its pattern. -/
theorem stop?_ofPattern {p : Pattern} (steady : p.isSteady = true) (text : Array Char)
    (place limit : Nat) :
    (ofPattern p).stop? text place limit =
      (p.ways text limit ⟨place, [⟨0, true, place⟩]⟩).head?.map (·.stop) := by
  rw [stop?, match?_ofPattern steady, Pattern.ways, List.head?_map, Option.map_map]
  rfl

end Program

end Highlighting
