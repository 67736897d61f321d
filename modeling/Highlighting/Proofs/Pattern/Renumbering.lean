import Highlighting.Pattern.Simple

/-! # Renumbered groups

Inside a larger pattern the capturing groups of a pattern have other numbers, all of them higher by the
number of groups that open before. Simple forms do not depend on the numbers: putting renumbered patterns
together gives what is put together, renumbered. Nor do they make up groups of their own. -/
set_option autoImplicit false
namespace Highlighting.Pattern

/-- What holds of the number and the name of every capturing group. -/
def Every (holds : Nat → Option String → Prop) : Pattern → Prop
  | empty | char _ | check _ => True
  | seq first second | alt first second => first.Every holds ∧ second.Every holds
  | rounds _ _ _ body => body.Every holds
  | capture number name body => holds number name ∧ body.Every holds

/-- Adds `shift` to the numbers of all capturing groups. -/
def renumber (shift : Nat) : Pattern → Pattern
  | empty => empty
  | char set => char set
  | check assertion => check assertion
  | seq first second => seq (first.renumber shift) (second.renumber shift)
  | alt first second => alt (first.renumber shift) (second.renumber shift)
  | rounds least most greedy body => rounds least most greedy (body.renumber shift)
  | capture number name body => capture (number + shift) name (body.renumber shift)

variable {holds : Nat → Option String → Prop} {shift : Nat}

theorem Every.imp {weaker : Nat → Option String → Prop} {p : Pattern} (every : p.Every holds)
    (weaken : ∀ number name, holds number name → weaker number name) : p.Every weaker := by
  induction p with
  | empty | char | check => trivial
  | seq first second ih also => exact ⟨ih every.1, also every.2⟩
  | alt first second ih also => exact ⟨ih every.1, also every.2⟩
  | rounds least most greedy body ih => exact ih every
  | capture number name body ih => exact ⟨weaken _ _ every.1, ih every.2⟩

theorem Every.renumber {p : Pattern} (every : p.Every fun number => holds (number + shift)) :
    (p.renumber shift).Every holds := by
  induction p with
  | empty | char | check => trivial
  | seq first second ih also => exact ⟨ih every.1, also every.2⟩
  | alt first second ih also => exact ⟨ih every.1, also every.2⟩
  | rounds least most greedy body ih => exact ih every
  | capture number name body ih => exact ⟨every.1, ih every.2⟩

theorem renumber_zero (p : Pattern) : p.renumber 0 = p := by
  induction p with
  | empty | char | check => rfl
  | seq first second ih also => rw [renumber, ih, also]
  | alt first second ih also => rw [renumber, ih, also]
  | rounds least most greedy body ih => rw [renumber, ih]
  | capture number name body ih => rw [renumber, ih, Nat.add_zero]

theorem renumber_injective (shift : Nat) : Function.Injective (renumber shift) := by
  intro p
  induction p with
  | empty | char | check =>
      intro q same
      cases q <;> cases same
      rfl
  | seq first second ih also =>
      intro q same
      cases q <;> simp only [renumber, reduceCtorEq, seq.injEq] at same
      rw [ih same.1, also same.2]
  | alt first second ih also =>
      intro q same
      cases q <;> simp only [renumber, reduceCtorEq, alt.injEq] at same
      rw [ih same.1, also same.2]
  | rounds least most greedy body ih =>
      intro q same
      cases q <;> simp only [renumber, reduceCtorEq, rounds.injEq] at same
      obtain ⟨rfl, rfl, rfl, inner⟩ := same
      rw [ih inner]
  | capture number name body ih =>
      intro q same
      cases q <;> simp only [renumber, reduceCtorEq, capture.injEq, Nat.add_right_cancel_iff] at same
      obtain ⟨rfl, rfl, inner⟩ := same
      rw [ih inner]

/-! ## Sequences and choices -/

theorem members_renumber (p : Pattern) :
    (p.renumber shift).members = p.members.map (renumber shift) := by
  induction p with
  | seq first second ih also => simp only [renumber, members, ih, also, List.map_append]
  | _ => rfl

theorem choices_renumber (p : Pattern) :
    (p.renumber shift).choices = p.choices.map (renumber shift) := by
  induction p with
  | alt first second ih also => simp only [renumber, choices, ih, also, List.map_append]
  | _ => rfl

theorem seqs_renumber (ps : List Pattern) :
    seqs (ps.map (renumber shift)) = (seqs ps).renumber shift := by
  induction ps with
  | nil => rfl
  | cons p rest ih =>
      cases rest with
      | nil => rfl
      | cons q others => exact congrArg (seq (p.renumber shift)) ih

theorem alts_renumber (ps : List Pattern) :
    alts (ps.map (renumber shift)) = (alts ps).renumber shift := by
  induction ps with
  | nil => rfl
  | cons p rest ih =>
      cases rest with
      | nil => rfl
      | cons q others => exact congrArg (alt (p.renumber shift)) ih

theorem flatMap_renumber {cut : Pattern → List Pattern}
    (each : ∀ p, cut (p.renumber shift) = (cut p).map (renumber shift)) (ps : List Pattern) :
    (ps.map (renumber shift)).flatMap cut = (ps.flatMap cut).map (renumber shift) := by
  rw [List.flatMap_map, List.map_flatMap, funext each]

theorem inOrder_renumber (ps : List Pattern) :
    inOrder (ps.map (renumber shift)) = (inOrder ps).renumber shift := by
  rw [inOrder, flatMap_renumber members_renumber, seqs_renumber, inOrder]

theorem Every.members {p : Pattern} (every : p.Every holds) : ∀ q ∈ p.members, q.Every holds := by
  induction p with
  | empty => exact List.forall_mem_nil _
  | seq first second ih also =>
      intro q member
      rcases List.mem_append.mp member with before | behind
      · exact ih every.1 q before
      · exact also every.2 q behind
  | _ =>
      intro q member
      rw [List.mem_singleton.mp member]
      exact every

theorem Every.choices {p : Pattern} (every : p.Every holds) : ∀ q ∈ p.choices, q.Every holds := by
  induction p with
  | alt first second ih also =>
      intro q member
      rcases List.mem_append.mp member with before | behind
      · exact ih every.1 q before
      · exact also every.2 q behind
  | _ =>
      intro q member
      rw [List.mem_singleton.mp member]
      exact every

theorem every_seqs {ps : List Pattern} (every : ∀ p ∈ ps, p.Every holds) : (seqs ps).Every holds := by
  induction ps with
  | nil => trivial
  | cons p rest ih =>
      obtain ⟨here, behind⟩ := List.forall_mem_cons.mp every
      cases rest with
      | nil => exact here
      | cons q others => exact ⟨here, ih behind⟩

theorem every_alts {ps : List Pattern} (every : ∀ p ∈ ps, p.Every holds) : (alts ps).Every holds := by
  induction ps with
  | nil => trivial
  | cons p rest ih =>
      obtain ⟨here, behind⟩ := List.forall_mem_cons.mp every
      cases rest with
      | nil => exact here
      | cons q others => exact ⟨here, ih behind⟩

theorem every_flatMap {cut : Pattern → List Pattern}
    (each : ∀ p : Pattern, p.Every holds → ∀ q ∈ cut p, q.Every holds) {ps : List Pattern}
    (every : ∀ p ∈ ps, p.Every holds) : ∀ q ∈ ps.flatMap cut, q.Every holds := by
  intro q member
  obtain ⟨p, listed, inside⟩ := List.mem_flatMap.mp member
  exact each p (every p listed) q inside

theorem every_inOrder {ps : List Pattern} (every : ∀ p ∈ ps, p.Every holds) :
    (inOrder ps).Every holds :=
  every_seqs (every_flatMap (fun _ => Every.members) every)

/-! ## Common starts -/

theorem isSingle_renumber (p : Pattern) : (p.renumber shift).isSingle = p.isSingle := by
  cases p <;> rfl

theorem pieces_renumber (ps : List Pattern) :
    pieces (ps.map (renumber shift)) = (pieces ps).map (List.map (renumber shift)) := by
  induction ps with
  | nil => rfl
  | cons p rest ih =>
      rw [List.map_cons, pieces, pieces, ih]
      rcases pieces rest with _ | ⟨_ | ⟨q, piece⟩, others⟩
      · rfl
      · rfl
      · simp only [List.map_cons, isSingle_renumber]
        split <;> rfl

theorem flatten_pieces (ps : List Pattern) : (pieces ps).flatten = ps := by
  induction ps with
  | nil => rfl
  | cons p rest ih =>
      have behind : ∀ others, others.flatten = rest → ([p] :: others).flatten = p :: rest := by
        rintro others rfl
        rfl
      rw [pieces]
      split
      · next q piece others cut =>
          rw [cut] at ih
          split
          · simpa using ih
          · exact behind _ ih
      · exact behind _ ih

theorem sharedStart_renumber (left right : List (List Pattern)) :
    sharedStart (left.map (List.map (renumber shift))) (right.map (List.map (renumber shift))) =
      (sharedStart left right).map (List.map (renumber shift)) := by
  induction left generalizing right with
  | nil => rfl
  | cons first lefts ih =>
      cases right with
      | nil => rfl
      | cons second rights =>
          have alike : first.map (renumber shift) = second.map (renumber shift) ↔ first = second :=
            (List.map_inj_right fun p q => @renumber_injective shift p q)
          simp only [List.map_cons, sharedStart, alike, ih]
          split <;> rfl

theorem sharedStart_opens (left right : List (List Pattern)) : sharedStart left right <+: left := by
  induction left generalizing right with
  | nil => exact List.nil_prefix
  | cons first lefts ih =>
      cases right with
      | nil => exact List.nil_prefix
      | cons second rights =>
          rw [sharedStart]
          split
          · exact (List.prefix_cons_inj first).mpr (ih rights)
          · exact List.nil_prefix

theorem foldl_sharedStart_renumber (first : List (List Pattern)) (others : List (List (List Pattern))) :
    (others.map (List.map (List.map (renumber shift)))).foldl sharedStart
        (first.map (List.map (renumber shift))) =
      (others.foldl sharedStart first).map (List.map (renumber shift)) := by
  induction others generalizing first with
  | nil => rfl
  | cons other rest ih => rw [List.map_cons, List.foldl_cons, List.foldl_cons, sharedStart_renumber, ih]

theorem foldl_sharedStart_opens (first : List (List Pattern)) (others : List (List (List Pattern))) :
    others.foldl sharedStart first <+: first := by
  induction others generalizing first with
  | nil => exact List.prefix_rfl
  | cons other rest ih => exact (ih _).trans (sharedStart_opens first other)

/-! ## Choices -/

theorem filterMap_renumber {result : Type} {pick : Pattern → Option result}
    (same : ∀ p, pick (p.renumber shift) = pick p) (ps : List Pattern) :
    (ps.map (renumber shift)).filterMap pick = ps.filterMap pick := by
  rw [List.filterMap_map, show pick ∘ renumber shift = pick from funext same]

theorem length_filter_renumber (ps : List Pattern) :
    ((ps.map (renumber shift)).filter isSingle).length = (ps.filter isSingle).length := by
  rw [List.filter_map, List.length_map, show isSingle ∘ renumber shift = isSingle from
    funext isSingle_renumber]

theorem merged?_renumber (ps : List Pattern) :
    merged? (ps.map (renumber shift)) = (merged? ps).map (renumber shift) := by
  unfold merged?
  rw [filterMap_renumber (by intro p; cases p <;> rfl), length_filter_renumber, List.length_map]
  dsimp only
  split <;> rfl

theorem every_merged? {ps : List Pattern} {p : Pattern} (merged : merged? ps = some p) :
    p.Every holds := by
  unfold merged? at merged
  dsimp only at merged
  split at merged
  · cases merged
    trivial
  · cases merged

theorem choice_renumber (ps : List Pattern) :
    ((merged? (ps.map (renumber shift))).getD (alts (ps.map (renumber shift)))) =
      ((merged? ps).getD (alts ps)).renumber shift := by
  rw [merged?_renumber, alts_renumber, Option.getD_map]

theorem every_choice {ps : List Pattern} (every : ∀ p ∈ ps, p.Every holds) :
    ((merged? ps).getD (alts ps)).Every holds := by
  cases merged : merged? ps with
  | none => exact every_alts every
  | some p => exact every_merged? merged

theorem select_renumber (ps : List Pattern) :
    select (ps.map (renumber shift)) = (select ps).renumber shift := by
  rw [select, select, flatMap_renumber choices_renumber]
  rcases ps.flatMap choices with _ | ⟨p, _ | ⟨q, rest⟩⟩
  · exact choice_renumber []
  · rfl
  · exact choice_renumber (p :: q :: rest)

theorem every_select {ps : List Pattern} (every : ∀ p ∈ ps, p.Every holds) :
    (select ps).Every holds := by
  have flat := every_flatMap (fun _ => Every.choices) every
  unfold select
  dsimp only
  split
  · next p alone =>
      rw [alone] at flat
      exact flat p List.mem_cons_self
  · exact every_choice flat

/-- What a choice becomes when the pieces of its members start with `start`. -/
theorem common_renumber (shift : Nat) (start : List (List Pattern)) (branches : List (List (List Pattern))) :
    inOrder ((start.map (List.map (renumber shift))).flatten ++
        [select ((branches.map (List.map (List.map (renumber shift)))).map fun pieces =>
          inOrder (pieces.drop start.length).flatten)]) =
      (inOrder (start.flatten ++ [select (branches.map fun pieces =>
        inOrder (pieces.drop start.length).flatten)])).renumber shift := by
  have ends : (branches.map (List.map (List.map (renumber shift)))).map
        (fun pieces => inOrder (pieces.drop start.length).flatten) =
      (branches.map fun pieces => inOrder (pieces.drop start.length).flatten).map (renumber shift) := by
    rw [List.map_map, List.map_map]
    refine List.map_congr_left fun pieces _ => ?_
    rw [Function.comp_apply, Function.comp_apply, ← List.map_drop, ← List.map_flatten, inOrder_renumber]
  rw [ends, select_renumber, ← inOrder_renumber, List.map_append, List.map_flatten]
  rfl

theorem factored?_renumber (ps : List Pattern) :
    factored? (ps.map (renumber shift)) = (factored? ps).map (renumber shift) := by
  have cut : (ps.map (renumber shift)).map (fun p => pieces p.members) =
      (ps.map fun p => pieces p.members).map (List.map (List.map (renumber shift))) := by
    rw [List.map_map, List.map_map]
    refine List.map_congr_left fun p _ => ?_
    rw [Function.comp_apply, Function.comp_apply, members_renumber, pieces_renumber]
  unfold factored?
  rw [cut]
  cases ps.map fun p => pieces p.members with
  | nil => rfl
  | cons first others =>
      have common := common_renumber shift (others.foldl sharedStart first) (first :: others)
      have short : ((first :: others).map (List.map (List.map (renumber shift)))).any (·.length < 2) =
          (first :: others).any (·.length < 2) := by
        simp [List.any_map, Function.comp_def]
      rw [List.map_cons] at common short ⊢
      dsimp only
      rw [foldl_sharedStart_renumber, short, List.isEmpty_map, List.isEmpty_map, List.length_map, common]
      split <;> rfl

theorem every_factored? {ps : List Pattern} {p : Pattern} (every : ∀ p ∈ ps, p.Every holds)
    (factored : factored? ps = some p) : p.Every holds := by
  have inside : ∀ branch ∈ ps.map (fun p => pieces p.members), ∀ part : List (List Pattern),
      part ⊆ branch → ∀ q ∈ part.flatten, q.Every holds := by
    intro branch member part among q taken
    obtain ⟨p, listed, rfl⟩ := List.mem_map.mp member
    obtain ⟨piece, cut, inPiece⟩ := List.mem_flatten.mp taken
    have inMembers : q ∈ (pieces p.members).flatten := List.mem_flatten.mpr ⟨piece, among cut, inPiece⟩
    rw [flatten_pieces] at inMembers
    exact (every p listed).members q inMembers
  unfold factored? at factored
  split at factored
  · next first others cut =>
      rw [cut] at inside
      dsimp only at factored
      split at factored
      · cases factored
      · cases factored
        have started : ∀ q ∈ (others.foldl sharedStart first).flatten, q.Every holds :=
          inside first List.mem_cons_self _ (foldl_sharedStart_opens first others).subset
        have ended : ∀ q ∈ (first :: others).map (fun pieces =>
            inOrder (pieces.drop (others.foldl sharedStart first).length).flatten), q.Every holds := by
          intro q member
          obtain ⟨branch, listed, rfl⟩ := List.mem_map.mp member
          exact every_inOrder (inside branch listed _ fun _ => List.mem_of_mem_drop)
        refine every_inOrder fun q member => ?_
        rcases List.mem_append.mp member with before | last
        · exact started q before
        · rw [List.mem_singleton.mp last]
          exact every_select ended
  · cases factored

theorem oneOf_renumber (ps : List Pattern) :
    oneOf (ps.map (renumber shift)) = (oneOf ps).renumber shift := by
  rw [oneOf, oneOf, flatMap_renumber choices_renumber, merged?_renumber]
  cases merged? (ps.flatMap choices) with
  | some p => rfl
  | none =>
      dsimp only [Option.map_none]
      rw [factored?_renumber, alts_renumber, Option.getD_map]

theorem every_oneOf {ps : List Pattern} (every : ∀ p ∈ ps, p.Every holds) : (oneOf ps).Every holds := by
  have flat := every_flatMap (fun _ => Every.choices) every
  unfold oneOf
  dsimp only
  split
  · next p merged => exact every_merged? merged
  · cases factored : factored? (ps.flatMap choices) with
    | none => exact every_alts flat
    | some p => exact every_factored? flat factored

/-! ## Rounds -/

theorem takesNothing_renumber (p : Pattern) : (p.renumber shift).takesNothing = p.takesNothing := by
  induction p with
  | empty | char | check => rfl
  | seq first second ih also => simp only [renumber, takesNothing, ih, also]
  | alt first second ih also => simp only [renumber, takesNothing, ih, also]
  | rounds least most greedy body ih => simp only [renumber, takesNothing, ih]
  | capture number name body ih => exact ih

theorem repeated_renumber (least : Nat) (most : Option Nat) (greedy : Bool) (body : Pattern) :
    repeated least most greedy (body.renumber shift) =
      (repeated least most greedy body).renumber shift := by
  unfold repeated
  rw [takesNothing_renumber]
  generalize (if body.takesNothing = true then (min least 1, some (min (most.getD 1) 1))
    else (least, most)) = bounds
  dsimp only
  split
  · rfl
  · split <;> rfl

theorem every_repeated {body : Pattern} (every : body.Every holds) (least : Nat) (most : Option Nat)
    (greedy : Bool) : (repeated least most greedy body).Every holds := by
  unfold repeated
  generalize (if body.takesNothing = true then (min least 1, some (min (most.getD 1) 1))
    else (least, most)) = bounds
  dsimp only
  split
  · trivial
  · split <;> exact every

end Highlighting.Pattern
