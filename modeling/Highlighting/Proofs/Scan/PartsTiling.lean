import Highlighting.Proofs.Grammar.Assembly
import Highlighting.Proofs.Grammar.Listed
import Highlighting.Proofs.Pattern.Adequacy
import Highlighting.Proofs.Scan.PartsInLine

/-! # What the parts of a match are

Where a rule of parts matches, its parts lie side by side, the first one from the start of the match, the
last one to its end, and each of them is what the pattern of the part matches there. This holds for any
parts, whatever groups they have, if each of them is a pattern of its own. -/
set_option autoImplicit false
namespace Highlighting

/-- What a group took, when its last two marks have only marks of other groups between them and behind
them. -/
theorem Match.group?_marked {stop number first last : Nat} {added inner earlier : List Mark}
    (later : ∀ mark ∈ added, mark.number ≠ number) (within : ∀ mark ∈ inner, mark.number ≠ number) :
    group? ⟨stop, added ++ ⟨number, false, last⟩ :: (inner ++ ⟨number, true, first⟩ :: earlier)⟩ number =
      some ⟨first, last⟩ := by
  induction added with
  | nil =>
      have unopened : inner.find? (fun mark => mark.opens && mark.number == number) = none := by
        rw [List.find?_eq_none]
        intro mark member
        simp [within mark member]
      simp [group?, List.find?_append, unopened]
  | cons mark rest ih =>
      obtain ⟨here, others⟩ := List.forall_mem_cons.mp later
      rw [List.cons_append, group?_skip here]
      exact ih others

/-- The parts lie side by side, from `start` to `stop`. -/
def Part.Tile (start : Nat) : List Part → Nat → Prop
  | [], stop => stop = start
  | part :: rest, stop => part.start = start ∧ start ≤ part.stop ∧ Tile part.stop rest stop

namespace Parts

open Pattern

/-- The pieces took texts that lie side by side, each what its own pattern matches. -/
def Took (text : Array Char) (m : Match) (start : Nat) : List Piece → Nat → Prop
  | [], stop => stop = start
  | piece :: rest, stop => ∃ between, m.group? piece.group = some ⟨start, between⟩ ∧
      start ≤ between ∧ piece.own.Takes text start between ∧ Took text m between rest stop

variable {number groups : Nat} {names texts : List String} {pieces : List Piece} {text : Array Char}

/-- The group of a part is marked around the groups in the part and before the groups of all later parts,
whose numbers are all higher. -/
theorem Assembled.took (assembled : Assembled number groups names texts pieces) {stop : Nat}
    {added : List Mark} (outermost : ∀ mark ∈ added, mark.number = 0) :
    ∀ {m k : Match}, (seqs (wrapped number pieces)).Passes text m k →
      Took text ⟨stop, added ++ k.marks⟩ m.stop pieces k.stop := by
  induction assembled with
  | nil =>
      intro m k passes
      obtain rfl : k = m := passes
      rfl
  | @cons number groups count names inner texts part own pieces parsed fresh numbered onward ih =>
      intro m k passes
      obtain ⟨l, ⟨j, inside, rfl⟩, behind⟩ := passes_seqs_cons.mp passes
      have deeper : (own.renumber (groups + 1)).Every fun n _ => groups + 1 < n :=
        Every.renumber (numbered.imp fun n _ known => by omega)
      obtain ⟨within, marked, inner⟩ := inside.marks deeper
      obtain ⟨later, more, others⟩ := behind.marks (every_seqs onward.every)
      have rest := ih behind
      -- The last marks come first, so the marks of later parts and of inner groups are skipped.
      refine ⟨j.stop, ?_, inside.stop_le, inside.takes, rest⟩
      rw [more, marked, ← List.append_assoc]
      refine Match.group?_marked ?_ ?_
      · intro mark member
        rcases List.mem_append.mp member with outside | behind
        · rw [outermost mark outside]
          exact (Nat.succ_ne_zero groups).symm
        · obtain ⟨_, higher⟩ := others mark behind
          exact Nat.ne_of_gt (Nat.lt_of_le_of_lt (Nat.le_add_left _ count) higher)
      · intro mark member
        obtain ⟨_, higher⟩ := inner mark member
        exact (Nat.ne_of_lt higher).symm

variable {m : Match} {start stop : Nat}

theorem Took.takes (took : Took text m start pieces stop) :
    ∀ {i : Nat} {piece : Piece}, pieces[i]? = some piece →
      ∃ group, m.group? piece.group = some group ∧ piece.own.Takes text group.start group.stop := by
  induction pieces generalizing start with
  | nil => nofun
  | cons first rest ih =>
      obtain ⟨between, group, _, takes, others⟩ := took
      intro i piece there
      cases i with
      | zero =>
          cases there
          exact ⟨⟨start, between⟩, group, takes⟩
      | succ i => exact ih others there

/-- Parts that are where the groups of the pieces are lie side by side. -/
theorem Took.tile (took : Took text m start pieces stop) (located : Nat → Part)
    (each : ∀ {i : Nat} {piece : Piece} {group : Group}, pieces[i]? = some piece →
      m.group? piece.group = some group →
        (located i).start = group.start ∧ (located i).stop = group.stop) :
    Part.Tile start ((List.range pieces.length).map located) stop := by
  induction pieces generalizing start located with
  | nil => exact took
  | cons first rest ih =>
      obtain ⟨between, group, forth, _, others⟩ := took
      have behind := ih others (fun i => located (i + 1)) fun there => each (i := _ + 1) there
      obtain ⟨starts, stops⟩ := each (i := 0) rfl group
      dsimp only at stops
      rw [List.length_cons, List.range_succ_eq_map, List.map_cons, List.map_map]
      rw [← stops] at forth behind
      exact ⟨starts, forth, behind⟩

theorem toRule_parts {rule : Parts} {names : RuleNames} {index : Nat} {ready : PartsRule}
    (compiled : (Definition.parts rule).toRule names index = .ok (.parts ready)) :
    ∃ whole, parse? (assemble 1 rule.parts) = some whole ∧
      ready.pattern = .ofPattern whole ∧ ready.parts = rule.located whole := by
  obtain ⟨whole, read, same⟩ := ok_of_bind compiled
  cases same
  exact ⟨whole, readPattern_eq_ok_iff.mp read, rfl, rfl⟩

theorem scope?_eq_find? (rule : Parts) (number : Nat) :
    rule.scope? number = (rule.scopes.find? fun entry => entry.1 == number).map (·.2) := by
  unfold scope?
  induction rule.scopes with
  | nil => rfl
  | cons entry rest ih =>
      obtain ⟨part, scope⟩ := entry
      by_cases here : part = number
      · simp [here]
      · simp [List.lookup_cons, here, ih, beq_false_of_ne (Ne.symm here)]

/-- The part of a piece is where its group is. -/
theorem Assembled.part_group (assembled : Assembled 1 0 [] texts pieces) {i : Nat} {piece : Piece}
    {group : Group} (there : pieces[i]? = some piece) (took : m.group? piece.group = some group)
    (scope : Option Scope) :
    PartsRule.part m (((seqs (wrapped 1 pieces)).groupNumber? (groupName (i + 1))).getD 0, scope) =
      ⟨group.start, group.stop, scope⟩ := by
  have number := assembled.groupNumber? there
  rw [Nat.add_comm] at number
  rw [number, PartsRule.part, Option.getD_some, took]

/-- Where a rule of parts matches, its parts lie side by side from the start of the match to its end,
each is what the pattern of its text matches there and its own program comes to, and it has the first
scope that is given for it. -/
theorem matched_side_by_side {rule : Parts} {names : RuleNames} {index : Nat} {ready : PartsRule}
    (compiled : (Definition.parts rule).toRule names index = .ok (.parts ready))
    (wellFormed : ∀ text ∈ rule.parts, (parse? text).isSome = true)
    (terse : ∀ text ∈ rule.parts, isTerse text = true)
    {source : Source} {place number : Nat} {found : Found}
    (matched : (Rule.parts ready).match? source place number = some found) :
    ∃ stop parts, found = .parts number ready stop parts ∧ parts.length = rule.parts.length ∧
      Part.Tile place parts stop ∧
      ∀ (i : Nat) (part : Part), parts[i]? = some part →
        (∃ text own, rule.parts[i]? = some text ∧ parse? text = some own ∧
          own.Takes source.chars part.start part.stop ∧
          ∃ marks, (Program.ofPattern own).Accepted source.chars part.start ⟨part.stop, marks⟩) ∧
        part.scope = (rule.scopes.find? fun entry => entry.1 == i + 1).map (·.2) := by
  obtain ⟨whole, parsed, program, located⟩ := toRule_parts compiled
  obtain ⟨m, taken, _, rfl⟩ := Rule.match?_parts matched
  obtain ⟨pieces, assembled, rfl⟩ :=
    parse?_assemble (fun text listed => ⟨wellFormed text listed, terse text listed⟩) parsed
  rw [program] at taken
  obtain ⟨k, inside, rfl⟩ := (Program.match?_accepted taken).passes
  have outermost : ∀ mark ∈ [(⟨0, false, k.stop⟩ : Mark)], mark.number = 0 := by simp
  let m : Match := ⟨k.stop, [⟨0, false, k.stop⟩] ++ k.marks⟩
  have took : Took source.chars m place pieces k.stop := assembled.took outermost inside
  let part (i : Nat) : Part := PartsRule.part m
    (((seqs (wrapped 1 pieces)).groupNumber? (groupName (i + 1))).getD 0, rule.scope? (i + 1))
  have parts : ready.locate m = (List.range pieces.length).map part := by
    rw [PartsRule.locate_eq, located, Parts.located, List.map_map, assembled.length_eq]
    rfl
  refine ⟨k.stop, (List.range pieces.length).map part, ?_, ?_, ?_, ?_⟩
  · exact congrArg (Found.parts number ready k.stop) parts
  · rw [List.length_map, List.length_range, assembled.length_eq]
  · refine took.tile part fun there group => ?_
    simp only [part, assembled.part_group there group, and_self]
  · intro i located there
    obtain ⟨inside, rfl⟩ := List.getElem?_eq_some_iff.mp there
    rw [List.length_map, List.length_range] at inside
    rw [List.getElem_map, List.getElem_range]
    obtain ⟨group, marked, takes⟩ := took.takes (List.getElem?_eq_getElem inside)
    obtain ⟨text, listed, parsed⟩ := assembled.own (List.getElem?_eq_getElem inside)
    simp only [part, assembled.part_group (List.getElem?_eq_getElem inside) marked]
    have accepted := (Program.takes_iff _ _ _ _).mp takes
    exact ⟨⟨text, _, listed, parsed, takes, accepted⟩, rule.scope?_eq_find? (i + 1)⟩

/-- Three parts with groups of their own: a choice, an optional one that is named, and one in a loop. -/
def binding : Parts where
  parts := ["(var)|let", " +(?P<name>[a-z]+)?", "=([0-9])+"]
  scopes := [(1, .keyword), (3, .number), (1, .literal)]

theorem binding_side_by_side :
    ∃ ready, (Definition.parts binding).toRule [] 0 = .ok (.parts ready) ∧
      ∃ own, parse? "=([0-9])+" = some own ∧
        let parts : List Part := [⟨0, 3, some .keyword⟩, ⟨3, 5, none⟩, ⟨5, 8, some .number⟩]
        (Rule.parts ready).match? (.ofString "var x=12;") 0 0 = some (.parts 0 ready 8 parts) ∧
          Part.Tile 0 parts 8 ∧ own.Takes (Source.ofString "var x=12;").chars 5 8 ∧
          ∃ marks, (Program.ofPattern own).Accepted (Source.ofString "var x=12;").chars 5 ⟨8, marks⟩ := by
  let whole := (parse? (assemble 1 binding.parts)).getD .empty
  let ready : PartsRule := ⟨.ofPattern whole, binding.located whole, 1⟩
  have assembled : parse? (assemble 1 binding.parts) = some whole := by decide
  have compiled : (Definition.parts binding).toRule [] 0 = .ok (.parts ready) := by
    simp only [Definition.toRule, readPattern, assembled]
    rfl
  have matched : (Rule.parts ready).match? (.ofString "var x=12;") 0 0 =
      some (.parts 0 ready 8 [⟨0, 3, some .keyword⟩, ⟨3, 5, none⟩, ⟨5, 8, some .number⟩]) := by
    decide +kernel
  obtain ⟨stop, parts, same, _, tile, each⟩ :=
    matched_side_by_side compiled (by decide) (by decide +kernel) matched
  cases same
  obtain ⟨⟨text, own, listed, parsed, takes, accepted⟩, _⟩ := each 2 _ rfl
  cases listed
  exact ⟨ready, compiled, own, parsed, matched, tile, takes, accepted⟩

end Parts

end Highlighting
