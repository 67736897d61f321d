import Highlighting.Proofs.Pattern.Ways
import Highlighting.Proofs.Text.Cuts

/-! # Literal patterns

A literal has one way to go on where its characters stand in the text, and none elsewhere. Of several
literals the first one that stands there is matched. -/
set_option autoImplicit false
namespace Highlighting

theorem CharSet.contains_single (c d : Char) : (CharSet.single c).contains d = (d == c) := by
  have sameCode : c.toNat = d.toNat ↔ d = c := by
    constructor
    · intro same
      exact (Char.toNat_inj.mp same).symm
    · rintro rfl
      rfl
  rw [Bool.eq_iff_iff, beq_iff_eq, ← sameCode]
  simp only [contains, single, Unicode.covers, Bool.or_false, Bool.and_eq_true, decide_eq_true_eq]
  omega

namespace Pattern
variable {text : Array Char} {limit : Nat}

theorem ways_seqs (p : Pattern) (rest : List Pattern) (m : Match) :
    (seqs (p :: rest)).ways text limit m =
      (p.ways text limit m).flatMap ((seqs rest).ways text limit) := by
  cases rest with
  | nil => exact (List.flatMap_singleton' _).symm
  | cons q more => rfl

theorem ways_alts (ps : List Pattern) (m : Match) :
    (alts ps).ways text limit m = ps.flatMap fun p => p.ways text limit m := by
  induction ps with
  | nil =>
      have nothing : ¬ (m.stop < limit ∧ text[m.stop]?.any CharSet.none.contains = true) := by
        rintro ⟨_, member⟩
        obtain ⟨c, _, absurdity⟩ := (Option.any_eq_true _ _).mp member
        exact nomatch absurdity
      rw [alts, ways, if_neg nothing, List.flatMap_nil]
  | cons p rest ih =>
      cases rest with
      | nil => exact (List.append_nil _).symm
      | cons q more => exact congrArg (p.ways text limit m ++ ·) ih

/-- A literal goes on by its characters where they stand before the limit. -/
theorem ways_literal (source : Source) (limit : Nat) {chars : List Char} :
    ∀ {m : Match}, (literal chars).ways source.chars limit m =
      if chars <+: source.part m.stop limit then [{ m with stop := m.stop + chars.length }] else [] := by
  induction chars with
  | nil =>
      intro m
      rw [if_pos List.nil_prefix]
      rfl
  | cons c rest ih =>
      intro m
      have line : literal (c :: rest) =
          seqs (char (.single c) :: rest.map fun d => char (.single d)) := rfl
      have behind : seqs (rest.map fun d => char (.single d)) = literal rest := rfl
      have taken : (source.chars[m.stop]?.any (CharSet.single c).contains = true) ↔
          source.chars[m.stop]? = some c := by
        cases source.chars[m.stop]? <;> simp [CharSet.contains_single]
      rw [line, ways_seqs, behind, ways]
      simp only [taken, source.cons_prefix_part]
      by_cases here : m.stop < limit ∧ source.chars[m.stop]? = some c
      · simp only [here, true_and, if_true, List.flatMap_singleton, ih, List.length_cons, and_self,
          Nat.add_assoc, Nat.add_comm 1]
      · simp only [here, false_and, if_false, List.flatMap_nil]

/-- Of several literals the first one that stands there is preferred. -/
theorem head?_ways_literals (spellings : List String) (source : Source) (limit : Nat) (m : Match) :
    ((alts (spellings.map fun spelling => literal spelling.toList)).ways source.chars limit m).head? =
      (spellings.find? fun spelling => spelling.toList.isPrefixOf (source.part m.stop limit)).map
        fun spelling => { m with stop := m.stop + spelling.length } := by
  rw [ways_alts, List.flatMap_map, List.head?_flatMap]
  induction spellings with
  | nil => rfl
  | cons spelling rest ih =>
      rw [List.findSome?_cons, List.find?_cons, ways_literal, String.length_toList]
      by_cases stands : spelling.toList <+: source.part m.stop limit
      · rw [if_pos stands, List.isPrefixOf_iff_prefix.mpr stands]
        rfl
      · have missing : spelling.toList.isPrefixOf (source.part m.stop limit) = false := by
          rwa [← Bool.not_eq_true, List.isPrefixOf_iff_prefix]
        rw [if_neg stands, missing]
        exact ih

theorem isSteady_seqs {ps : List Pattern} (each : ∀ p ∈ ps, p.isSteady = true) :
    (seqs ps).isSteady = true := by
  induction ps with
  | nil => rfl
  | cons p rest ih =>
      obtain ⟨first, others⟩ := List.forall_mem_cons.mp each
      cases rest with
      | nil => exact first
      | cons q more => exact Bool.and_eq_true_iff.mpr ⟨first, ih others⟩

theorem isSteady_alts {ps : List Pattern} (each : ∀ p ∈ ps, p.isSteady = true) :
    (alts ps).isSteady = true := by
  induction ps with
  | nil => rfl
  | cons p rest ih =>
      obtain ⟨first, others⟩ := List.forall_mem_cons.mp each
      cases rest with
      | nil => exact first
      | cons q more => exact Bool.and_eq_true_iff.mpr ⟨first, ih others⟩

theorem isSteady_literal (chars : List Char) : (literal chars).isSteady = true :=
  isSteady_seqs fun _ member => by
    obtain ⟨c, _, rfl⟩ := List.mem_map.mp member
    rfl

end Pattern

/-- The program of a literal matches where its characters stand, and takes them. -/
theorem Program.stop?_literal (chars : List Char) (source : Source) (place : Nat) :
    (ofPattern (.literal chars)).stop? source.chars place source.size =
      if source.holdsAt chars place then some (place + chars.length) else none := by
  rw [stop?_ofPattern (Pattern.isSteady_literal chars), Pattern.ways_literal]
  simp only [source.holdsAt_iff_part]
  split <;> rfl

/-- The program of several literals takes the first one that stands there. -/
theorem Program.stop?_literals (spellings : List String) (source : Source) (place limit : Nat) :
    (ofPattern (.alts (spellings.map fun spelling => .literal spelling.toList))).stop? source.chars place
        limit =
      (spellings.find? fun spelling => spelling.toList.isPrefixOf (source.part place limit)).map
        fun spelling => place + spelling.length := by
  have steady : (Pattern.alts (spellings.map fun spelling => .literal spelling.toList)).isSteady = true := by
    refine Pattern.isSteady_alts fun p member => ?_
    obtain ⟨spelling, _, rfl⟩ := List.mem_map.mp member
    exact Pattern.isSteady_literal _
  rw [stop?_ofPattern steady, Pattern.head?_ways_literals, Option.map_map]
  rfl

end Highlighting
