import Highlighting.Proofs.Pattern.Ways
import Highlighting.Scan.Words

/-! # The edges of identifiers

A place is inside an identifier when word characters of ASCII stand on both sides of it. Whether a pattern
can start at such a place, and whether one of its groups can, is read off the pattern: a word boundary or
a character that belongs to no word leads to an edge. -/
set_option autoImplicit false
namespace Highlighting

/-! ## Word characters -/

/-- The word characters of ASCII by their codes: digits, capitals, the underscore and small letters. -/
theorem isWord_iff {c : Char} :
    Assertion.isWord false c = true ↔
      (0x30 ≤ c.toNat ∧ c.toNat ≤ 0x39) ∨ (0x41 ≤ c.toNat ∧ c.toNat ≤ 0x5A) ∨ c.toNat = 0x5F ∨
        (0x61 ≤ c.toNat ∧ c.toNat ≤ 0x7A) := by
  have shape : Assertion.isWord false c = ((decide ('A'.val ≤ c.val ∧ c.val ≤ 'Z'.val) ||
      (decide ('a'.val ≤ c.val) && decide (c.val ≤ 'z'.val))) ||
        (decide ('0'.val ≤ c.val) && decide (c.val ≤ '9'.val)) || c == '_') := rfl
  have underscore : c = '_' ↔ c.toNat = 0x5F := Char.toNat_inj.symm
  have code : c.toNat = c.val.toNat := rfl
  have : 'A'.val.toNat = 0x41 := rfl
  have : 'Z'.val.toNat = 0x5A := rfl
  have : 'a'.val.toNat = 0x61 := rfl
  have : 'z'.val.toNat = 0x7A := rfl
  have : '0'.val.toNat = 0x30 := rfl
  have : '9'.val.toNat = 0x39 := rfl
  simp only [shape, Bool.or_eq_true, Bool.and_eq_true, decide_eq_true_eq, beq_iff_eq,
    UInt32.le_iff_toNat_le, underscore]
  omega

theorem code_of_isWord {c : Char} (word : Assertion.isWord false c = true) : c.toNat < 0x80 := by
  have codes := isWord_iff.mp word
  omega

/-- Among the characters of ASCII, those that can be in an identifier are the word characters. -/
theorem isIdentifier_of_ascii {c : Char} (small : c.toNat < 0x80) :
    Unicode.isIdentifier c = Assertion.isWord false c := by
  rw [Unicode.isIdentifier, Unicode.isAlphanumeric, Unicode.isAlphabetic, Unicode.isNumber,
    if_pos small, if_pos small]
  rfl

/-- A word character of ASCII is one of every script, and can be in an identifier. -/
theorem isWord_of_ascii {c : Char} (word : Assertion.isWord false c = true) :
    Assertion.isWord true c = true ∧ Unicode.isIdentifier c = true := by
  have small := code_of_isWord word
  have shape : (c.isAlphanum || c == '_') = true := word
  constructor
  · rw [Assertion.isWord, if_pos rfl, Unicode.isWord, if_pos small]
    exact shape
  · rw [isIdentifier_of_ascii small]
    exact shape

/-- The word characters of ASCII. -/
def asciiWord : List Char :=
  ((List.range 0x80).map Char.ofNat).filter (Assertion.isWord false)

theorem mem_asciiWord {c : Char} (word : Assertion.isWord false c = true) : c ∈ asciiWord := by
  refine List.mem_filter.mpr ⟨List.mem_map.mpr ⟨c.toNat, ?_, Char.ofNat_toNat c⟩, word⟩
  exact List.mem_range.mpr (code_of_isWord word)

/-- The set of the word characters of ASCII. -/
def CharSet.plainWord : CharSet :=
  ⟨[(0x30, 0x39), (0x41, 0x5A), (0x5F, 0x5F), (0x61, 0x7A)]⟩

theorem CharSet.contains_plainWord : plainWord.contains = Assertion.isWord false := by
  funext c
  rw [Bool.eq_iff_iff, isWord_iff]
  simp only [plainWord, contains, Unicode.covers, Bool.or_eq_true, Bool.and_eq_true, decide_eq_true_eq,
    Bool.false_eq_true, or_false]
  omega

/-- The set has no word character of ASCII. -/
def CharSet.isApart (set : CharSet) : Bool :=
  asciiWord.all fun c => !set.contains c

theorem CharSet.isApart.not_isWord {set : CharSet} (apart : set.isApart = true) {c : Char}
    (member : set.contains c = true) : Assertion.isWord false c = false := by
  rw [← Bool.not_eq_true]
  intro word
  have excluded := List.all_eq_true.mp apart c (mem_asciiWord word)
  rw [member] at excluded
  exact absurd excluded Bool.false_ne_true

/-- Word characters of ASCII stand on both sides of the place. -/
structure InWord (text : Array Char) (place : Nat) : Prop where
  positive : 0 < place
  before : text[place - 1]?.any (Assertion.isWord false) = true
  behind : text[place]?.any (Assertion.isWord false) = true

theorem any_isWord_of_ascii {c? : Option Char} (word : c?.any (Assertion.isWord false) = true) :
    c?.any (Assertion.isWord true) = true ∧ c?.any Unicode.isIdentifier = true := by
  obtain ⟨c, rfl, isWord⟩ := (Option.any_eq_true _ _).mp word
  exact isWord_of_ascii isWord

/-- Inside an identifier there is no word boundary. -/
theorem InWord.not_boundary {text : Array Char} {place : Nat} (inside : InWord text place) :
    (Assertion.word true .boundary).holds text place = false := by
  have nonzero : place ≠ 0 := Nat.ne_of_gt inside.positive
  have before := (any_isWord_of_ascii inside.before).1
  have behind := (any_isWord_of_ascii inside.behind).1
  simp only [Assertion.holds, WordEdge.holds, if_neg nonzero, before, behind, bne_self_eq_false]

/-- Where a text starts with a word, there is a boundary. -/
theorem boundary_start {text : Array Char} (word : text[0]?.any (Assertion.isWord false) = true) :
    (Assertion.word true .boundary).holds text 0 = true := by
  have behind := (any_isWord_of_ascii word).1
  simp only [Assertion.holds, WordEdge.holds, if_pos, Option.any_none, behind, Bool.bne_true, Bool.not_false]

theorem InWord.insideIdentifier {source : Source} {place : Nat} (inside : InWord source.chars place) :
    WordTable.insideIdentifier source place = true := by
  simp only [WordTable.insideIdentifier, inside.positive, (any_isWord_of_ascii inside.before).2,
    (any_isWord_of_ascii inside.behind).2, decide_true, Bool.and_self]

theorem InWord.iff_insideIdentifier {source : Source} {place : Nat}
    (ascii : ∀ c ∈ source.chars, c.toNat < 0x80) :
    InWord source.chars place ↔ WordTable.insideIdentifier source place = true := by
  have same : ∀ index : Nat, source.chars[index]?.any Unicode.isIdentifier =
      source.chars[index]?.any (Assertion.isWord false) := by
    intro index
    cases here : source.chars[index]? with
    | none => rfl
    | some c => exact isIdentifier_of_ascii (ascii c (Array.mem_of_getElem? here))
  simp only [WordTable.insideIdentifier, same, Bool.and_eq_true, decide_eq_true_eq]
  exact ⟨fun inside => ⟨⟨inside.positive, inside.before⟩, inside.behind⟩,
    fun ⟨⟨positive, before⟩, behind⟩ => ⟨positive, before, behind⟩⟩

/-! ## Where patterns start -/

namespace Pattern

/-- Whether no match starts inside an identifier. -/
def keepsOff : Pattern → Bool
  | empty => false
  | char set => set.isApart
  | check assertion => assertion == .word true .boundary
  | seq first _ => first.keepsOff
  | alt first second => first.keepsOff && second.keepsOff
  | rounds least _ _ body => 0 < least && body.keepsOff
  | capture _ _ body => body.keepsOff

variable {text : Array Char} {limit : Nat}

theorem ways_of_keepsOff {p : Pattern} (keeps : p.keepsOff = true) :
    ∀ {m : Match}, InWord text m.stop → p.ways text limit m = [] := by
  induction p with
  | empty => exact nomatch keeps
  | char set =>
      intro m inside
      rw [ways, if_neg]
      rintro ⟨_, taken⟩
      obtain ⟨c, here, member⟩ := (Option.any_eq_true _ _).mp taken
      have word := inside.behind
      rw [here] at word
      rw [Option.any_some, CharSet.isApart.not_isWord keeps member] at word
      exact absurd word Bool.false_ne_true
  | check assertion =>
      intro m inside
      obtain rfl := eq_of_beq keeps
      rw [ways, inside.not_boundary]
      rfl
  | seq first second ih _ =>
      intro m inside
      rw [ways, ih keeps inside, List.flatMap_nil]
  | alt first second ih also =>
      intro m inside
      obtain ⟨left, right⟩ := Bool.and_eq_true_iff.mp keeps
      rw [ways, ih left inside, also right inside, List.append_nil]
  | rounds least most greedy body ih =>
      intro m inside
      obtain ⟨some, inner⟩ := Bool.and_eq_true_iff.mp keeps
      obtain ⟨count, rfl⟩ := Nat.exists_eq_succ_of_ne_zero (Nat.ne_of_gt (of_decide_eq_true some))
      rw [ways, Ways.times, ih inner inside, List.flatMap_nil, List.flatMap_nil]
  | capture number name body ih =>
      intro m inside
      have nothing := ih keeps (m := { m with marks := ⟨number, true, m.stop⟩ :: m.marks }) inside
      rw [ways, nothing, List.map_nil]

/-! ## Where groups start -/

/-- Whether a match that has started at an edge, or anywhere, comes to an edge in the end. There is no
answer if one of the groups could start inside an identifier. -/
def edge? (groups : List Nat) : Pattern → Bool → Option Bool
  | empty, edge => some edge
  | char set, _ => some set.isApart
  | check assertion, edge => some (edge || assertion == .word true .boundary)
  | seq first second, edge => (first.edge? groups edge).bind (second.edge? groups)
  | alt first second, edge =>
      (first.edge? groups edge).bind fun left => (second.edge? groups edge).map (left && ·)
  | rounds least _ _ body, edge => (body.edge? groups false).map (· && (edge || 0 < least))
  | capture number _ body, edge =>
      if edge || !groups.contains number then body.edge? groups edge else none

end Pattern

/-- The groups have started at edges, and the match has come to one if `edge` says so. -/
structure Match.AtEdge (text : Array Char) (groups : List Nat) (edge : Bool) (m : Match) : Prop where
  stop : edge = true → ¬ InWord text m.stop
  marks : ∀ mark ∈ m.marks, mark.opens = true → mark.number ∈ groups → ¬ InWord text mark.place

namespace Match.AtEdge
variable {text : Array Char} {groups : List Nat} {edge weaker : Bool} {m : Match}

theorem weaken (atEdge : m.AtEdge text groups edge) (less : weaker = true → edge = true) :
    m.AtEdge text groups weaker :=
  ⟨fun isEdge => atEdge.stop (less isEdge), atEdge.marks⟩

/-- Where a match has come to is forgotten. -/
theorem forget (atEdge : m.AtEdge text groups edge) : m.AtEdge text groups false :=
  atEdge.weaken fun absurdity => absurd absurdity Bool.false_ne_true

theorem opening (atEdge : m.AtEdge text groups edge) {number : Nat}
    (starts : (edge || !groups.contains number) = true) :
    ({ m with marks := ⟨number, true, m.stop⟩ :: m.marks } : Match).AtEdge text groups edge := by
  refine ⟨atEdge.stop, fun mark marked opens listed => ?_⟩
  rcases List.mem_cons.mp marked with rfl | earlier
  · rcases Bool.or_eq_true_iff.mp starts with isEdge | unlisted
    · exact atEdge.stop isEdge
    · have contained : groups.contains number = true := List.contains_iff_mem.mpr listed
      rw [contained] at unlisted
      exact absurd unlisted Bool.false_ne_true
  · exact atEdge.marks mark earlier opens listed

theorem closing (atEdge : m.AtEdge text groups edge) (number : Nat) :
    ({ m with marks := ⟨number, false, m.stop⟩ :: m.marks } : Match).AtEdge text groups edge := by
  refine ⟨atEdge.stop, fun mark marked opens listed => ?_⟩
  rcases List.mem_cons.mp marked with rfl | earlier
  · exact nomatch opens
  · exact atEdge.marks mark earlier opens listed

/-- A group that took part has started at an edge. -/
theorem group (atEdge : m.AtEdge text groups edge) {number : Nat} {group : Group}
    (listed : number ∈ groups) (took : m.group? number = some group) : ¬ InWord text group.start := by
  unfold Match.group? at took
  split at took
  · exact nomatch took
  · next last earlier ended =>
      obtain ⟨first, found, rfl⟩ := Option.map_eq_some_iff.mp took
      have meets := List.find?_some found
      obtain ⟨opens, same⟩ := Bool.and_eq_true_iff.mp meets
      have kept : (last :: earlier).Sublist m.marks := ended ▸ List.dropWhile_sublist _
      have marked := kept.subset (List.mem_cons_of_mem _ (List.mem_of_find?_eq_some found))
      rw [← eq_of_beq same] at listed
      exact atEdge.marks first marked opens listed

end Match.AtEdge

/-! ## Rounds

A round may start anywhere, and comes to an edge if `round` says so. -/

namespace Ways
variable {text : Array Char} {groups : List Nat} {body : Ways} {edge round : Bool} {m : Match}

theorem times_atEdge (each : ∀ m, m.AtEdge text groups false → ∀ k ∈ body m, k.AtEdge text groups round)
    (count : Nat) (atEdge : m.AtEdge text groups edge) :
    ∀ k ∈ body.times count m, k.AtEdge text groups (round && (edge || 0 < count)) := by
  intro k member
  cases count with
  | zero =>
      rw [List.mem_singleton.mp member]
      apply atEdge.weaken
      simp
  | succ count =>
      rw [times_last] at member
      obtain ⟨last, before, final⟩ := List.mem_flatMap.mp member
      have anywhere := mem_times
        (R := fun m k => m.AtEdge text groups false → k.AtEdge text groups false)
        (fun _ start => start) (fun first second start => second (first start))
        (fun m k inside start => (each m start k inside).forget) count m last before
      apply (each last (anywhere atEdge.forget) k final).weaken
      simp

theorem upTo_atEdge (each : ∀ m, m.AtEdge text groups false → ∀ k ∈ body m, k.AtEdge text groups round)
    (greedy : Bool) (count : Nat) (atEdge : m.AtEdge text groups (round && edge)) :
    ∀ k ∈ body.upTo greedy count m, k.AtEdge text groups (round && edge) := by
  intro k member
  refine mem_upTo (R := fun m k => m.AtEdge text groups (round && edge) →
    k.AtEdge text groups (round && edge)) ?_ ?_ ?_ greedy count m k member atEdge
  · exact fun _ start => start
  · exact fun first second start => second (first start)
  · intro m k inside start
    apply (each m start.forget k inside).weaken
    exact fun both => (Bool.and_eq_true_iff.mp both).1

end Ways

namespace Pattern
variable {text : Array Char} {limit : Nat} {groups : List Nat}

/-- What is read off a pattern holds of all its ways. -/
theorem edge?_ways {p : Pattern} : ∀ {edge after : Bool}, p.edge? groups edge = some after →
    ∀ {m : Match}, m.AtEdge text groups edge → ∀ k ∈ p.ways text limit m, k.AtEdge text groups after := by
  induction p with
  | empty =>
      intro edge after known m atEdge k member
      cases known
      rw [List.mem_singleton.mp member]
      exact atEdge
  | char set =>
      intro edge after known m atEdge k member
      cases known
      rw [ways] at member
      split at member
      · next taken =>
          obtain ⟨c, here, inSet⟩ := (Option.any_eq_true _ _).mp taken.2
          rw [List.mem_singleton.mp member]
          refine ⟨fun apart inside => ?_, atEdge.marks⟩
          have word := inside.before
          rw [Nat.add_sub_cancel, here, Option.any_some, CharSet.isApart.not_isWord apart inSet] at word
          exact absurd word Bool.false_ne_true
      · exact absurd member List.not_mem_nil
  | check assertion =>
      intro edge after known m atEdge k member
      cases known
      rw [ways] at member
      split at member
      · next holds =>
          rw [List.mem_singleton.mp member]
          refine ⟨fun isEdge inside => ?_, atEdge.marks⟩
          rcases Bool.or_eq_true_iff.mp isEdge with already | boundary
          · exact atEdge.stop already inside
          · rw [eq_of_beq boundary, inside.not_boundary] at holds
            exact absurd holds Bool.false_ne_true
      · exact absurd member List.not_mem_nil
  | seq first second ih also =>
      intro edge after known m atEdge k member
      obtain ⟨middle, earlier, later⟩ := Option.bind_eq_some_iff.mp known
      obtain ⟨between, inFirst, inSecond⟩ := List.mem_flatMap.mp member
      exact also later (ih earlier atEdge between inFirst) k inSecond
  | alt first second ih also =>
      intro edge after known m atEdge k member
      obtain ⟨left, knownLeft, rest⟩ := Option.bind_eq_some_iff.mp known
      obtain ⟨right, knownRight, rfl⟩ := Option.map_eq_some_iff.mp rest
      rcases List.mem_append.mp member with preferred | other
      · exact (ih knownLeft atEdge k preferred).weaken fun both => (Bool.and_eq_true_iff.mp both).1
      · exact (also knownRight atEdge k other).weaken fun both => (Bool.and_eq_true_iff.mp both).2
  | rounds least most greedy body ih =>
      intro edge after known m atEdge k member
      obtain ⟨round, inner, rfl⟩ := Option.map_eq_some_iff.mp known
      have each : ∀ m, m.AtEdge text groups false → ∀ k ∈ body.ways text limit m,
          k.AtEdge text groups round := fun m start => ih inner start
      obtain ⟨between, required, further⟩ := List.mem_flatMap.mp member
      exact Ways.upTo_atEdge each _ _ (Ways.times_atEdge each least atEdge between required) k further
  | capture number name body ih =>
      intro edge after known m atEdge k member
      unfold edge? at known
      split at known
      · next starts =>
          obtain ⟨inner, inside, rfl⟩ := List.mem_map.mp member
          exact (ih known (atEdge.opening starts) inner inside).closing number
      · cases known

end Pattern

/-! ## Where matches start -/

namespace Program
variable {p : Pattern} {text : Array Char} {place limit : Nat} {m : Match}

/-- A match of a pattern that keeps off identifiers starts at an edge. -/
theorem starts_at_edge (steady : p.isSteady = true) (keeps : p.keepsOff = true)
    (found : (ofPattern p).match? text place limit = some m) : ¬ InWord text place := by
  intro inside
  have kept : (Pattern.capture 0 none p).keepsOff = true := keeps
  rw [match?_ofPattern steady, Pattern.ways_of_keepsOff kept (m := ⟨place, []⟩) inside] at found
  exact nomatch found

/-- If nothing is left open about the groups, they start at edges too. -/
theorem groups_at_edges (steady : p.isSteady = true) {groups : List Nat}
    (known : (p.edge? groups true).isSome = true) (start : ¬ InWord text place)
    (found : (ofPattern p).match? text place limit = some m) : m.AtEdge text groups false := by
  obtain ⟨after, edges⟩ := Option.isSome_iff_exists.mp known
  rw [match?_ofPattern steady] at found
  have atStart : (⟨place, []⟩ : Match).AtEdge text groups true :=
    ⟨fun _ => start, fun _ absurdity => absurd absurdity List.not_mem_nil⟩
  have whole : (Pattern.capture 0 none p).edge? groups true = some after := edges
  exact (Pattern.edge?_ways whole atStart m (List.mem_of_mem_head? found)).forget

end Program

end Highlighting
