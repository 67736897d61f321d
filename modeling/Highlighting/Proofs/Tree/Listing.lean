import Highlighting.Proofs.Scan.Coverage
import Highlighting.Proofs.Text.Lines

/-! # Listings of a tree

A tree whose siblings fill a range is listed twice: by its leaves and by its scoped ranges. Scoped ranges
lie inside one another or apart, and a range comes behind all ranges around it. So the ranges in front of
it that hold it are the ones around it, as many as its depth, and the scope of a leaf is that of the last
range that holds the leaf. These laws are carried from siblings to siblings and from children to their
parent. At byte offsets they tie the tokens of a result to its regions. -/
set_option autoImplicit false
namespace Highlighting

/-- One range lies in another one. Ranges are given by their start and their stop. -/
def Within (inner outer : Nat × Nat) : Prop :=
  outer.1 ≤ inner.1 ∧ inner.2 ≤ outer.2

instance (inner outer : Nat × Nat) : Decidable (Within inner outer) :=
  inferInstanceAs (Decidable (_ ∧ _))

/-- The ranges follow each other from `first` to `last`, and none of them is empty. -/
def Tiling : Nat → Nat → List (Nat × Nat) → Prop
  | first, last, [] => first = last
  | first, last, range :: rest => range.1 = first ∧ range.1 < range.2 ∧ Tiling range.2 last rest

theorem Tiling.append {middle last : Nat} {right : List (Nat × Nat)} :
    ∀ {first : Nat} {left : List (Nat × Nat)}, Tiling first middle left → Tiling middle last right →
      Tiling first last (left ++ right) := by
  intro first left before behind
  induction left generalizing first with
  | nil => exact before ▸ behind
  | cons range rest ih => exact ⟨before.1, before.2.1, ih before.2.2⟩

theorem Tiling.within {last : Nat} {ranges : List (Nat × Nat)} :
    ∀ {first : Nat}, Tiling first last ranges →
      first ≤ last ∧ ∀ range ∈ ranges, range.1 < range.2 ∧ Within range (first, last) := by
  induction ranges with
  | nil => exact fun tiled => ⟨Nat.le_of_eq tiled, fun _ absurdity => nomatch absurdity⟩
  | cons range rest ih =>
      rintro first ⟨rfl, proper, tiled⟩
      obtain ⟨ordered, others⟩ := ih tiled
      refine ⟨by omega, ?_⟩
      intro other member
      rcases List.mem_cons.mp member with rfl | later
      · exact ⟨proper, Nat.le_refl _, ordered⟩
      · obtain ⟨nonempty, starts, stops⟩ := others other later
        refine ⟨nonempty, ?_, stops⟩
        show range.1 ≤ other.1
        change range.2 ≤ other.1 at starts
        omega

/-- In a tiling each range starts where the one before it stops. -/
theorem Tiling.isChain {last : Nat} {ranges : List (Nat × Nat)} :
    ∀ {first : Nat}, Tiling first last ranges →
      ranges.IsChain fun left right => left.2 = right.1 := by
  induction ranges with
  | nil => exact fun _ => .nil
  | cons range rest ih =>
      rintro first ⟨_, _, tiled⟩
      refine List.isChain_cons.mpr ⟨?_, ih tiled⟩
      intro next heads
      cases rest with
      | nil => exact nomatch heads
      | cons other others =>
          obtain rfl : other = next := Option.some.inj heads
          exact tiled.1.symm

def Leaf.range (leaf : Leaf) : Nat × Nat :=
  (leaf.start, leaf.stop)

def ScopedRange.range (mark : ScopedRange) : Nat × Nat :=
  (mark.start, mark.stop)

/-- The scope of the last range that holds the given one. -/
def ScopedRange.innermost? (ranges : List ScopedRange) (range : Nat × Nat) : Option Scope :=
  ((ranges.filter fun mark => Within range mark.range).getLast?).map (·.scope)

/-- Leaves and scoped ranges that belong together, from `first` to `last`, under `depth` ranges of
which the innermost one has the scope `around`. -/
structure Listing (first last depth : Nat) (around : Option Scope) (ranges : List ScopedRange)
    (leaves : List Leaf) : Prop where
  inside : ∀ mark ∈ ranges, mark.start < mark.stop ∧ Within mark.range (first, last)
  /-- A later range lies in an earlier one or behind it. -/
  nested : ranges.Pairwise fun earlier later =>
    Within later.range earlier.range ∨ earlier.stop ≤ later.start
  /-- The depth counts the earlier ranges around a range. -/
  counted : ∀ index mark, ranges[index]? = some mark →
    mark.depth = depth + (ranges.take index).countP fun earlier => Within mark.range earlier.range
  tiled : Tiling first last (leaves.map (·.range))
  /-- A leaf has the scope of the last range around it. -/
  innermost : ∀ leaf ∈ leaves,
    leaf.scope = (ScopedRange.innermost? ranges leaf.range).or around

namespace Listing
variable {first middle last depth : Nat} {around : Option Scope}
  {ranges left right : List ScopedRange} {leaves leavesLeft leavesRight : List Leaf}

theorem nil (place : Nat) : Listing place place depth around [] [] where
  inside := fun _ absurdity => nomatch absurdity
  nested := .nil
  counted := fun _ _ absurdity => nomatch absurdity
  tiled := rfl
  innermost := fun _ absurdity => nomatch absurdity

theorem text (proper : first < last) : Listing first last depth around [] [⟨around, first, last⟩] where
  inside := fun _ absurdity => nomatch absurdity
  nested := .nil
  counted := fun _ _ absurdity => nomatch absurdity
  tiled := ⟨rfl, proper, rfl⟩
  innermost := by
    intro leaf member
    rw [List.mem_singleton.mp member]
    rfl

theorem leaf_within (listed : Listing first last depth around ranges leaves) {leaf : Leaf}
    (member : leaf ∈ leaves) : leaf.start < leaf.stop ∧ Within leaf.range (first, last) :=
  listed.tiled.within.2 leaf.range (List.mem_map_of_mem member)

/-- What lies before all ranges or behind them is in none of them. -/
theorem filter_of_apart (listed : Listing first last depth around ranges leaves)
    {range : Nat × Nat} (proper : range.1 < range.2) (apart : range.2 ≤ first ∨ last ≤ range.1) :
    ranges.filter (fun mark => Within range mark.range) = [] := by
  rw [List.filter_eq_nil_iff]
  intro mark member
  rw [decide_eq_true_eq]
  rintro ⟨starts, stops⟩
  obtain ⟨_, onset, upTo⟩ := listed.inside mark member
  change first ≤ mark.start at onset
  change mark.stop ≤ last at upTo
  change mark.start ≤ range.1 at starts
  change range.2 ≤ mark.stop at stops
  omega

theorem append (before : Listing first middle depth around left leavesLeft)
    (behind : Listing middle last depth around right leavesRight) :
    Listing first last depth around (left ++ right) (leavesLeft ++ leavesRight) := by
  have leftOrdered := before.tiled.within.1
  have rightOrdered := behind.tiled.within.1
  constructor
  case inside =>
    intro mark member
    rcases List.mem_append.mp member with inLeft | inRight
    · obtain ⟨proper, starts, stops⟩ := before.inside mark inLeft
      exact ⟨proper, starts, Nat.le_trans stops rightOrdered⟩
    · obtain ⟨proper, starts, stops⟩ := behind.inside mark inRight
      exact ⟨proper, Nat.le_trans leftOrdered starts, stops⟩
  case nested =>
    refine List.pairwise_append.mpr ⟨before.nested, behind.nested, ?_⟩
    intro earlier inLeft later inRight
    exact .inr (Nat.le_trans (before.inside earlier inLeft).2.2 (behind.inside later inRight).2.1)
  case counted =>
    intro index mark found
    by_cases inLeft : index < left.length
    · rw [List.getElem?_append_left inLeft] at found
      rw [List.take_append_of_le_length (Nat.le_of_lt inLeft)]
      exact before.counted index mark found
    · have beyond := Nat.not_lt.mp inLeft
      rw [List.getElem?_append_right beyond] at found
      obtain ⟨proper, starts, _⟩ := behind.inside mark (List.mem_of_getElem? found)
      have none := before.filter_of_apart proper (.inr starts)
      rw [List.take_append, List.take_of_length_le beyond, List.countP_append,
        List.countP_eq_length_filter (l := left), none, List.length_nil, Nat.zero_add]
      exact behind.counted _ mark found
  case tiled =>
    rw [List.map_append]
    exact before.tiled.append behind.tiled
  case innermost =>
    intro leaf member
    rw [ScopedRange.innermost?, List.filter_append]
    rcases List.mem_append.mp member with inLeft | inRight
    · obtain ⟨proper, _, stops⟩ := before.leaf_within inLeft
      rw [behind.filter_of_apart proper (.inl stops), List.append_nil]
      exact before.innermost leaf inLeft
    · obtain ⟨proper, starts, _⟩ := behind.leaf_within inRight
      rw [before.filter_of_apart proper (.inr starts), List.nil_append]
      exact behind.innermost leaf inRight

theorem marked {scope : Scope} (listed : Listing first last (depth + 1) (some scope) ranges leaves)
    (proper : first < last) :
    Listing first last depth around (⟨scope, first, last, depth⟩ :: ranges) leaves := by
  constructor
  case tiled => exact listed.tiled
  case inside =>
    exact List.forall_mem_cons.mpr ⟨⟨proper, Nat.le_refl _, Nat.le_refl _⟩, listed.inside⟩
  case nested =>
    exact List.pairwise_cons.mpr
      ⟨fun later member => .inl (listed.inside later member).2, listed.nested⟩
  case counted =>
    intro index mark found
    cases index with
    | zero =>
        obtain rfl : _ = mark := Option.some.inj found
        rfl
    | succ index =>
        have around : Within mark.range (ScopedRange.range ⟨scope, first, last, depth⟩) :=
          (listed.inside mark (List.mem_of_getElem? found)).2
        rw [List.take_succ_cons, List.countP_cons, if_pos (decide_eq_true around),
          listed.counted index mark found]
        omega
  case innermost =>
    intro leaf member
    have around : Within leaf.range (ScopedRange.range ⟨scope, first, last, depth⟩) :=
      (listed.leaf_within member).2
    rw [ScopedRange.innermost?, List.filter_cons, if_pos (decide_eq_true around), List.getLast?_cons,
      listed.innermost leaf member, ScopedRange.innermost?]
    cases (ranges.filter fun mark => decide (Within leaf.range mark.range)).getLast? with
    | none => rfl
    | some last => rfl

end Listing

namespace Node

/-- Siblings in a row are listed in order, when each of them is. -/
theorem listed_of_each (depth : Nat) (around : Option Scope) {nodes : List Node} :
    ∀ {first last : Nat}, Tiles first last nodes →
      (∀ node ∈ nodes, Listing node.start node.stop depth around (node.scopes depth)
        (node.leaves around)) →
        Listing first last depth around (scopesAll depth nodes) (leavesAll around nodes) := by
  induction nodes with
  | nil =>
      intro first last tiled _
      exact tiled ▸ .nil first
  | cons node rest ih =>
      rintro first last ⟨rfl, tiled⟩ each
      exact (each node List.mem_cons_self).append
        (ih tiled fun other member => each other (List.mem_cons_of_mem _ member))

theorem Sound.listed {node : Node} (sound : node.Sound) : ∀ depth around,
    Listing node.start node.stop depth around (node.scopes depth) (node.leaves around) := by
  induction sound with
  | text proper => exact fun _ _ => .text proper
  | @marked scope start stop children proper tiled apart sound ih =>
      intro depth around
      have below := listed_of_each (depth + 1) (some scope) tiled
        fun child member => ih child member (depth + 1) (some scope)
      exact below.marked proper

theorem Fills.listed {first last : Nat} {nodes : List Node} (filled : Fills first last nodes)
    (depth : Nat) (around : Option Scope) :
    Listing first last depth around (scopesAll depth nodes) (leavesAll around nodes) :=
  listed_of_each depth around filled.tiled
    fun node member => (filled.sound node member).listed depth around

end Node

end Highlighting
