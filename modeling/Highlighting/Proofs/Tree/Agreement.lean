import Highlighting.Proofs.Checked.Views
import Highlighting.Proofs.Tree.Listing

/-! # Tokens and regions

A result whose nodes fill its source tells the same by its tokens and by its regions. Regions lie inside
one another or apart, the earlier regions around a region are as many as its depth, and the last region
around a token gives its scope. Each piece stands in the source where its range and its span say. -/
set_option autoImplicit false
namespace Highlighting

def Token.range (token : Token) : Nat × Nat :=
  (token.start, token.stop)

def Region.range (region : Region) : Nat × Nat :=
  (region.start, region.stop)

/-- What a token is in the listing of a tree over bytes. -/
def Token.leaf (token : Token) : Leaf :=
  ⟨token.scope, token.start, token.stop⟩

def Region.listed (region : Region) : ScopedRange :=
  ⟨region.scope, region.start, region.stop, region.depth⟩

namespace Highlight

/-- The tokens and the regions of a result agree with each other and with its source. -/
structure Agrees (highlight : Highlight) : Prop where
  /-- A later region lies in an earlier one or behind it. -/
  nested : highlight.regions.Pairwise fun earlier later =>
    Within later.range earlier.range ∨ earlier.stop ≤ later.start
  counted : ∀ index region, highlight.regions[index]? = some region →
    region.depth =
      (highlight.regions.take index).countP fun earlier => Within region.range earlier.range
  innermost : ∀ token ∈ highlight.tokens,
    token.scope =
      (highlight.regions.filter fun region => Within token.range region.range).getLast?.map (·.scope)
  plain : ∀ token ∈ highlight.tokens,
    token.scope = none ↔ ∀ region ∈ highlight.regions, ¬ Within token.range region.range
  tiled : Tiling 0 highlight.source.toString.utf8ByteSize (highlight.tokens.map (·.range))
  tokens_stand : ∀ token ∈ highlight.tokens,
    highlight.source.HasPiece token.text token.range token.span
  regions_stand : ∀ region ∈ highlight.regions,
    highlight.source.HasPiece region.text region.range region.span
  joined : highlight.tokens.IsChain fun left right => right.span.start = left.span.stop

variable {highlight : Highlight}

theorem tokens_map_leaf (highlight : Highlight) :
    highlight.tokens.map (·.leaf) =
      Node.leavesAll none (Node.inBytesAll highlight.source highlight.nodes) := by
  rw [tokens_eq, List.map_map, Node.leavesAll_inBytes]
  rfl

theorem regions_map_listed (highlight : Highlight) :
    highlight.regions.map (·.listed) =
      Node.scopesAll 0 (Node.inBytesAll highlight.source highlight.nodes) := by
  rw [regions_eq, List.map_map, Node.scopesAll_inBytes]
  rfl

/-- The tokens and the regions are the listing of a tree over bytes. -/
theorem WellFormed.listing (formed : highlight.WellFormed) :
    Listing 0 highlight.source.toString.utf8ByteSize 0 none (highlight.regions.map (·.listed))
      (highlight.tokens.map (·.leaf)) := by
  have bytes := (Node.Fills.inBytes highlight.source formed (Nat.le_refl _)).listed 0 none
  rwa [Source.offset_zero, Source.offset_size, ← tokens_map_leaf, ← regions_map_listed] at bytes

theorem WellFormed.tokens_stand (formed : highlight.WellFormed) :
    ∀ token ∈ highlight.tokens, highlight.source.HasPiece token.text token.range token.span := by
  intro token member
  rw [tokens_eq] at member
  obtain ⟨leaf, listed, rfl⟩ := List.mem_map.mp member
  obtain ⟨proper, _, inside⟩ := (Node.Fills.listed formed 0 none).leaf_within listed
  exact highlight.source.hasPiece_slice (Nat.le_of_lt proper) inside

theorem WellFormed.regions_stand (formed : highlight.WellFormed) :
    ∀ region ∈ highlight.regions, highlight.source.HasPiece region.text region.range region.span := by
  intro region member
  rw [regions_eq] at member
  obtain ⟨mark, listed, rfl⟩ := List.mem_map.mp member
  obtain ⟨proper, _, inside⟩ := (Node.Fills.listed formed 0 none).inside mark listed
  exact highlight.source.hasPiece_slice (Nat.le_of_lt proper) inside

/-- The span of a token starts where the one before it ends, since the place is the same. -/
theorem WellFormed.tokens_joined (formed : highlight.WellFormed) :
    highlight.tokens.IsChain fun left right => right.span.start = left.span.stop := by
  have chain := (Node.Fills.listed formed 0 none).tiled.isChain
  rw [List.isChain_map] at chain
  rw [tokens_eq, List.isChain_map]
  refine chain.imp ?_
  intro left right meets
  exact congrArg highlight.source.position meets.symm

theorem WellFormed.agrees (formed : highlight.WellFormed) : highlight.Agrees := by
  have listing := formed.listing
  have innermost : ∀ token ∈ highlight.tokens, token.scope =
      (highlight.regions.filter fun region => Within token.range region.range).getLast?.map
        (·.scope) := by
    intro token member
    have inner := listing.innermost token.leaf (List.mem_map_of_mem member)
    rw [Option.or_none, ScopedRange.innermost?, List.filter_map, List.getLast?_map,
      Option.map_map] at inner
    exact inner
  constructor
  case innermost => exact innermost
  case tokens_stand => exact formed.tokens_stand
  case regions_stand => exact formed.regions_stand
  case joined => exact formed.tokens_joined
  case nested => exact List.pairwise_map.mp listing.nested
  case counted =>
    intro index region found
    have marked : (highlight.regions.map (·.listed))[index]? = some region.listed := by
      rw [List.getElem?_map, found]
      rfl
    have counted := listing.counted index region.listed marked
    rw [Nat.zero_add, ← List.map_take, List.countP_map] at counted
    exact counted
  case plain =>
    intro token member
    rw [innermost token member, Option.map_eq_none_iff, List.getLast?_eq_none_iff,
      List.filter_eq_nil_iff]
    simp only [decide_eq_true_eq]
  case tiled =>
    have tiled := listing.tiled
    rw [List.map_map] at tiled
    exact tiled

/-- Whenever its nodes fill its source, the tokens and the regions of a result agree. That is so for
every scan that goes through and takes its matches with their parts in order. -/
theorem tokens_agree_with_regions :
    (∀ highlight : Highlight, highlight.WellFormed → highlight.Agrees) ∧
    ∀ (highlighter : Highlighter) (text : String) (result : Highlight),
      highlighter.TakesInOrder (.ofString text) → highlighter.highlight text = .ok result →
        result.source = .ofString text ∧ result.Agrees := by
  refine ⟨fun _ => WellFormed.agrees, ?_⟩
  intro highlighter text result inOrder highlighted
  obtain ⟨source, formed⟩ := Highlighter.highlight_wellFormed inOrder highlighted
  exact ⟨source, formed.agrees⟩

end Highlight

namespace Titles

/-- Titles in brackets. A title may be a word of its own, which then takes the same range. -/
def language : Language where
  name := "titles"
  rules :=
    [.container { scope := some .metadata, opener := "\\[", closer := "\\]" }
      [.single { scope := some .titleFunction, opener := "[a-zé]+", keywords := some { keyword := ["let"] } }]]

theorem compiles : (Highlighter.ofLanguage language).toOption.isSome = true := by
  decide +kernel

def highlighter : Highlighter :=
  (Highlighter.ofLanguage language).toOption.get compiles

theorem titles_agree :
    ∃ result, highlighter.highlight "é [let é]\nx" = .ok result ∧
      result.regions.map (·.listed) =
        [⟨.metadata, 3, 11, 0⟩, ⟨.titleFunction, 4, 7, 1⟩, ⟨.keyword, 4, 7, 2⟩, ⟨.titleFunction, 8, 10, 1⟩] ∧
      result.source = .ofString "é [let é]\nx" ∧ result.WellFormed ∧ result.Agrees := by
  have inOrder : highlighter.TakesInOrder (.ofString "é [let é]\nx") := by
    decide +kernel
  have regions : (highlighter.highlight "é [let é]\nx").toOption.map
      (fun result => result.regions.map (·.listed)) = some
        [⟨.metadata, 3, 11, 0⟩, ⟨.titleFunction, 4, 7, 1⟩, ⟨.keyword, 4, 7, 2⟩,
          ⟨.titleFunction, 8, 10, 1⟩] := by
    decide +kernel
  cases highlighted : highlighter.highlight "é [let é]\nx" with
  | error illegal =>
      rw [highlighted] at regions
      exact nomatch regions
  | ok result =>
      rw [highlighted] at regions
      have formed := (Highlighter.highlight_wellFormed inOrder highlighted).2
      obtain ⟨source, _⟩ :=
        Highlight.tokens_agree_with_regions.2 highlighter _ result inOrder highlighted
      exact ⟨result, rfl, Option.some.inj regions, source, formed,
        Highlight.tokens_agree_with_regions.1 result formed⟩

end Titles

end Highlighting
