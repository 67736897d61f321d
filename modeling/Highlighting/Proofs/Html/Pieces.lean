import Highlighting.Html

/-! # The pieces of HTML

Written HTML is a row of pieces: characters of the text, and tags that open or close a span. What is
written for a piece is never the start of what is written for another, so that the pieces can be read
off one by one. -/
set_option autoImplicit false
namespace Highlighting.Html

inductive Piece where
  | char (c : Char)
  | opening (scope : Scope)
  | closing
deriving DecidableEq, Repr

namespace Piece

def written : Piece → List Char
  | char c => escapeChar c
  | opening scope => openTag scope
  | closing => closeTag

mutual

def ofNode (source : Source) : Node → List Piece
  | .text start stop => (source.part start stop).map char
  | .marked scope _ _ children => [opening scope] ++ ofNodes source children ++ [closing]

def ofNodes (source : Source) : List Node → List Piece
  | [] => []
  | node :: rest => ofNode source node ++ ofNodes source rest

end

/-- What is written for some pieces, one behind the other. -/
def writtenAll (pieces : List Piece) : List Char :=
  pieces.flatMap written

theorem writtenAll_append (left right : List Piece) :
    writtenAll (left ++ right) = writtenAll left ++ writtenAll right :=
  List.flatMap_append

theorem writtenAll_chars (text : List Char) : writtenAll (text.map char) = escape text :=
  List.flatMap_map ..

mutual

theorem written_ofNode (source : Source) :
    ∀ node : Node, writtenAll (ofNode source node) = Html.ofNode source node
  | .text start stop => writtenAll_chars (source.part start stop)
  | .marked scope _ _ children => by
      rw [ofNode, writtenAll_append, writtenAll_append, written_ofNodes source children, Html.ofNode]
      simp [writtenAll, written]

theorem written_ofNodes (source : Source) :
    ∀ nodes : List Node, writtenAll (ofNodes source nodes) = Html.ofNodes source nodes
  | [] => rfl
  | node :: rest => by
      rw [ofNodes, writtenAll_append, written_ofNode source node, written_ofNodes source rest,
        Html.ofNodes]

end

/-! ## Reading pieces -/

/-- The characters that are written as entities. -/
def special : List Char := ['&', '<', '>', '"', '\'']

/-- The pieces that are written with more than one character. -/
def marks : List Piece :=
  closing :: Scope.all.map opening ++ special.map char

/-- No mark is written like the start of another. -/
theorem marks_prefixFree : ∀ left ∈ marks, ∀ right ∈ marks, left.written <+: right.written → left = right := by
  decide +kernel

theorem marks_start : ∀ mark ∈ marks, mark.written.head? ∈ [some '<', some '&'] := by
  decide +kernel

theorem written_plain {c : Char} (plain : c ∉ special) : (char c).written = [c] := by
  simp only [special, List.mem_cons, List.not_mem_nil, or_false, not_or] at plain
  obtain ⟨ampersand, less, greater, quote, apostrophe⟩ := plain
  simp only [written]
  unfold escapeChar
  split <;> first | contradiction | rfl

/-- A piece is a mark or a character that stands for itself. -/
theorem mem_marks_or_plain (piece : Piece) :
    piece ∈ marks ∨ ∃ c, c ∉ special ∧ piece = char c := by
  cases piece with
  | closing => exact .inl List.mem_cons_self
  | opening scope =>
      refine .inl (List.mem_append_left _ (List.mem_cons_of_mem _ ?_))
      exact List.mem_map_of_mem (Scope.mem_all scope)
  | char c =>
      by_cases marked : c ∈ special
      · exact .inl (List.mem_append_right _ (List.mem_map_of_mem marked))
      · exact .inr ⟨c, marked, rfl⟩

/-- Reads the first piece of a text and gives what is behind it. -/
def next? (text : List Char) : Option (Piece × List Char) :=
  match marks.find? (·.written.isPrefixOf text) with
  | some mark => some (mark, text.drop mark.written.length)
  | none =>
      match text with
      | [] => none
      | c :: rest => if c ∈ special then none else some (char c, rest)

theorem next?_written (piece : Piece) (rest : List Char) :
    next? (piece.written ++ rest) = some (piece, rest) := by
  rcases piece.mem_marks_or_plain with marked | ⟨c, plain, rfl⟩
  · have found : marks.find? (·.written.isPrefixOf (piece.written ++ rest)) = some piece := by
      have some : (marks.find? (·.written.isPrefixOf (piece.written ++ rest))).isSome = true := by
        rw [List.find?_isSome]
        exact ⟨piece, marked, List.isPrefixOf_iff_prefix.mpr (List.prefix_append _ _)⟩
      obtain ⟨other, first⟩ := Option.isSome_iff_exists.mp some
      have listed := List.mem_of_find?_eq_some first
      have starts := List.find?_some first
      have begins : other.written <+: piece.written ++ rest := List.isPrefixOf_iff_prefix.mp starts
      -- Both are written at the start of the text, so that one starts like the other.
      rcases List.prefix_or_prefix_of_prefix begins (List.prefix_append _ _) with shorter | longer
      · rwa [marks_prefixFree other listed piece marked shorter] at first
      · rwa [← marks_prefixFree piece marked other listed longer] at first
    simp only [next?, found, List.drop_left]
  · have unmarked : marks.find? (·.written.isPrefixOf ((char c).written ++ rest)) = none := by
      rw [List.find?_eq_none]
      intro mark listed begins
      have start := (List.isPrefixOf_iff_prefix.mp begins)
      have head := marks_start mark listed
      rw [written_plain plain] at start
      cases text : mark.written with
      | nil => simp [text] at head
      | cons first others =>
          rw [text] at start head
          obtain rfl : first = c := (List.cons_prefix_cons.mp start).1
          simp only [List.head?_cons, List.mem_cons, Option.some.injEq, List.not_mem_nil, or_false] at head
          rcases head with rfl | rfl <;> exact plain (by decide)
    rw [next?.eq_def, unmarked, written_plain plain]
    exact if_neg plain

theorem written_ne_nil (piece : Piece) : piece.written ≠ [] := by
  rcases piece.mem_marks_or_plain with marked | ⟨c, plain, rfl⟩
  · intro empty
    have head := marks_start piece marked
    simp [empty] at head
  · rw [written_plain plain]
    exact List.cons_ne_nil c []

/-- Reads a text off piece by piece. A piece is a character at least. -/
def readAll : (room : Nat) → List Char → Option (List Piece)
  | _, [] => some []
  | 0, _ :: _ => none
  | room + 1, c :: rest => do
      let (piece, behind) ← next? (c :: rest)
      let pieces ← readAll room behind
      return piece :: pieces

theorem readAll_written (pieces : List Piece) :
    ∀ {room : Nat}, (writtenAll pieces).length ≤ room → readAll room (writtenAll pieces) = some pieces := by
  induction pieces with
  | nil => intro room _; cases room <;> rfl
  | cons piece rest ih =>
      intro room enough
      have split : writtenAll (piece :: rest) = piece.written ++ writtenAll rest := rfl
      obtain ⟨c, others, written⟩ := List.exists_cons_of_ne_nil piece.written_ne_nil
      have whole : writtenAll (piece :: rest) = c :: (others ++ writtenAll rest) := by
        rw [split, written, List.cons_append]
      have next : next? (c :: (others ++ writtenAll rest)) = some (piece, writtenAll rest) := by
        rw [← whole, split]
        exact next?_written piece _
      rw [whole, List.length_cons, List.length_append] at enough
      cases room with
      | zero => omega
      | succ room =>
          have behind : readAll room (writtenAll rest) = some rest := ih (by omega)
          rw [whole, readAll, next]
          simp [behind]

end Piece

/-! ## Tags -/

/-- Wherever the sign stands in the text, one of the marks starts. -/
def Introduces (sign : Char) (marks : List (List Char)) (text : List Char) : Prop :=
  ∀ ⦃before after⦄, text = before ++ sign :: after → ∃ mark ∈ marks, mark <+: sign :: after

namespace Introduces
variable {sign : Char} {marks : List (List Char)}

theorem nil : Introduces sign marks [] := by
  intro before after split
  simp at split

theorem append {left right : List Char} (first : Introduces sign marks left)
    (second : Introduces sign marks right) : Introduces sign marks (left ++ right) := by
  intro before after split
  rcases List.append_eq_append_iff.mp split with ⟨more, rfl, behind⟩ | ⟨more, within, behind⟩
  · exact second behind
  · cases more with
    | nil =>
        have starts : right = [] ++ sign :: after := behind.symm
        exact second starts
    | cons start others =>
        obtain ⟨rfl, rfl⟩ := List.cons.inj behind
        obtain ⟨mark, listed, starts⟩ := first within
        exact ⟨mark, listed, starts.trans (List.prefix_append (sign :: others) right)⟩

/-- A sign that can only stand at the start of the text introduces the text. -/
theorem ofStart {text : List Char} (once : sign ∉ text.tail)
    (listed : sign ∈ text.head? → text ∈ marks) : Introduces sign marks text := by
  intro before after split
  cases before with
  | nil =>
      obtain rfl : text = sign :: after := split
      exact ⟨sign :: after, listed rfl, List.prefix_rfl⟩
  | cons first before =>
      rw [split] at once
      exact absurd (List.mem_append_right before List.mem_cons_self) once

end Introduces

namespace Piece

/-- What opens or closes a span. -/
def tags : List (List Char) :=
  closeTag :: Scope.all.map openTag

/-- No piece has a sign for the start of a tag but at the start of a tag. -/
theorem less_written (piece : Piece) :
    '<' ∉ piece.written.tail ∧ ('<' ∈ piece.written.head? → piece.written ∈ tags) := by
  rcases piece.mem_marks_or_plain with marked | ⟨c, plain, rfl⟩
  · have all : ∀ mark ∈ marks,
        '<' ∉ mark.written.tail ∧ ('<' ∈ mark.written.head? → mark.written ∈ tags) := by
      decide +kernel
    exact all piece marked
  · rw [written_plain plain]
    refine ⟨List.not_mem_nil, ?_⟩
    intro less
    obtain rfl : c = '<' := Option.some.inj less
    exact absurd (by decide) plain

theorem tag_of_less (pieces : List Piece) : Introduces '<' tags (writtenAll pieces) := by
  induction pieces with
  | nil => exact .nil
  | cons piece rest ih =>
      obtain ⟨once, listed⟩ := less_written piece
      exact (Introduces.ofStart once listed).append ih

end Piece

/-- Text in which every tag that opens a span is followed by the one that closes it, with such text
between them, and no other character starts a tag. -/
inductive Balanced : List Char → Prop where
  | nil : Balanced []
  | char {c : Char} {rest : List Char} (plain : c ≠ '<') (behind : Balanced rest) : Balanced (c :: rest)
  | span {scope : Scope} {inner rest : List Char} (inside : Balanced inner) (behind : Balanced rest) :
      Balanced (openTag scope ++ inner ++ closeTag ++ rest)

theorem Balanced.append {left right : List Char} (first : Balanced left) (second : Balanced right) :
    Balanced (left ++ right) := by
  induction first with
  | nil => exact second
  | char plain behind ih => exact .char plain ih
  | span inside behind _ ih =>
      rw [List.append_assoc]
      exact .span inside ih

theorem escape_balanced (text : List Char) : Balanced (escape text) := by
  have entity : ∀ c, Balanced (escapeChar c) := by
    intro c
    unfold escapeChar
    split
    case h_6 _ less _ _ _ => exact .char less .nil
    all_goals repeat first | exact .nil | refine .char (by decide) ?_
  induction text with
  | nil => exact .nil
  | cons c rest ih => exact (entity c).append ih

mutual

theorem ofNode_balanced (source : Source) : ∀ node : Node, Balanced (ofNode source node)
  | .text start stop => escape_balanced (source.part start stop)
  | .marked scope _ _ children => by
      have inside := ofNodes_balanced source children
      rw [ofNode, ← List.append_nil (openTag scope ++ _ ++ closeTag)]
      exact .span inside .nil

theorem ofNodes_balanced (source : Source) : ∀ nodes : List Node, Balanced (ofNodes source nodes)
  | [] => .nil
  | node :: rest => (ofNode_balanced source node).append (ofNodes_balanced source rest)

end

end Highlighting.Html
