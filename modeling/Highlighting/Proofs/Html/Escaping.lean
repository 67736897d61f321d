import Highlighting.Proofs.Html.Pieces

/-! # Escaped text

Text is escaped character by character, so that what is written for a text does not depend on what has
been written before it, and two texts in a row are written in a row. The only signs of markup in escaped
text are those that start an entity. Reading the entities from left to right gives the text back, also
where the text itself looks like an entity or is cut inside one. -/
set_option autoImplicit false
namespace Highlighting.Html

def entities : List (List Char) :=
  ["&amp;".toList, "&lt;".toList, "&gt;".toList, "&quot;".toList, "&#x27;".toList]

/-- Reads entities from left to right. Any other character stands for itself, and what an entity has
been read as is not read again. -/
def unescape : List Char → List Char
  | '&' :: 'a' :: 'm' :: 'p' :: ';' :: rest => '&' :: unescape rest
  | '&' :: 'l' :: 't' :: ';' :: rest => '<' :: unescape rest
  | '&' :: 'g' :: 't' :: ';' :: rest => '>' :: unescape rest
  | '&' :: 'q' :: 'u' :: 'o' :: 't' :: ';' :: rest => '"' :: unescape rest
  | '&' :: '#' :: 'x' :: '2' :: '7' :: ';' :: rest => '\'' :: unescape rest
  | c :: rest => c :: unescape rest
  | [] => []

/-- Text that can stand in markup and between its quotes. It opens no tag and ends no quote, and each
ampersand in it starts an entity. -/
structure Inert (text : List Char) : Prop where
  unmarked : ∀ c ∈ ['<', '>', '"', '\''], c ∉ text
  entity : Introduces '&' entities text

namespace Inert

theorem nil : Inert [] where
  unmarked _ _ := List.not_mem_nil
  entity := .nil

theorem append {left right : List Char} (first : Inert left) (second : Inert right) :
    Inert (left ++ right) where
  unmarked c marked member :=
    (List.mem_append.mp member).elim (first.unmarked c marked) (second.unmarked c marked)
  entity := first.entity.append second.entity

theorem ofEntity {entity : List Char} (listed : entity ∈ entities) : Inert entity := by
  have signs : ∀ entity ∈ entities, entity.all (· ∉ ['<', '>', '"', '\'']) ∧ '&' ∉ entity.tail := by
    decide
  obtain ⟨unmarked, once⟩ := signs entity listed
  refine ⟨?_, .ofStart once fun _ => listed⟩
  intro c marked member
  exact of_decide_eq_true (List.all_eq_true.mp unmarked c member) marked

theorem ofPlain {c : Char} (plain : c ∉ Piece.special) : Inert [c] := by
  refine ⟨?_, .ofStart List.not_mem_nil ?_⟩
  · intro sign marked member
    obtain rfl := List.mem_singleton.mp member
    exact plain (List.mem_cons_of_mem '&' marked)
  · intro starts
    obtain rfl : c = '&' := Option.some.inj starts
    exact absurd List.mem_cons_self plain

end Inert

theorem escapeChar_inert (c : Char) : Inert (escapeChar c) := by
  by_cases marked : c ∈ Piece.special
  · have written : Piece.special.all fun c => escapeChar c ∈ entities := by decide
    exact .ofEntity (of_decide_eq_true (List.all_eq_true.mp written c marked))
  · have itself : escapeChar c = [c] := Piece.written_plain marked
    rw [itself]
    exact .ofPlain marked

theorem escape_inert (text : List Char) : Inert (escape text) := by
  induction text with
  | nil => exact .nil
  | cons c rest ih => exact (escapeChar_inert c).append ih

theorem unescape_plain {c : Char} (plain : c ≠ '&') (rest : List Char) :
    unescape (c :: rest) = c :: unescape rest := by
  rw [unescape]
  all_goals exact fun _ ampersand => absurd ampersand plain

theorem unescape_escapeChar (c : Char) (rest : List Char) :
    unescape (escapeChar c ++ rest) = c :: unescape rest := by
  unfold escapeChar
  split
  case h_6 ampersand _ _ _ _ => exact unescape_plain ampersand rest
  all_goals rfl

theorem unescape_escape (text : List Char) : unescape (escape text) = text := by
  induction text with
  | nil => rfl
  | cons c rest ih =>
      have split : escape (c :: rest) = escapeChar c ++ escape rest := rfl
      rw [split, unescape_escapeChar, ih]

example : unescape (escape "&amp;lt;".toList) = "&amp;lt;".toList := by decide

theorem escape_injective {left right : List Char} (same : escape left = escape right) : left = right := by
  rw [← unescape_escape left, same, unescape_escape]

theorem escape_append (left right : List Char) : escape (left ++ right) = escape left ++ escape right :=
  List.flatMap_append

/-- Escaping a text writes it behind what is there, in a form that is the same whatever is there, brings
no markup in and gives the text back when its entities are read. So distinct texts are written in distinct
ways, and two texts, one written behind the other, as if they were one. -/
theorem escapeInto_read_back :
    (∀ text, ∃ written : String, (∀ out, escapeInto out text = out ++ written) ∧
      Inert written.toList ∧ String.ofList (unescape written.toList) = text) ∧
    (∀ out left right, escapeInto out left = escapeInto out right ↔ left = right) ∧
    ∀ out left right, escapeInto (escapeInto out left) right = escapeInto out (left ++ right) := by
  refine ⟨?_, ?_, ?_⟩
  · intro text
    refine ⟨String.ofList (escape text.toList), fun _ => rfl, ?_, ?_⟩
    · rw [String.toList_ofList]
      exact escape_inert text.toList
    · rw [String.toList_ofList, unescape_escape, String.ofList_toList]
  · intro out left right
    refine ⟨?_, congrArg (escapeInto out)⟩
    intro same
    have written := String.append_right_inj out |>.mp same
    exact String.toList_injective (escape_injective (String.ofList_injective written))
  · intro out left right
    rw [escapeInto, escapeInto, escapeInto, String.append_assoc, ← String.ofList_append, ← escape_append,
      ← String.toList_append]

end Highlighting.Html
