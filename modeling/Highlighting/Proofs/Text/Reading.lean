import Highlighting.Pattern.Escape
import Highlighting.Text.Position
import Highlighting.Text.Quoted

/-! # Reading back spans and quoted text

A span is written in digits with signs between them, and no sign is a digit, so that it can be cut at its
signs. In quoted text every backslash starts an escape, and the characters behind it tell which one. The
number of a code point goes up to a brace. Neither writing has a tab or a line feed in it. -/
set_option autoImplicit false
namespace Highlighting

/-- A pair is cut at the sign between its parts. -/
theorem splitOn_pair {sign : Char} {left right : List Char} (before : sign ∉ left)
    (behind : sign ∉ right) : (left ++ sign :: right).splitOn sign = [left, right] := by
  rw [List.splitOn_append_cons_self_of_not_mem before, List.splitOn_eq_singleton behind]

/-- Text that fits in a field of a line. -/
def InField (text : List Char) : Prop :=
  '\t' ∉ text ∧ '\n' ∉ text

instance (text : List Char) : Decidable (InField text) :=
  inferInstanceAs (Decidable (_ ∧ _))

namespace InField

theorem of_each {text : List Char} (allowed : Char → Prop) (each : ∀ c ∈ text, allowed c)
    (tab : ¬ allowed '\t') (feed : ¬ allowed '\n') : InField text :=
  ⟨fun member => tab (each _ member), fun member => feed (each _ member)⟩

theorem append {left right : List Char} (before : InField left) (behind : InField right) :
    InField (left ++ right) := by
  simp only [InField, List.mem_append, not_or]
  exact ⟨⟨before.1, behind.1⟩, before.2, behind.2⟩

theorem flatMap {write : Char → List Char} (each : ∀ c, InField (write c)) (text : List Char) :
    InField (text.flatMap write) := by
  induction text with
  | nil => exact ⟨List.not_mem_nil, List.not_mem_nil⟩
  | cons c rest ih => exact (each c).append ih

end InField

/-! ## Spans -/

def readNumber? (digits : List Char) : Option Nat :=
  if digits ≠ [] ∧ digits.all (·.isDigit) then some (Nat.ofDigitChars 10 digits 0) else none

theorem isDigit_of_mem_repr {number : Nat} {c : Char} (member : c ∈ number.repr.toList) :
    c.isDigit = true := by
  rw [Nat.toList_repr] at member
  exact Nat.isDigit_of_mem_toDigits (by decide) (by decide) member

theorem readNumber?_repr (number : Nat) : readNumber? number.repr.toList = some number := by
  have digits : number.repr.toList.all (·.isDigit) = true :=
    List.all_eq_true.mpr fun _ => isDigit_of_mem_repr
  rw [Nat.toList_repr] at digits ⊢
  rw [readNumber?, if_pos ⟨Nat.toDigits_ne_nil, digits⟩, Nat.ofDigitChars_ten_toDigits]

namespace Position

def read? (written : List Char) : Option Position :=
  match written.splitOn ':' with
  | [line, column] => do return ⟨← readNumber? line, ← readNumber? column⟩
  | _ => none

theorem toList_toString (position : Position) :
    position.toString.toList = position.line.repr.toList ++ ':' :: position.column.repr.toList := by
  have written : position.toString = position.line.repr ++ ":" ++ position.column.repr := rfl
  rw [written, String.toList_append, String.toList_append, List.append_assoc]
  rfl

theorem char_of_written {position : Position} {c : Char} (member : c ∈ position.toString.toList) :
    c.isDigit = true ∨ c = ':' := by
  rw [toList_toString, List.mem_append, List.mem_cons] at member
  rcases member with inLine | rfl | inColumn
  · exact .inl (isDigit_of_mem_repr inLine)
  · exact .inr rfl
  · exact .inl (isDigit_of_mem_repr inColumn)

theorem read?_written (position : Position) : read? position.toString.toList = some position := by
  have apart (number : Nat) : ':' ∉ number.repr.toList :=
    fun member => absurd (isDigit_of_mem_repr member) (by decide)
  simp only [read?, toList_toString, splitOn_pair (apart _) (apart _), readNumber?_repr]
  rfl

end Position

namespace Span

def read? (written : List Char) : Option Span :=
  match written.splitOn '-' with
  | [start, stop] => do return ⟨← Position.read? start, ← Position.read? stop⟩
  | _ => none

theorem toList_toString (span : Span) :
    span.toString.toList = span.start.toString.toList ++ '-' :: span.stop.toString.toList := by
  rw [toString, String.toList_append, String.toList_append, List.append_assoc]
  rfl

theorem read?_written (span : Span) : read? span.toString.toList = some span := by
  have apart (position : Position) : '-' ∉ position.toString.toList :=
    fun member => absurd (Position.char_of_written member) (by decide)
  simp only [read?, toList_toString, splitOn_pair (apart _) (apart _), Position.read?_written]
  rfl

theorem char_of_written {span : Span} {c : Char} (member : c ∈ span.toString.toList) :
    c.isDigit = true ∨ c = ':' ∨ c = '-' := by
  rw [toList_toString, List.mem_append, List.mem_cons] at member
  rcases member with inStart | rfl | inStop
  · exact (Position.char_of_written inStart).imp_right .inl
  · exact .inr (.inr rfl)
  · exact (Position.char_of_written inStop).imp_right .inl

theorem written_inField (span : Span) : InField span.toString.toList :=
  .of_each _ (fun _ => char_of_written) (by decide) (by decide)

end Span

/-! ## Quoted text -/

/-- The digits of a number in hexadecimal. -/
theorem toDigits_hex (number : Nat) :
    ∃ digits : List Nat, (∀ digit ∈ digits, digit < 16) ∧
      Nat.toDigits 16 number = digits.map Nat.digitChar ∧
      digits.foldl (fun value digit => value * 16 + digit) 0 = number := by
  induction number using Nat.strongRecOn with
  | ind number ih =>
      rw [Nat.toDigits_eq_if (by decide)]
      split
      · next small =>
          refine ⟨[number], ?_, rfl, by simp⟩
          intro digit member
          rwa [List.mem_singleton.mp member]
      · next large =>
          obtain ⟨digits, small, written, value⟩ := ih (number / 16) (by omega)
          refine ⟨digits ++ [number % 16], ?_, by simp [written], ?_⟩
          · intro digit member
            rcases List.mem_append.mp member with first | last
            · exact small digit first
            · rw [List.mem_singleton.mp last]
              exact Nat.mod_lt _ (by decide)
          · rw [List.foldl_append, value, List.foldl_cons, List.foldl_nil, Nat.mul_comm, Nat.div_add_mod]

namespace Quoted

/-- The characters that are escaped by one character, with it. -/
def letters : List (Char × Char) :=
  [('"', '"'), ('\\', '\\'), ('n', '\n'), ('r', '\r'), ('t', '\t'), ('0', '\x00')]

/-- Undoes the escapes up to the quote at the end. A code point that has been started is given by the
number that its digits come to so far. -/
def decodeFrom? : (started : Option Nat) → List Char → Option (List Char)
  | _, [] => none
  | some number, c :: rest =>
      if c = '\x7d' then
        if number.isValidChar then (decodeFrom? none rest).map (Char.ofNat number :: ·) else none
      else do
        let digit ← Pattern.Escape.hexDigit? c
        decodeFrom? (some (number * 16 + digit)) rest
  | none, ['"'] => some []
  | none, '\\' :: 'u' :: '\x7b' :: rest => decodeFrom? (some 0) rest
  | none, '\\' :: letter :: rest => do
      let c ← letters.lookup letter
      (decodeFrom? none rest).map (c :: ·)
  | none, c :: rest =>
      if c = '"' ∨ c = '\\' then none else (decodeFrom? none rest).map (c :: ·)

/-- The text that has been written in quotes. -/
def decode? : List Char → Option (List Char)
  | '"' :: rest => decodeFrom? none rest
  | _ => none

theorem hexDigit?_digitChar : ∀ digit < 16,
    Nat.digitChar digit ≠ '\x7d' ∧ Pattern.Escape.hexDigit? (Nat.digitChar digit) = some digit := by
  decide

theorem decodeFrom?_digits {digits : List Nat} (rest : List Char) :
    ∀ {number : Nat}, (∀ digit ∈ digits, digit < 16) →
      decodeFrom? (some number) (digits.map Nat.digitChar ++ rest) =
        decodeFrom? (some (digits.foldl (fun value digit => value * 16 + digit) number)) rest := by
  induction digits with
  | nil => exact fun _ => rfl
  | cons digit others ih =>
      intro number small
      obtain ⟨noBrace, known⟩ := hexDigit?_digitChar digit (small digit List.mem_cons_self)
      rw [List.map_cons, List.cons_append, decodeFrom?, if_neg noBrace, known]
      exact ih fun other member => small other (List.mem_cons_of_mem _ member)

theorem decodeFrom?_codePoint (c : Char) (rest : List Char) :
    decodeFrom? none (codePoint c ++ rest) = (decodeFrom? none rest).map (c :: ·) := by
  obtain ⟨digits, small, written, value⟩ := toDigits_hex c.toNat
  have valid : c.toNat.isValidChar := c.valid
  have split : codePoint c ++ rest =
      '\\' :: 'u' :: '\x7b' :: (digits.map Nat.digitChar ++ '\x7d' :: rest) := by
    simp [codePoint, written]
  rw [split, decodeFrom?, decodeFrom?_digits _ small, value, decodeFrom?, if_pos rfl, if_pos valid,
    Char.ofNat_toNat]

theorem decodeFrom?_plain {c : Char} (quote : c ≠ '"') (backslash : c ≠ '\\') (rest : List Char) :
    decodeFrom? none (c :: rest) = (decodeFrom? none rest).map (c :: ·) := by
  rw [decodeFrom?, if_neg (not_or.mpr ⟨quote, backslash⟩)]
  · exact fun absurdity => absurd absurdity quote
  · exact fun _ absurdity => absurd absurdity backslash
  · exact fun _ _ absurdity => absurd absurdity backslash

theorem decodeFrom?_escape (c : Char) (rest : List Char) :
    decodeFrom? none (escape c ++ rest) = (decodeFrom? none rest).map (c :: ·) := by
  unfold escape
  split
  case h_7 quote backslash _ _ _ _ =>
    split
    · exact decodeFrom?_codePoint c rest
    · exact decodeFrom?_plain quote backslash rest
  all_goals rfl

theorem decode?_encode (text : List Char) : decode? (encode text) = some text := by
  have inside : decodeFrom? none (text.flatMap escape ++ ['"']) = some text := by
    induction text with
    | nil => rfl
    | cons c rest ih => rw [List.flatMap_cons, List.append_assoc, decodeFrom?_escape, ih, Option.map_some]
  exact inside

theorem codePoint_inField (c : Char) : InField (codePoint c) := by
  obtain ⟨digits, small, written, _⟩ := toDigits_hex c.toNat
  have inside : InField (Nat.toDigits 16 c.toNat) := by
    refine .of_each (fun d => (Pattern.Escape.hexDigit? d).isSome) ?_ (by decide) (by decide)
    intro d member
    rw [written] at member
    obtain ⟨digit, listed, rfl⟩ := List.mem_map.mp member
    rw [(hexDigit?_digitChar digit (small digit listed)).2]
    rfl
  have signs : InField ['\\', 'u', '\x7b'] := by decide
  exact (signs.append inside).append (by decide)

theorem escape_inField (c : Char) : InField (escape c) := by
  unfold escape
  split
  case h_7 feed _ tab _ =>
    split
    · exact codePoint_inField c
    · exact ⟨fun member => tab (List.mem_singleton.mp member).symm,
        fun member => feed (List.mem_singleton.mp member).symm⟩
  all_goals decide

theorem encode_inField (text : List Char) : InField (encode text) := by
  have quote : InField ['"'] := by decide
  exact (quote.append (.flatMap escape_inField text)).append quote

end Quoted

end Highlighting
