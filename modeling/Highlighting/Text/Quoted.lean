import Highlighting.Unicode.Printable

/-! # Quoted text

Text in double quotes on one line: quotes, backslashes and the common controls are escaped by a letter,
and a character that cannot be shown on its own by its code point. -/
set_option autoImplicit false
namespace Highlighting

namespace Quoted

def codePoint (c : Char) : List Char :=
  ['\\', 'u', '\x7b'] ++ Nat.toDigits 16 c.toNat ++ ['\x7d']

def escape (c : Char) : List Char :=
  match c with
  | '"' => ['\\', '"']
  | '\\' => ['\\', '\\']
  | '\n' => ['\\', 'n']
  | '\r' => ['\\', 'r']
  | '\t' => ['\\', 't']
  | '\x00' => ['\\', '0']
  | c => if Unicode.extendsGrapheme c || !Unicode.isPrintable c then codePoint c else [c]

def encode (text : List Char) : List Char :=
  ['"'] ++ text.flatMap escape ++ ['"']

end Quoted

def quoted (text : String) : String :=
  String.ofList (Quoted.encode text.toList)

/-- A list of quoted texts in brackets. -/
def quotedList (texts : List String) : String :=
  "[" ++ ", ".intercalate (texts.map quoted) ++ "]"

end Highlighting
