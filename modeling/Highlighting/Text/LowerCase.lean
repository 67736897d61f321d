import Highlighting.Unicode.Cased
import Highlighting.Unicode.Lower

/-! # Lower case of texts

Names that differ in case only have one lower case. The dotted capital I becomes two characters, and a
capital sigma at the end of a word becomes a final sigma. -/
set_option autoImplicit false
namespace Highlighting

namespace LowerCase

/-- Whether a cased character comes next, looking through characters that case rules ignore. -/
def casedNext (chars : List Char) : Bool :=
  (chars.dropWhile Unicode.isCaseIgnorable).head?.any Unicode.isCased

/-- The lower case of a character behind `before`, which is given backwards, and before `rest`. -/
def ofChar (before : List Char) (c : Char) (rest : List Char) : List Char :=
  if c = 'Σ' then
    if casedNext before && !casedNext rest then ['ς'] else ['σ']
  else if c = 'İ' then ['i', '\u0307']
  else [Unicode.lowerOf c]

def ofChars (before : List Char) : List Char → List Char
  | [] => []
  | c :: rest => ofChar before c rest ++ ofChars (c :: before) rest

end LowerCase

def lowerCase (text : String) : String :=
  String.ofList (LowerCase.ofChars [] text.toList)

end Highlighting
