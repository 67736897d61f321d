import Highlighting.Grammar.Basic

/-! # Rules that many languages share -/
set_option autoImplicit false
namespace Highlighting.Common

/-- A letter, then letters, digits and underscores. -/
def identifier : String := "[a-zA-Z][a-zA-Z0-9_]*"

/-- An identifier that may start with an underscore. -/
def underscoreIdentifier : String := "[a-zA-Z_][a-zA-Z0-9_]*"

/-- A backslash and the character behind it. -/
def backslashEscape : Single where
  opener := r"\\[\s\S]"
  relevance := 0

/-- Markers in comments, such as `TODO:`. -/
def doctag : Single where
  scope := some .doctag
  opener := r"\b(?:TODO|FIXME|NOTE|BUG|OPTIMIZE|HACK|XXX):"
  relevance := 0

def commentRules : List Entry := [.single doctag]

/-- From two slashes to the end of the line. -/
def lineComment : Container where
  scope := some .comment
  opener := "//"
  closer := "(?m:$)"

/-- Between `/*` and `*/`. -/
def blockComment : Container where
  scope := some .comment
  opener := r"/\*"
  closer := r"\*/"

/-- A string in double quotes on one line. -/
def quotedString : Container where
  scope := some .string
  opener := "\""
  closer := "\""
  illegal := some r"\n"

def quotedStringRules : List Entry := [.single backslashEscape]

end Highlighting.Common
