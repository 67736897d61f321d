import Highlighting.Grammar.Rule

/-! # Highlighters

A highlighter is a language that is ready to scan. The first error of a language is found in the order
in which its rules are laid out, its list is resolved, its definitions are read, and last its own words
and its marker of illegal text. -/
set_option autoImplicit false
namespace Highlighting

structure Highlighter where
  name : String
  aliases : List String
  rules : Array Rule
  /-- The rules outside of all containers. -/
  root : List Nat
  words : WordTable
  illegal : Option Program
  /-- Whether illegal text is plain text. -/
  ignoreIllegal : Bool := false
deriving DecidableEq, Repr

namespace Highlighter

def ofLanguage (language : Language) (reader : Pattern.Reader := Pattern.parse?) :
    Except GrammarError Highlighter := do
  let (slots, definitions, names) ← Entry.layOutList none 0 [] language.rules
  let root ← Slot.resolveAll names slots
  let rules ← Definition.toRules names 0 definitions reader
  let words ← WordTable.ofKeywords (.language language.name) language.keywords reader
  let illegal ← readProgram? (.language language.name) .illegalMarker language.illegal reader
  return { name := language.name, aliases := language.aliases, rules := rules.toArray, root, words,
           illegal }

end Highlighter

end Highlighting
