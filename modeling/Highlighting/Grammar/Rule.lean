import Highlighting.Grammar.Layout
import Highlighting.Grammar.Words

/-! # Rules that are ready to match

A definition becomes a rule when its patterns have been read and the entries of its list have become
numbers of rules. -/
set_option autoImplicit false
namespace Highlighting

structure SingleRule where
  scope : Option Scope
  opener : Program
  followedBy : Option Program
  excluded : List String
  fence : Option Fence
  words : Option WordTable
  relevance : Nat
deriving DecidableEq, Repr

structure PartsRule where
  pattern : Program
  /-- The group that holds each part, and the scope of the part. -/
  parts : List (Nat × Option Scope)
  relevance : Nat
deriving DecidableEq, Repr

structure ContainerRule where
  scope : Option Scope
  opener : Program
  closer : Program
  rules : List Nat
  illegal : Option Program
  words : Option WordTable
  relevance : Nat
deriving DecidableEq, Repr

inductive Rule where
  | single (rule : SingleRule)
  | parts (rule : PartsRule)
  | container (rule : ContainerRule)
deriving DecidableEq, Repr

namespace Parts

/-- The name of the group around a part. -/
def groupName (number : Nat) : String :=
  s!"p{number}"

/-- The parts from a number on, each in a group of its own. -/
def assemble (number : Nat) : List String → String
  | [] => ""
  | part :: rest => "(?P<" ++ groupName number ++ ">" ++ part ++ ")" ++ assemble (number + 1) rest

/-- The scope of a part is the first one that is given for its number. -/
def scope? (rule : Parts) (number : Nat) : Option Scope :=
  rule.scopes.lookup number

/-- The group and the scope of every part. A name that the pattern does not give to a group that can
take part stands for the whole match. -/
def located (rule : Parts) (pattern : Pattern) : List (Nat × Option Scope) :=
  (List.range rule.parts.length).map fun i =>
    ((pattern.groupNumber? (groupName (i + 1))).getD 0, rule.scope? (i + 1))

end Parts

namespace Definition

/-- Reads the patterns of a definition in the order in which they are used. -/
def toRule (names : RuleNames) (index : Nat) (definition : Definition)
    (reader : Pattern.Reader := Pattern.parse?) : Except GrammarError Rule :=
  match definition with
  | .single rule => do
      let opener ← readProgram (.rule index) .opener rule.opener reader
      let followedBy ← readProgram? (.rule index) .lookahead rule.followedBy reader
      let words ← WordTable.ofKeywords? (.rule index) rule.keywords reader
      return .single { opener, followedBy, words, scope := rule.scope, excluded := rule.excluded,
                       fence := rule.fence, relevance := rule.relevance }
  | .parts rule => do
      let pattern ← readPattern (.rule index) .parts (Parts.assemble 1 rule.parts) reader
      return .parts { pattern := .ofPattern pattern, parts := rule.located pattern,
                      relevance := rule.relevance }
  | .container rule slots => do
      let opener ← readProgram (.rule index) .opener rule.opener reader
      let closer ← readProgram (.rule index) .closer rule.closer reader
      let rules ← Slot.resolveAll names slots
      let illegal ← readProgram? (.rule index) .illegal rule.illegal reader
      let words ← WordTable.ofKeywords? (.rule index) rule.keywords reader
      return .container { opener, closer, rules, illegal, words, scope := rule.scope,
                          relevance := rule.relevance }

/-- The rules of the definitions, which are numbered from `index` on. -/
def toRules (names : RuleNames) (index : Nat) (definitions : List Definition)
    (reader : Pattern.Reader := Pattern.parse?) : Except GrammarError (List Rule) :=
  match definitions with
  | [] => .ok []
  | definition :: rest => do
      let rule ← definition.toRule names index reader
      let rules ← toRules names (index + 1) rest reader
      return rule :: rules

end Definition

end Highlighting
