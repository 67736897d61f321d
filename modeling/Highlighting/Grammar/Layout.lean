import Highlighting.Grammar.Basic
import Highlighting.Grammar.Error

/-! # The layout of a grammar

The rules of a language are laid out in one list, a container before the rules in it, and numbered by
their place. An entry of a rule list then stands for a number, at once or by a name to look up. -/
set_option autoImplicit false
namespace Highlighting

/-- What an entry of a rule list stands for. -/
inductive Slot where
  | rule (index : Nat)
  | named (name : String)
deriving DecidableEq, Repr

inductive Definition where
  | single (rule : Single)
  | parts (rule : Parts)
  | container (rule : Container) (slots : List Slot)
deriving DecidableEq, Repr

/-- The numbers of the named containers. -/
abbrev RuleNames := List (String × Nat)

namespace RuleNames

/-- A name can be given once. -/
def add? (names : RuleNames) (name : Option String) (index : Nat) : Except GrammarError RuleNames :=
  match name with
  | none => .ok names
  | some name => if (names.lookup name).isSome then .error (.duplicateRule name)
      else .ok ((name, index) :: names)

end RuleNames

namespace Slot

def resolve (names : RuleNames) : Slot → Except GrammarError Nat
  | rule index => .ok index
  | named name => match names.lookup name with
      | some index => .ok index
      | none => .error (.unknownRule name)

def resolveAll (names : RuleNames) : List Slot → Except GrammarError (List Nat)
  | [] => .ok []
  | slot :: rest => do
      let index ← slot.resolve names
      let indices ← resolveAll names rest
      return index :: indices

end Slot

mutual

/-- Lays an entry out from number `next` on, inside the container `owner`, with the names given so
far. Gives what the entry stands for, the definitions in it and the names given then. -/
def Entry.layOut (owner : Option Nat) (next : Nat) (names : RuleNames) :
    Entry → Except GrammarError (Slot × List Definition × RuleNames)
  | .single rule => .ok (.rule next, [.single rule], names)
  | .parts rule => .ok (.rule next, [.parts rule], names)
  | .container rule rules => do
      let extended ← names.add? rule.name next
      let (slots, inner, all) ← Entry.layOutList (some next) (next + 1) extended rules
      return (.rule next, .container rule slots :: inner, all)
  | .named name => .ok (.named name, [], names)
  | .enclosing => match owner with
      | some index => .ok (.rule index, [], names)
      | none => .error .enclosingOutside

def Entry.layOutList (owner : Option Nat) (next : Nat) (names : RuleNames) :
    List Entry → Except GrammarError (List Slot × List Definition × RuleNames)
  | [] => .ok ([], [], names)
  | entry :: rest => do
      let (slot, first, extended) ← entry.layOut owner next names
      let (slots, others, all) ← Entry.layOutList owner (next + first.length) extended rest
      return (slot :: slots, first ++ others, all)

end

end Highlighting
