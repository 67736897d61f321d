import Highlighting.Scope

/-! # Trees

Text is marked by a tree over its places: leaves are ranges of text, and inner nodes are ranges with a
scope. While siblings are collected they stand in reverse, the latest first. Empty text is left out, and
text that follows text is joined to it. -/
set_option autoImplicit false
namespace Highlighting

inductive Node where
  | text (start stop : Nat)
  | marked (scope : Scope) (start stop : Nat) (children : List Node)
deriving Repr

namespace Node

def start : Node → Nat
  | text start _ => start
  | marked _ start _ _ => start

def stop : Node → Nat
  | text _ stop => stop
  | marked _ _ stop _ => stop

/-- A scope over plain text. -/
def leaf (scope : Scope) (start stop : Nat) : Node :=
  marked scope start stop [text start stop]

/-- Adds a node behind its siblings. -/
def push (siblings : List Node) (node : Node) : List Node :=
  match node with
  | text start stop =>
      if stop ≤ start then siblings
      else match siblings with
        | text first last :: rest => if last = start then text first stop :: rest else node :: siblings
        | _ => node :: siblings
  | _ => node :: siblings

/-- Adds several nodes, the first one first. -/
def pushAll (siblings : List Node) (nodes : List Node) : List Node :=
  nodes.foldl push siblings

end Node

/-- A range of plain text with the innermost scope around it. -/
structure Leaf where
  scope : Option Scope
  start : Nat
  stop : Nat
deriving DecidableEq, Repr

/-- A range with a scope, and how many scopes are around it. -/
structure ScopedRange where
  scope : Scope
  start : Nat
  stop : Nat
  depth : Nat
deriving DecidableEq, Repr

mutual

/-- The text ranges of a node from left to right. -/
def Node.leaves (around : Option Scope) : Node → List Leaf
  | .text start stop => [⟨around, start, stop⟩]
  | .marked scope _ _ children => Node.leavesAll (some scope) children

def Node.leavesAll (around : Option Scope) : List Node → List Leaf
  | [] => []
  | node :: rest => node.leaves around ++ Node.leavesAll around rest

end

mutual

/-- The scoped ranges of a node, each before the ones inside it. -/
def Node.scopes (depth : Nat) : Node → List ScopedRange
  | .text _ _ => []
  | .marked scope start stop children =>
      ⟨scope, start, stop, depth⟩ :: Node.scopesAll (depth + 1) children

def Node.scopesAll (depth : Nat) : List Node → List ScopedRange
  | [] => []
  | node :: rest => node.scopes depth ++ Node.scopesAll depth rest

end

end Highlighting
