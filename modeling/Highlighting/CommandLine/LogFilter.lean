import Highlighting.Log
import Highlighting.Unicode.Blank

/-! # Log filters

A filter is a list of entries with commas between them. An entry allows a level to the targets that
start with its name; the entry with the longest such name decides. Without any entry only errors are
shown. -/
set_option autoImplicit false
namespace Highlighting.CommandLine

/-- An entry: the start of the targets it is about, and how many levels it lets through. -/
structure LogEntry where
  target : String
  depth : Nat
deriving DecidableEq, Repr

namespace LogEntry

def trim (text : List Char) : List Char :=
  ((text.dropWhile Unicode.isBlank).reverse.dropWhile Unicode.isBlank).reverse

/-- The number of levels that a level name lets through. -/
def depth? (name : List Char) : Option Nat :=
  match String.ofList (name.map Char.toLower) with
  | "off" => some 0
  | "error" => some 1
  | "warn" => some 2
  | "info" => some 3
  | "debug" => some 4
  | "trace" => some 5
  | _ => none

/-- Reads an entry: a target and a level, or either one alone. -/
def parse? (text : List Char) : Option LogEntry :=
  match text.span (· != '=') with
  | ([], []) => none
  | (name, []) =>
      match depth? name with
      | some depth => some ⟨"", depth⟩
      | none => some ⟨String.ofList name, 5⟩
  | (target, _ :: level) =>
      match trim level with
      | [] => some ⟨String.ofList target, 5⟩
      | level => (depth? level).map fun depth => ⟨String.ofList target, depth⟩

/-- Of two matching entries the one with the longer name decides, and of equal ones the later. -/
def prefer (target : String) (best : Option LogEntry) (entry : LogEntry) : Option LogEntry :=
  if entry.target.toList.isPrefixOf target.toList then
    match best with
    | none => some entry
    | some best =>
        if entry.target.utf8ByteSize < best.target.utf8ByteSize then some best else some entry
  else best

end LogEntry

structure LogFilter where
  entries : List LogEntry

namespace LogFilter

/-- Cuts a text at its commas; `current` is the piece before it, backwards. -/
def pieces (current : List Char) : List Char → List (List Char)
  | [] => [current.reverse]
  | ',' :: rest => current.reverse :: pieces [] rest
  | c :: rest => pieces (c :: current) rest

def parse (text : String) : LogFilter where
  entries := (pieces [] text.toList).filterMap fun piece => LogEntry.parse? (LogEntry.trim piece)

def allows (filter : LogFilter) (line : LogLine) : Bool :=
  if filter.entries.isEmpty then line.level.rank ≤ LogLevel.error.rank
  else
    match filter.entries.foldl (LogEntry.prefer line.target) none with
    | some entry => line.level.rank ≤ entry.depth
    | none => false

end LogFilter

end Highlighting.CommandLine
