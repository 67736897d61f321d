import Highlighting.Highlight

/-! # Log lines

Compiling a language, registering it and scanning with it leave traces. Each trace has a level and
belongs to a part of the library. -/
set_option autoImplicit false
namespace Highlighting

inductive LogLevel where
  | error
  | warn
  | info
  | debug
  | trace
deriving DecidableEq, Ord, Repr

namespace LogLevel

def toString : LogLevel → String
  | error => "ERROR"
  | warn => "WARN"
  | info => "INFO"
  | debug => "DEBUG"
  | trace => "TRACE"

/-- How many levels are at least as grave. -/
def rank : LogLevel → Nat
  | error => 1
  | warn => 2
  | info => 3
  | debug => 4
  | trace => 5

end LogLevel

structure LogLine where
  level : LogLevel
  target : String
  message : String
deriving DecidableEq, Repr

/-- Something worth a log line. -/
inductive Event where
  | compiled (highlighter : Highlighter)
  | registered (highlighter : Highlighter)
  | scanned (source : Source) (event : ScanEvent)
  | ranked (language : String) (relevance : Nat)
  | rejected (language : String) (illegal : IllegalText)

namespace ScanEvent

def scopeLabel : Option Scope → String
  | none => "None"
  | some scope => "Some(" ++ scope.label ++ ")"

def byteRange (source : Source) (start stop : Nat) : String :=
  s!"{source.offset start}..{source.offset stop}"

def message (source : Source) : ScanEvent → String
  | matched found depth start =>
      s!"MATCHED: rule #{found.index}, depth {depth}, range " ++ byteRange source start found.stop ++
        ", text " ++ quoted (source.slice start found.stop)
  | opened index scope => s!"PUSH: rule #{index}, scope " ++ scopeLabel scope
  | closed index scope start stop =>
      s!"POP: rule Some({index}), scope " ++ scopeLabel scope ++ ", range "
        ++ byteRange source start stop
  | refused start stop =>
      "ILLEGAL: " ++ quoted (source.slice start stop) ++ " at " ++ (source.span start stop).toString

def level : ScanEvent → LogLevel
  | refused _ _ => .debug
  | _ => .trace

end ScanEvent

namespace Event

def scanning : String := "highlex::highlighter"

def registering : String := "highlex::registry"

def line : Event → LogLine
  | compiled highlighter =>
      ⟨.debug, scanning,
        "compiled language " ++ quoted highlighter.name ++
          s!": {highlighter.rules.size} rules ({highlighter.root.length} top level), " ++
          s!"{highlighter.words.wordCount} keywords"⟩
  | registered highlighter =>
      ⟨.debug, registering,
        "registered language " ++ quoted highlighter.name ++ " (aliases " ++
          quotedList highlighter.aliases ++ ")"⟩
  | scanned source event => ⟨event.level, scanning, event.message source⟩
  | ranked language relevance =>
      ⟨.trace, registering, "AUTO: " ++ quoted language ++ s!" relevance {relevance}"⟩
  | rejected language illegal =>
      ⟨.trace, registering, "AUTO: " ++ quoted language ++ " rejected: " ++ illegal.message⟩

end Event

namespace Outcome

/-- What happened in the scan of a source. -/
def log (outcome : Outcome) (source : Source) : List Event :=
  outcome.events.map (.scanned source)

end Outcome

end Highlighting
