import Highlighting.Scan.Attempt
import Highlighting.Scan.Words

/-! # The state of a scan

A scan stands at a place inside some containers. At each level the text behind the last match is
pending: it is sorted into words in one piece, once a match or the end of the level is known. -/
set_option autoImplicit false
namespace Highlighting

/-- Something that happened in a scan, in places of the source. -/
inductive ScanEvent where
  /-- A rule matched at `start`, inside `depth` open containers. -/
  | matched (found : Found) (depth start : Nat)
  | opened (index : Nat) (scope : Option Scope)
  | closed (index : Nat) (scope : Option Scope) (start stop : Nat)
  | refused (start stop : Nat)
deriving DecidableEq, Repr

structure Stats where
  ruleMatches : Nat := 0
  keywordHits : Nat := 0
  plainChars : Nat := 0
deriving DecidableEq, Repr

/-- A level: where its pending text starts, and its nodes up to there, the latest first. -/
structure Level where
  pending : Nat
  nodes : List Node := []
deriving Repr

/-- A container that is open, with its number, the place where it opened and the level inside it. -/
structure OpenContainer where
  index : Nat
  rule : ContainerRule
  start : Nat
  level : Level
deriving Repr

structure Scan where
  pos : Nat := 0
  /-- The level outside of all containers. -/
  ground : Level := { pending := 0 }
  /-- The open containers, the innermost first. -/
  containers : List OpenContainer := []
  relevance : Nat := 0
  stats : Stats := {}
  /-- What has happened, the latest first. -/
  events : List ScanEvent := []
deriving Repr

namespace Scan

/-- The level that the scan is in. -/
def level (scan : Scan) : Level :=
  match scan.containers with
  | [] => scan.ground
  | inner :: _ => inner.level

def setLevel (scan : Scan) (level : Level) : Scan :=
  match scan.containers with
  | [] => { scan with ground := level }
  | inner :: outer => { scan with containers := { inner with level } :: outer }

/-- Adds nodes at the level, the first one first. -/
def add (scan : Scan) (nodes : List Node) : Scan :=
  scan.setLevel { scan.level with nodes := Node.pushAll scan.level.nodes nodes }

def setPending (scan : Scan) (place : Nat) : Scan :=
  scan.setLevel { scan.level with pending := place }

def log (scan : Scan) (event : ScanEvent) : Scan :=
  { scan with events := event :: scan.events }

/-- Sorts a range into words, if there is a table for it, and gives its nodes in order. -/
def sort (scan : Scan) (source : Source) (table : Option WordTable) (start stop : Nat) :
    List Node × Scan :=
  match table with
  | none => ([.text start stop], scan)
  | some table =>
      let sorted := table.sort source start stop
      (sorted.nodes.reverse,
        { scan with
          relevance := scan.relevance + sorted.relevance
          stats := { scan.stats with keywordHits := scan.stats.keywordHits + sorted.hits } })

end Scan

namespace Highlighter

/-- The rules that are tried at the level of a scan. -/
def rulesAt (highlighter : Highlighter) (scan : Scan) : List Nat :=
  match scan.containers with
  | [] => highlighter.root
  | inner :: _ => inner.rule.rules

def wordsAt (highlighter : Highlighter) (scan : Scan) : Option WordTable :=
  match scan.containers with
  | [] => some highlighter.words
  | inner :: _ => inner.rule.words

def illegalAt (highlighter : Highlighter) (scan : Scan) : Option Program :=
  match scan.containers with
  | [] => highlighter.illegal
  | inner :: _ => inner.rule.illegal

/-- Sorts the pending text of the level. -/
def flush (highlighter : Highlighter) (source : Source) (scan : Scan) : Scan :=
  if scan.level.pending < scan.pos then
    let (nodes, sorted) :=
      scan.sort source (highlighter.wordsAt scan) scan.level.pending scan.pos
    (sorted.add nodes).setPending scan.pos
  else scan

end Highlighter

end Highlighting
