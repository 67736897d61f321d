import Highlighting.Scan.State

/-! # Running a scan

At each place the rules of the level are tried, then the closer of the innermost container, then its
pattern for illegal text; otherwise one character passes as plain text. Every turn but one that closes
a container moves on by a character or more, and a container opens with a character at least, so there
are at most two turns for every character. At the end of the source all containers close. -/
set_option autoImplicit false
namespace Highlighting

/-- Illegal text, which ends a scan, with what happened before. -/
structure Refusal where
  start : Nat
  stop : Nat
  events : List ScanEvent
deriving Repr

namespace Scan

/-- Adds a range with its nodes inside it, or the nodes alone when there is no scope. -/
def wrap (scan : Scan) (scope : Option Scope) (start stop : Nat) (nodes : List Node) : Scan :=
  match scope with
  | some scope => scan.add [.marked scope start stop nodes]
  | none => scan.add nodes

/-- Closes the innermost container at the place of the scan. -/
def close (scan : Scan) : Scan :=
  match scan.containers with
  | [] => scan
  | inner :: outer =>
      let logged := scan.log (.closed inner.index inner.rule.scope inner.start scan.pos)
      let left := { logged with containers := outer }
      (left.wrap inner.rule.scope inner.start scan.pos inner.level.nodes.reverse).setPending scan.pos

/-- Closes every container, the innermost first. -/
def closeAll (scan : Scan) : Scan :=
  scan.containers.foldl (fun left _ => left.close) scan

/-- Opens a container. Its opener is the first text inside it. -/
def enter (scan : Scan) (index : Nat) (rule : ContainerRule) (stop : Nat) : Scan :=
  let logged := scan.log (.opened index rule.scope)
  { logged with
    pos := stop
    containers := ⟨index, rule, scan.pos, { pending := scan.pos }⟩ :: scan.containers }

/-- Adds the parts of a match, with the text between them, from `last` on. Empty parts are left out. -/
def addParts (scan : Scan) (source : Source) (table : Option WordTable) (stop : Nat) :
    Nat → List Part → Scan
  | last, [] => scan.add [.text last stop]
  | last, part :: rest =>
      if part.stop ≤ part.start then scan.addParts source table stop last rest
      else
        let (nodes, sorted) := match part.scope with
          | some scope => ([Node.leaf scope part.start part.stop], scan)
          | none => scan.sort source table part.start part.stop
        (sorted.add (.text last part.start :: nodes)).addParts source table stop part.stop rest

/-- Moves to the end of a match whose nodes have been added. -/
def advance (scan : Scan) (stop : Nat) : Scan :=
  { scan with pos := stop }.setPending stop

def countMatch (scan : Scan) (found : Found) : Scan :=
  { scan with
    relevance := scan.relevance + found.relevance
    stats := { scan.stats with ruleMatches := scan.stats.ruleMatches + 1 } }.log
      (.matched found scan.containers.length scan.pos)

/-- Passes one character as plain text. -/
def passChar (scan : Scan) : Scan :=
  { scan with
    pos := scan.pos + 1
    stats := { scan.stats with plainChars := scan.stats.plainChars + 1 } }

end Scan

namespace Highlighter

/-- Takes a match: the pending text before it is sorted first. -/
def take (highlighter : Highlighter) (source : Source) (scan : Scan) (found : Found) : Scan :=
  let counted := (highlighter.flush source scan).countMatch found
  match found with
  | .single _ rule stop =>
      let (nodes, sorted) := counted.sort source rule.words scan.pos stop
      (sorted.wrap rule.scope scan.pos stop nodes).advance stop
  | .parts _ _ stop parts =>
      (counted.addParts source (highlighter.wordsAt scan) stop scan.pos parts).advance stop
  | .container index rule stop => counted.enter index rule stop

/-- Where the closer of the innermost container ends, if it matches. It may be empty. -/
def closerStop? (source : Source) (scan : Scan) : Option Nat :=
  match scan.containers with
  | [] => none
  | inner :: _ => inner.rule.closer.stop? source.chars scan.pos source.size

/-- Where illegal text ends, if it stands at the place of the scan. -/
def illegalStop? (highlighter : Highlighter) (source : Source) (scan : Scan) : Option Nat :=
  if highlighter.ignoreIllegal then none
  else ((highlighter.illegalAt scan).bind (·.stop? source.chars scan.pos source.size)).filter
    (scan.pos < ·)

/-- One turn of a scan that is not at the end of the source. -/
def step (highlighter : Highlighter) (source : Source) (scan : Scan) : Except Refusal Scan :=
  match highlighter.firstMatch? source scan.pos (highlighter.rulesAt scan) with
  | some found => .ok (highlighter.take source scan found)
  | none =>
      match closerStop? source scan with
      | some stop => .ok (highlighter.flush source { scan with pos := stop }).close
      | none =>
          match highlighter.illegalStop? source scan with
          | some stop => .error ⟨scan.pos, stop, .refused scan.pos stop :: scan.events⟩
          | none => .ok scan.passChar

/-- So many turns, or fewer if the scan reaches the end of the source. -/
def turns (highlighter : Highlighter) (source : Source) : Nat → Scan → Except Refusal Scan
  | 0, scan => .ok scan
  | count + 1, scan =>
      if scan.pos < source.size then
        match highlighter.step source scan with
        | .ok next => highlighter.turns source count next
        | .error refusal => .error refusal
      else .ok scan

/-- A whole scan. -/
def run (highlighter : Highlighter) (source : Source) : Except Refusal Scan :=
  match highlighter.turns source (2 * source.size) {} with
  | .ok scan => .ok (highlighter.flush source scan).closeAll
  | .error refusal => .error refusal

end Highlighter

end Highlighting
