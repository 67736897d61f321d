import Highlighting.Html
import Highlighting.Scan.Run
import Highlighting.Text.Cursor
import Highlighting.Text.Quoted

/-! # Highlighted text

The result of a scan is the tree of its source with what was counted on the way. It can be listed by
its tokens, which are the pieces of text with their innermost scope, or by its regions, which are the
marked ranges, and it can be written as HTML or as plain text. -/
set_option autoImplicit false
namespace Highlighting

/-- A piece of text with the innermost scope around it, at byte offsets. -/
structure Token where
  scope : Option Scope
  text : String
  start : Nat
  stop : Nat
  span : Span
deriving DecidableEq, Repr

/-- A marked range at byte offsets, and how many marked ranges are around it. -/
structure Region where
  scope : Scope
  text : String
  start : Nat
  stop : Nat
  span : Span
  depth : Nat
deriving DecidableEq, Repr

structure Highlight where
  language : String
  source : Source
  nodes : List Node
  /-- What the matches and the words count, in 32 bits: a sum that is too large wraps around. -/
  relevance : Nat
  stats : Stats

namespace Highlight

def leaves (highlight : Highlight) : List Leaf :=
  Node.leavesAll none highlight.nodes

def scopes (highlight : Highlight) : List ScopedRange :=
  Node.scopesAll 0 highlight.nodes

def tokens (highlight : Highlight) : List Token :=
  let source := highlight.source
  let spans := (Cursor.start source).spans (highlight.leaves.map fun leaf => (leaf.start, leaf.stop))
  List.zipWith
    (fun leaf span =>
      { scope := leaf.scope
        text := source.slice leaf.start leaf.stop
        start := source.offset leaf.start
        stop := source.offset leaf.stop
        span })
    highlight.leaves spans

def regions (highlight : Highlight) : List Region :=
  let source := highlight.source
  let spans := (Cursor.start source).spans (highlight.scopes.map fun range => (range.start, range.stop))
  List.zipWith
    (fun range span =>
      { scope := range.scope
        text := source.slice range.start range.stop
        start := source.offset range.start
        stop := source.offset range.stop
        span
        depth := range.depth })
    highlight.scopes spans

def html (highlight : Highlight) : String :=
  String.ofList (Html.ofNodes highlight.source highlight.nodes)

/-- The texts of all tokens, one behind the other. -/
def plain (highlight : Highlight) : String :=
  String.join (highlight.tokens.map (·.text))

end Highlight

/-- Text that must not stand where it was found, with its byte offset. -/
structure IllegalText where
  lexeme : String
  offset : Nat
  span : Span
deriving DecidableEq, Repr

namespace IllegalText

def message (illegal : IllegalText) : String :=
  "illegal sequence " ++ quoted illegal.lexeme ++ " at " ++ illegal.span.toString

end IllegalText

/-- What a scan comes to, and what happened in it. -/
structure Outcome where
  result : Except IllegalText Highlight
  /-- In the order in which it happened. -/
  events : List ScanEvent

namespace Refusal

def illegalText (refusal : Refusal) (source : Source) : IllegalText where
  lexeme := source.slice refusal.start refusal.stop
  offset := source.offset refusal.start
  span := source.span refusal.start refusal.stop

end Refusal

namespace Highlighter

/-- Scans a source and keeps what happened on the way. -/
def scan (highlighter : Highlighter) (source : Source) : Outcome :=
  match highlighter.run source with
  | .ok done =>
      { result := .ok
          { language := highlighter.name
            source
            nodes := done.ground.nodes.reverse
            relevance := done.relevance % UInt32.size
            stats := done.stats }
        events := done.events.reverse }
  | .error refusal =>
      { result := .error (refusal.illegalText source)
        events := refusal.events.reverse }

def highlight (highlighter : Highlighter) (text : String) : Except IllegalText Highlight :=
  (highlighter.scan (.ofString text)).result

end Highlighter

end Highlighting
