import Highlighting.Text.Source
import Highlighting.Tree

/-! # HTML

Marked text becomes a span with the style classes of its scope. The five characters that mean something
in markup are written as entities, so that no text can open or close a span. -/
set_option autoImplicit false
namespace Highlighting.Html

def escapeChar (c : Char) : List Char :=
  match c with
  | '&' => ['&', 'a', 'm', 'p', ';']
  | '<' => ['&', 'l', 't', ';']
  | '>' => ['&', 'g', 't', ';']
  | '"' => ['&', 'q', 'u', 'o', 't', ';']
  | '\'' => ['&', '#', 'x', '2', '7', ';']
  | c => [c]

def escape (text : List Char) : List Char :=
  text.flatMap escapeChar

/-- Writes text behind what has been written. -/
def escapeInto (out text : String) : String :=
  out ++ String.ofList (escape text.toList)

def openTag (scope : Scope) : List Char :=
  "<span class=\"".toList ++ scope.styleClass.toList ++ "\">".toList

def closeTag : List Char :=
  "</span>".toList

mutual

def ofNode (source : Source) : Node → List Char
  | .text start stop => escape (source.part start stop)
  | .marked scope _ _ children => openTag scope ++ ofNodes source children ++ closeTag

def ofNodes (source : Source) : List Node → List Char
  | [] => []
  | node :: rest => ofNode source node ++ ofNodes source rest

end

end Highlighting.Html
