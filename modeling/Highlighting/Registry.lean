import Highlighting.Log
import Highlighting.Text.LowerCase

/-! # Registries

A registry finds a highlighter by its name or one of its aliases, whatever their case. A later
registration takes over the keys that it shares with an earlier one. -/
set_option autoImplicit false
namespace Highlighting

structure Registry where
  /-- In the order of registration. -/
  languages : Array Highlighter := #[]
  /-- The keys in lower case with the places of their languages, the latest first. -/
  keys : List (String × Nat) := []

/-- No language is registered under the name. -/
structure UnknownLanguage where
  name : String
deriving DecidableEq, Repr

namespace UnknownLanguage

def message (unknown : UnknownLanguage) : String :=
  "unknown language " ++ quoted unknown.name

end UnknownLanguage

namespace Registry

def register (registry : Registry) (highlighter : Highlighter) : Registry where
  languages := registry.languages.push highlighter
  keys := (highlighter.name :: highlighter.aliases).foldl
    (fun keys name => (lowerCase name, registry.languages.size) :: keys) registry.keys

def get? (registry : Registry) (name : String) : Option Highlighter :=
  (registry.keys.lookup (lowerCase name)).bind fun index => registry.languages[index]?

/-- The names of all languages in the order of registration. -/
def names (registry : Registry) : List String :=
  registry.languages.toList.map (·.name)

/-- Scans with the language of this name. -/
def scan (registry : Registry) (name : String) (source : Source) : Except UnknownLanguage Outcome :=
  match registry.get? name with
  | some highlighter => .ok (highlighter.scan source)
  | none => .error ⟨name⟩

/-- The better of two results. Of equally relevant ones it is the earlier one. -/
def better (best : Option Highlight) (next : Highlight) : Highlight :=
  match best with
  | none => next
  | some best => if best.relevance < next.relevance then next else best

/-- Scans with every language in turn, where `best` is the best result so far, and gives the best
result and what happened. Languages that refuse the source do not count. -/
def scanAll (source : Source) : Option Highlight → List Highlighter → Option Highlight × List Event
  | best, [] => (best, [])
  | best, highlighter :: rest =>
      let outcome := highlighter.scan source
      let (best, verdict) := match outcome.result with
        | .ok next => (some (better best next), Event.ranked highlighter.name next.relevance)
        | .error illegal => (best, Event.rejected highlighter.name illegal)
      let (last, events) := scanAll source best rest
      (last, outcome.log source ++ verdict :: events)

/-- Scans with every language. -/
def scanAuto (registry : Registry) (source : Source) : Option Highlight × List Event :=
  scanAll source none registry.languages.toList

end Registry

end Highlighting
