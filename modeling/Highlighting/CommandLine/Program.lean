import Highlighting.CommandLine.LogFilter
import Highlighting.CommandLine.Options
import Highlighting.Jacy

/-! # The program

The program highlights one text as Jacy, or as another language it knows, and prints it as HTML, as a
list of tokens, or as it was. A run that fails prints no result. -/
set_option autoImplicit false
namespace Highlighting.CommandLine

/-- Why the input could not be read. -/
inductive InputError where
  | notText
  | notFound
  | isDirectory
  | notDirectory
  | other (message : String)
deriving DecidableEq, Repr

namespace InputError

def message : InputError → String
  | notText => "stream did not contain valid UTF-8"
  | notFound => "No such file or directory (os error 2)"
  | isDirectory => "Is a directory (os error 21)"
  | notDirectory => "Not a directory (os error 20)"
  | other message => message

end InputError

/-- Why a run failed. -/
inductive Failure where
  | input (file : Option String) (cause : InputError)
  | unknownLanguage (name : String) (known : List String)
  | illegal (language : String) (cause : IllegalText)
deriving DecidableEq, Repr

namespace Failure

def message : Failure → String
  | input (some file) _ => "can't read " ++ quoted file
  | input none _ => "can't read standard input"
  | unknownLanguage name known =>
      "unknown language " ++ quoted name ++ " (known: " ++ ", ".intercalate known ++ ")"
  | illegal language _ => "can't highlight as " ++ language

def cause? : Failure → Option String
  | input _ cause => some cause.message
  | unknownLanguage _ _ => none
  | illegal _ cause => some cause.message

/-- The report of a failure, with its cause if there is one. -/
def report (failure : Failure) : String :=
  "Error: " ++ failure.message ++ "\n" ++
    match failure.cause? with
    | some cause => "\nCaused by:\n    " ++ cause ++ "\n"
    | none => ""

end Failure

/-- What a finished program leaves behind. -/
structure Output where
  exitCode : Nat
  stdout : String := ""
  stderr : String := ""
deriving DecidableEq, Repr

def versionText : String := "jacy-grammar 0.1.0\n"

def target : String := "jacy_hl::real"

namespace Options

def fileLabel : Option String → String
  | none => "None"
  | some file => "Some(" ++ quoted file ++ ")"

def line (options : Options) : LogLine where
  level := .debug
  target := target
  message :=
    "Args \x7b format: " ++ options.format.label ++ ", language: " ++ quoted options.language ++
      ", ignore_illegals: " ++ toString options.ignoreIllegal ++ ", file: " ++ fileLabel options.file ++
      " \x7d"

/-- The languages that the program knows. -/
def highlighter (options : Options) : Highlighter :=
  { Jacy.highlighter with ignoreIllegal := options.ignoreIllegal }

def registry (options : Options) : Registry :=
  ({} : Registry).register options.highlighter

end Options

/-- The line with the figures of a result. -/
def statsLine (highlight : Highlight) : LogLine where
  level := .info
  target := target
  message :=
    highlight.language ++ s!": relevance {highlight.relevance}, HighlightStats " ++
      "\x7b rule_matches: " ++ toString highlight.stats.ruleMatches ++
      ", keyword_hits: " ++ toString highlight.stats.keywordHits ++
      ", plain_chars: " ++ toString highlight.stats.plainChars ++ " \x7d"

/-- A token on a line: its span, its scope and its text, with tabs between them. -/
def tokenLine (token : Token) : String :=
  token.span.toString ++ "\t" ++ (match token.scope with
    | some scope => scope.name
    | none => "-") ++ "\t" ++ quoted token.text ++ "\n"

def render (format : Format) (highlight : Highlight) : String :=
  match format with
  | .html => highlight.html ++ "\n"
  | .tokens => String.join (highlight.tokens.map tokenLine)
  | .plain => highlight.plain

/-- A run up to its result, with the log lines in order. The input has been read before the language
is looked up. -/
def produce (options : Options) (input : Except InputError String) :
    List LogLine × Except Failure Highlight :=
  let start := [options.line, (Event.compiled options.highlighter).line,
    (Event.registered options.highlighter).line]
  match input with
  | .error cause => (start, .error (.input options.file cause))
  | .ok text =>
      let source := Source.ofString text
      match options.registry.get? options.language with
      | none => (start, .error (.unknownLanguage options.language options.registry.names))
      | some highlighter =>
          let outcome := highlighter.scan source
          let lines := start ++ (outcome.log source).map Event.line
          match outcome.result with
          | .ok highlight => (lines ++ [statsLine highlight], .ok highlight)
          | .error illegal => (lines, .error (.illegal highlighter.name illegal))

def logText (filter : LogFilter) (lines : List LogLine) : String :=
  String.join ((lines.filter filter.allows).map fun line =>
    "[" ++ line.level.toString ++ String.ofList (List.replicate (5 - line.level.toString.length) ' ')
      ++ " " ++ line.target ++ "] " ++ line.message ++ "\n")

/-- A whole run on an input. -/
def run (filter : LogFilter) (options : Options) (input : Except InputError String) : Output :=
  let (lines, result) := produce options input
  match result with
  | .ok highlight =>
      { exitCode := 0, stdout := render options.format highlight, stderr := logText filter lines }
  | .error failure =>
      { exitCode := 1, stderr := logText filter lines ++ failure.report }

end Highlighting.CommandLine
