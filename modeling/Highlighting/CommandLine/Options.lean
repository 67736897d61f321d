/-! # Arguments of the program

Arguments are read from left to right. The first fault, or the first request for the version or for help,
decides. An option takes the rest of its argument as its value, or else the next argument, which must
then not look like an option itself. -/
set_option autoImplicit false
namespace Highlighting.CommandLine

inductive Format where
  | html
  | tokens
  | plain
deriving DecidableEq, Repr

namespace Format

def ofName? : String → Option Format
  | "html" => some html
  | "tokens" => some tokens
  | "plain" => some plain
  | _ => none

def label : Format → String
  | html => "Html"
  | tokens => "Tokens"
  | plain => "Plain"

end Format

structure Options where
  format : Format := .html
  language : String := "jacy"
  ignoreIllegal : Bool := false
  /-- Standard input when there is none. -/
  file : Option String := none
deriving DecidableEq, Repr

/-- What the arguments ask for. -/
inductive Request where
  | run (options : Options)
  | version
  | help
  | misuse
deriving DecidableEq, Repr

/-- The options that take a value. -/
inductive Valued where
  | format
  | language
deriving DecidableEq, Repr

/-- What the arguments have given so far. -/
structure Given where
  format : Option Format := none
  language : Option String := none
  ignoreIllegal : Bool := false
  file : Option String := none
  /-- The option whose value has to come next. -/
  awaiting : Option Valued := none
  /-- Whether everything that comes is a file. -/
  filesOnly : Bool := false
deriving DecidableEq, Repr

namespace Given

/-- Gives an option its value; an option has one value only. -/
def setValue (given : Given) (option : Valued) (value : String) : Except Request Given :=
  match option with
  | .format =>
      match given.format, Format.ofName? value with
      | none, some format => .ok { given with format := some format, awaiting := none }
      | _, _ => .error .misuse
  | .language =>
      match given.language with
      | none => .ok { given with language := some value, awaiting := none }
      | some _ => .error .misuse

def setIgnoreIllegal (given : Given) : Except Request Given :=
  if given.ignoreIllegal then .error .misuse else .ok { given with ignoreIllegal := true }

/-- There is one file at most, and its name is not empty. -/
def setFile (given : Given) (file : String) : Except Request Given :=
  if given.file.isSome || file.isEmpty then .error .misuse else .ok { given with file := some file }

/-- The letters behind a single dash. -/
def readLetters (given : Given) : List Char → Except Request Given
  | [] => .ok given
  | letter :: rest =>
      let valued (option : Valued) : Except Request Given :=
        match rest with
        | [] => .ok { given with awaiting := some option }
        | '=' :: value => given.setValue option (String.ofList value)
        | value => given.setValue option (String.ofList value)
      match letter with
      | 'f' => valued .format
      | 'l' => valued .language
      | 'i' => match given.setIgnoreIllegal with
          | .ok given => given.readLetters rest
          | .error request => .error request
      | 'V' => .error .version
      | 'h' => .error .help
      | _ => .error .misuse

/-- The name behind two dashes, with the value behind an equals sign if there is one. -/
def readName (given : Given) (name : String) (value : Option String) : Except Request Given :=
  let valued (option : Valued) : Except Request Given :=
    match value with
    | none => .ok { given with awaiting := some option }
    | some value => given.setValue option value
  match name, value with
  | "format", _ => valued .format
  | "language", _ => valued .language
  | "ignore-illegals", none => given.setIgnoreIllegal
  | "version", none => .error .version
  | "help", none => .error .help
  | _, _ => .error .misuse

def read (given : Given) (argument : String) : Except Request Given :=
  if given.filesOnly then given.setFile argument
  else
    match argument.toList, given.awaiting with
    | ['-'], none => given.setFile argument
    | '-' :: '-' :: name, none =>
        match name.span (· != '=') with
        | ([], []) => .ok { given with filesOnly := true }
        | (name, []) => given.readName (String.ofList name) none
        | (name, _ :: value) => given.readName (String.ofList name) (some (String.ofList value))
    | '-' :: letters, none => given.readLetters letters
    | _, none => given.setFile argument
    | '-' :: _ :: _, some _ => .error .misuse
    | _, some option => given.setValue option argument

/-- What is asked for when there are no more arguments. -/
def request (given : Given) : Request :=
  match given.awaiting with
  | some _ => .misuse
  | none => .run
      { format := given.format.getD .html
        language := given.language.getD "jacy"
        ignoreIllegal := given.ignoreIllegal
        file := given.file }

end Given

namespace Request

def ofArguments (arguments : List String) : Request :=
  match arguments.foldlM Given.read ({} : Given) with
  | .ok given => given.request
  | .error request => request

end Request

end Highlighting.CommandLine
