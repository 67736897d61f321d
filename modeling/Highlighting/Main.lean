import Highlighting.CommandLine.Program

/-! # Running the program

Reads the arguments, the log filter and the input, and writes what the program leaves behind. -/
set_option autoImplicit false
namespace Highlighting.CommandLine

def usageText : String :=
  "Usage: jacy-hl [-f html|tokens|plain] [-l LANGUAGE] [-i] [FILE]\n"

def textOf (bytes : ByteArray) : Except InputError String :=
  match String.fromUTF8? bytes with
  | some text => .ok text
  | none => .error .notText

def inputError : IO.Error → InputError
  | .noFileOrDirectory _ _ _ => .notFound
  | .noSuchThing _ _ _ => .notFound
  | .inappropriateType _ 20 _ => .notDirectory
  | .inappropriateType _ _ _ => .isDirectory
  | problem => .other (toString problem)

def readInput (file : Option String) : IO (Except InputError String) := do
  try
    let bytes ← match file with
      | some name => IO.FS.readBinFile name
      | none => (← IO.getStdin).readBinToEnd
    return textOf bytes
  catch problem => return .error (inputError problem)

/-- Answers the arguments, and gives the exit code. -/
def perform (arguments : List String) : IO UInt32 := do
  match Request.ofArguments arguments with
  | .version => IO.print versionText; return 0
  | .help => IO.print usageText; return 0
  | .misuse => IO.eprint usageText; return 2
  | .run options =>
      let filter := LogFilter.parse ((← IO.getEnv "RUST_LOG").getD "")
      let output := run filter options (← readInput options.file)
      IO.eprint output.stderr
      IO.print output.stdout
      return output.exitCode.toUInt32

end Highlighting.CommandLine

def main (arguments : List String) : IO UInt32 :=
  Highlighting.CommandLine.perform arguments
