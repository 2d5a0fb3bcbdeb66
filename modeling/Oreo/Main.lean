import Oreo.Shell.Run

/-!
# The command line program

Reads the arguments, reads the file if one is needed, and prints the result on standard output
or the failure on the error stream. All decisions are made by `Invocation`.
-/

namespace Oreo

/-- The summary of the command line. -/
def usage : String :=
  "Oreo language front end\n\n" ++
    "Usage: oreo [OPTIONS] <tokens|parse> <FILE | -e TEXT>\n\n" ++
    "Options:\n" ++
    "  -e, --eval <TEXT>      Inline source instead of a file\n" ++
    "  -n, --name <NAME>      File name shown in diagnostics\n" ++
    "      --max-depth <N>    Deepest nesting of statements and brackets accepted\n" ++
    "  -p, --pretty           Pretty-print the JSON output\n" ++
    "  -v, --verbose          Increase log output\n" ++
    "  -h, --help             Print help\n" ++
    "  -V, --version          Print version"

/-- What is wrong with a command line, in a few words. -/
def Refusal.message : Refusal → String
  | .help | .noArguments => usage
  | .version => "oreo 0.1.0"
  | .missingCommand => "error: a subcommand is required"
  | .unknownCommand => "error: unrecognized subcommand"
  | .missingSource => "error: a file or --eval is required"
  | .conflict => "error: an argument cannot be used twice, or with another one"
  | .unknownArgument => "error: unexpected argument"
  | .badNumber => "error: invalid number"
  | .missingValue => "error: a value is required"
  | .needlessValue => "error: unexpected value for a flag"

/-- The failure that a system error stands for. Its code may come with either sign. -/
def ReadFailure.ofSystem : IO.Error → ReadFailure
  | .inappropriateType _ code _ =>
    if code = 21 ∨ code = 0 - 21 then .isDirectory else .notDirectory
  | .invalidArgument _ code _ =>
    if code = 36 ∨ code = 0 - 36 then .tooLong else .nullInPath
  | .permissionDenied .. => .denied
  | _ => .missing

/-- Reads a file. -/
def readFile (path : String) : IO (Except ReadFailure String) := do
  try
    return FileTree.decode (← IO.FS.readBinFile path)
  catch failure => return .error (.ofSystem failure)

/-- Carries out a command line that was understood. -/
def carryOut (invocation : Invocation) : IO UInt32 := do
  let content ← match invocation.path? with
    | some path => readFile path
    | none => pure (.error .missing)
  match invocation.report fun _ => content with
  | .error failure =>
    IO.eprintln failure.message
    return 1
  | .ok report =>
    for entry in report.log do
      if entry.level.rank ≤ invocation.logLevel.rank then IO.eprintln entry.text
    match report.outcome with
    | .ok text =>
      IO.println text
      return 0
    | .error error =>
      IO.eprintln (error.diagnose invocation.options).render
      return 1

end Oreo

open Oreo in
/-- Reads the arguments and carries them out. -/
def main (arguments : List String) : IO UInt32 := do
  match Invocation.ofArguments arguments with
  | .ok invocation => carryOut invocation
  | .error refusal =>
    match refusal with
    | .help | .version =>
      IO.println refusal.message
      return 0
    | _ =>
      IO.eprintln refusal.message
      return 2
