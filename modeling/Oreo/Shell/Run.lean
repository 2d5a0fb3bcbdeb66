import Oreo.Report
import Oreo.Shell.Arguments
import Oreo.Shell.Files

/-!
# Carrying out a command line

The source is the text on the command line, if there is one, and else the content of the file.
The result is the text to print, or why there is none.
-/

namespace Oreo

/-- Why a command line has no result. -/
inductive RunFailure where
  /-- The file could not be read. -/
  | unreadable (path : String) (failure : ReadFailure)
  /-- The source has an error, shown in a diagnostic. -/
  | rejected (diagnostic : Diagnostic)

/-- The failure as it is shown. -/
def RunFailure.message : RunFailure → String
  | .unreadable path failure => "Could not read file '" ++ path ++ "': " ++ failure.reason
  | .rejected diagnostic => diagnostic.render

namespace Invocation

/-- Reads a program from a file, with all settings at their defaults. -/
def ofFile (path : String) : Invocation := { stage := .program, file := path }

/-- The options: the name that is shown is the given one, or else that of the file. -/
def options (invocation : Invocation) : Options :=
  let base := match invocation.file with
    | some path => Options.forPath path
    | none => {}
  { fileName := invocation.name.getD base.fileName, maxDepth := invocation.maxDepth }

/-- How the report is made. -/
def settings (invocation : Invocation) : ReportSettings where
  options := invocation.options
  pretty := invocation.pretty

/-- The level of detail of the log. -/
def logLevel (invocation : Invocation) : LogLevel := .ofVerbosity invocation.verbose

/-- The file that has to be read, if no text is given. -/
def path? (invocation : Invocation) : Option String :=
  if invocation.eval.isSome then none else invocation.file

/-- The source, with the given way to read a file. Without a text and a file it is empty. -/
def source (invocation : Invocation) (read : String → Except ReadFailure String) :
    Except RunFailure String :=
  match invocation.eval, invocation.file with
  | some text, _ => .ok text
  | none, some path => (read path).mapError (.unreadable path)
  | none, none => .ok ""

/-- The report on the source, with the given way to read a file. -/
def report (invocation : Invocation) (read : String → Except ReadFailure String) :
    Except RunFailure Report := do
  return invocation.settings.report invocation.stage (← invocation.source read)

/-- The text to print, with the given way to read a file. -/
def run (invocation : Invocation) (read : String → Except ReadFailure String) :
    Except RunFailure String := do
  (← invocation.report read).outcome.mapError fun error =>
    .rejected (error.diagnose invocation.options)

end Invocation

end Oreo
