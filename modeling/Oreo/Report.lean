import Oreo.Log
import Oreo.Node.Json

/-!
# Reports

A report is what is shown for a source: its tokens or its program as JSON text, or the error,
together with the log of how it came about.
-/

namespace Oreo

/-- How reports are made. -/
structure ReportSettings where
  /-- The options for reading the source. -/
  options : Options := {}
  /-- Whether the JSON text is indented. -/
  pretty : Bool := false
deriving DecidableEq, Repr

/-- What is shown for a source, and the log. -/
structure Report where
  /-- The JSON text, or the error. -/
  outcome : Except SourceError String
  /-- What was recorded, in order. -/
  log : List LogRecord

namespace ReportSettings

/-- The layout of the JSON text. -/
def layout (settings : ReportSettings) : Json.Layout :=
  if settings.pretty then .indented else .compact

/-- The report on the tokens of a source. -/
def reportTokens (settings : ReportSettings) (source : String) : Report :=
  match (Lexer.ofSource source).tokens with
  | (.error error, _) => { outcome := .error ⟨.scan error.value, error.location⟩, log := [] }
  | (.ok tokens, lexer) =>
    { outcome := .ok ((Json.array (tokens.map Token.toJson)).write settings.layout)
      log := [.scanned tokens.length lexer.position.line,
        .finished settings.options.fileName .tokens tokens.length] }

/-- The report on the program of a source. -/
def reportProgram (settings : ReportSettings) (source : String) : Report :=
  match (Lexer.ofSource source).tokens with
  | (.error error, _) => { outcome := .error ⟨.scan error.value, error.location⟩, log := [] }
  | (.ok tokens, lexer) =>
    let reply := parseTokens settings.options tokens
    let log := .scanned tokens.length lexer.position.line ::
      reply.events.filterMap (LogRecord.ofEvent? tokens.length)
    match reply.outcome with
    | .error error => { outcome := .error ⟨.parse error.value, error.location⟩, log }
    | .ok program =>
      { outcome := .ok ((Node.programJson program).write settings.layout)
        log := log ++ [.parsed program.length tokens.length,
          .finished settings.options.fileName .program program.length] }

/-- The report on a source. -/
def report (settings : ReportSettings) : Stage → String → Report
  | .tokens => settings.reportTokens
  | .program => settings.reportProgram

end ReportSettings

end Oreo
