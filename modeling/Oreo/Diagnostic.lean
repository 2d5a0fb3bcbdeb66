import Oreo.Location
import Oreo.Options
import Oreo.Token.Basic

/-!
# Diagnostics

A failed run reports one diagnostic: a numbered error with its message, the place where it was
found, excerpts that mark the offending text, and a hint. `Diagnostic.render` lays it out:

```text
error[<number>]: <message>
--> <file>:<line>:<column>:
  |
<line> | <text>
  | <underline>

<hint>
```
-/

namespace Oreo

/-- The documented kinds of errors. -/
inductive ErrorCode where
  /-- A string or a block comment is not ended. -/
  | unterminatedString
  /-- A binary literal has no digit. -/
  | invalidBinaryLiteral
  /-- A character starts no token. -/
  | unexpectedCharacter
  /-- A token stands in the wrong place inside a bracketed form. -/
  | misplacedToken
  /-- A token or keyword stands where a statement or value must start. -/
  | unexpectedStatement
  /-- A name, comma, keyword or brace is missing. -/
  | expectedToken
  /-- A parenthesis is not closed, or a name is not assigned to. -/
  | unclosed
  /-- A case stands outside the body of a switch. -/
  | caseOutsideSwitch
  /-- Something other than a case stands in the body of a switch. -/
  | nonCaseInSwitch
deriving DecidableEq, Repr

namespace ErrorCode

/-- All codes, by number. -/
def all : List ErrorCode :=
  [.unterminatedString, .invalidBinaryLiteral, .unexpectedCharacter, .misplacedToken,
   .unexpectedStatement, .expectedToken, .unclosed, .caseOutsideSwitch, .nonCaseInSwitch]

/-- The number shown with an error. -/
def number : ErrorCode → Nat
  | .unterminatedString => 1
  | .invalidBinaryLiteral => 2
  | .unexpectedCharacter => 3
  | .misplacedToken => 4
  | .unexpectedStatement => 5
  | .expectedToken => 6
  | .unclosed => 7
  | .caseOutsideSwitch => 8
  | .nonCaseInSwitch => 9

/-- The name under which a code is stored. -/
def name : ErrorCode → String
  | .unterminatedString => "UnterminatedString"
  | .invalidBinaryLiteral => "InvalidBinaryLiteral"
  | .unexpectedCharacter => "UnexpectedCharacter"
  | .misplacedToken => "MisplacedToken"
  | .unexpectedStatement => "UnexpectedStatement"
  | .expectedToken => "ExpectedToken"
  | .unclosed => "Unclosed"
  | .caseOutsideSwitch => "CaseOutsideSwitch"
  | .nonCaseInSwitch => "NonCaseInSwitch"

/-- The code with the given number. -/
def ofNumber? (number : Nat) : Option ErrorCode := all.find? (·.number == number)

/-- The code with the given name. -/
def ofName? (name : String) : Option ErrorCode := all.find? (·.name == name)

/-- Reads a code: its name, alone or as the only name of an object with no content. -/
def ofJson? : Json → Option ErrorCode
  | .string name => ofName? name
  | .object [(name, .null)] => ofName? name
  | _ => none

end ErrorCode

/-- A line of source text with marks below it. -/
structure Excerpt where
  /-- The line number. -/
  line : UInt32
  /-- The text shown. -/
  text : String
  /-- The marks: a lead-in and carets. -/
  underline : String
deriving DecidableEq, Repr

namespace Excerpt

/-- A run of one character. -/
def run (character : Char) (count : Nat) : String := String.ofList (List.replicate count character)

/-- An excerpt whose underline leads in with tildes and sets carets under `marked`
characters, at least one. -/
def marked (line : UInt32) (text : String) (lead marked : Nat) : Excerpt where
  line
  text
  underline := run '~' lead ++ run '^' (max marked 1)

/-- The excerpt as JSON. -/
def toJson (excerpt : Excerpt) : Json :=
  .object [("line", .natural excerpt.line.toNat), ("text", .string excerpt.text),
    ("underline", .string excerpt.underline)]

/-- Reads an excerpt, all of whose fields are required. -/
def ofJson? (json : Json) : Option Excerpt := do
  let [line, text, underline] ← json.record? ["line", "text", "underline"] | none
  return {
    line := ← (← line).word?
    text := ← (← text).string?
    underline := ← (← underline).string? }

end Excerpt

/-- Reads a location, all of whose fields are required. -/
def Location.ofJson? (json : Json) : Option Location := do
  let [start, stop, line, column] ← json.record? ["start", "end", "line", "column"] | none
  return {
    start := ← (← start).naturalBelow? UInt64.size
    stop := ← (← stop).naturalBelow? UInt64.size
    line := ← (← line).word?
    column := ← (← column).word? }

/-- The report of a failed run. -/
structure Diagnostic where
  /-- The kind of error. -/
  code : ErrorCode
  /-- The headline. -/
  message : String
  /-- The name of the source. -/
  fileName : String
  /-- Where the error was found. -/
  location : Location
  /-- The marked lines. -/
  excerpts : List Excerpt := []
  /-- What to do about it, possibly over several lines. -/
  hint : String := ""
deriving DecidableEq, Repr

namespace Diagnostic

/-- Appends a marked line. -/
def addExcerpt (diagnostic : Diagnostic) (excerpt : Excerpt) : Diagnostic :=
  { diagnostic with excerpts := diagnostic.excerpts ++ [excerpt] }

/-- The text of a diagnostic. The hint, if there is one, stands behind two empty lines. -/
def render (diagnostic : Diagnostic) : String :=
  let excerpt (shown : Excerpt) :=
    s!"{shown.line.toNat} | " ++ shown.text ++ "\n  | " ++ shown.underline ++ "\n"
  s!"error[{diagnostic.code.number}]: " ++ diagnostic.message ++ "\n" ++
    "--> " ++ diagnostic.fileName ++
    s!":{diagnostic.location.line.toNat}:{diagnostic.location.column.toNat}:\n" ++
    "  | \n" ++
    String.join (diagnostic.excerpts.map excerpt) ++
    if diagnostic.hint.isEmpty then "" else "\n\n" ++ diagnostic.hint

/-- The diagnostic as JSON. -/
def toJson (diagnostic : Diagnostic) : Json :=
  .object [("code", .string diagnostic.code.name), ("message", .string diagnostic.message),
    ("file_name", .string diagnostic.fileName), ("location", diagnostic.location.toJson),
    ("excerpt", .array (diagnostic.excerpts.map Excerpt.toJson)),
    ("hint", .string diagnostic.hint)]

/-- Reads a diagnostic, all of whose fields are required. -/
def ofJson? (json : Json) : Option Diagnostic := do
  let [code, message, fileName, location, excerpts, hint] ←
    json.record? ["code", "message", "file_name", "location", "excerpt", "hint"] | none
  return {
    code := ← ErrorCode.ofJson? (← code)
    message := ← (← message).string?
    fileName := ← (← fileName).string?
    location := ← Location.ofJson? (← location)
    excerpts := ← (← (← excerpts).array?).mapM Excerpt.ofJson?
    hint := ← (← hint).string? }

end Diagnostic

end Oreo
