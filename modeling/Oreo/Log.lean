import Oreo.Parse.Program

/-!
# Logs

While a source is read, what happens is recorded at levels of detail. A record says what
happened; `LogRecord.message` holds the wording and `LogRecord.level` the level.
-/

namespace Oreo

/-- What is made of a source. -/
inductive Stage where
  /-- Its tokens. -/
  | tokens
  /-- Its program. -/
  | program
deriving DecidableEq, Repr

/-- Levels of detail, each of which includes those before it. -/
inductive LogLevel where
  | warning
  | information
  | debugging
  | tracing
deriving DecidableEq, Repr

namespace LogLevel

/-- The level as it is written. -/
def text : LogLevel → String
  | .warning => "WARN"
  | .information => "INFO"
  | .debugging => "DEBUG"
  | .tracing => "TRACE"

/-- The level after more detail was asked for the given number of times. -/
def ofVerbosity : Nat → LogLevel
  | 0 => .warning
  | 1 => .information
  | 2 => .debugging
  | _ => .tracing

/-- The place of the level among the levels. -/
def rank : LogLevel → Nat
  | .warning => 0
  | .information => 1
  | .debugging => 2
  | .tracing => 3

end LogLevel

/-- What is recorded while a source is read. -/
inductive LogRecord where
  /-- The source was read as so many tokens, on so many lines. -/
  | scanned (tokens : Nat) (lines : UInt32)
  /-- A statement begins with the token. -/
  | entered (token : Token)
  /-- The parser went back from one place among the tokens to another. -/
  | wentBack (origin target : Nat)
  /-- So many tokens were read as a program of so many statements. -/
  | parsed (statements tokens : Nat)
  /-- The tokens or statements of a source are ready. -/
  | finished (fileName : String) (stage : Stage) (count : Nat)
deriving DecidableEq, Repr

namespace LogRecord

/-- The record of an event that happened while so many tokens were parsed. Levels of nesting
leave none. -/
def ofEvent? (total : Nat) : Event → Option LogRecord
  | .entered token => some (.entered token)
  | .putBack behind => some (.wentBack (total - behind) (total - behind - 1))
  | .descended | .ascended => none

/-- The level of a record. -/
def level : LogRecord → LogLevel
  | .scanned .. | .parsed .. => .debugging
  | .entered .. | .wentBack .. => .tracing
  | .finished .. => .information

/-- The wording of a record. -/
def message : LogRecord → String
  | .scanned tokens lines =>
    "lexed " ++ toString tokens ++ " tokens over " ++ toString lines.toNat ++ " lines"
  | .entered token =>
    "statement at " ++ toString token.location.line.toNat ++ ":" ++
      toString token.location.column.toNat ++ " starts with '" ++ token.text ++ "'"
  | .wentBack origin target =>
    "restoring cursor " ++ toString origin ++ " -> " ++ toString target
  | .parsed statements tokens =>
    "parsed " ++ toString statements ++ " top-level statements from " ++ toString tokens ++
      " tokens"
  | .finished fileName .tokens count => fileName ++ ": " ++ toString count ++ " tokens"
  | .finished fileName .program count =>
    fileName ++ ": " ++ toString count ++ " top-level statements"

/-- A record as one line of a log. -/
def text (entry : LogRecord) : String := entry.level.text ++ " " ++ entry.message

end LogRecord

end Oreo
