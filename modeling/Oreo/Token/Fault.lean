import Oreo.Diagnostic
import Oreo.Text.Blank

/-!
# Lexical faults

What can be wrong with a source before its grammar is looked at. A fault says what happened;
the place is kept beside it, in `Located`, so that a fault can be compared apart from where it
was found.
-/

namespace Oreo

/-- A value together with a place in the source. -/
structure Located (α : Type) where
  /-- The value. -/
  value : α
  /-- Where it belongs. -/
  location : Location
deriving DecidableEq, Repr

/-- Why a source is not a sequence of tokens. -/
inductive ScanFault where
  /-- The source ends inside a string: its opening quote and the content up to there. -/
  | unterminatedString (quote : Char) (content : String)
  /-- The mark of a binary literal stands before no binary digit. -/
  | invalidBinary
  /-- A character starts no token. -/
  | unexpectedCharacter (character : Char)
  /-- The source ends inside a block comment. -/
  | unterminatedComment
deriving DecidableEq, Repr

/-- A text that is shown in a diagnostic: of more than fifteen characters the first twelve and
three dots. -/
def shorten (text : String) : String :=
  if 15 < text.length then String.ofList (text.toList.take 12) ++ "..." else text

namespace ScanFault

/-- The headline of a fault. -/
def message : ScanFault → String
  | .unterminatedString .. => "Unterminated string literal:"
  | .invalidBinary => "A binary literal must have at least 1 valid digit:"
  | .unexpectedCharacter _ => "Unexpected character:"
  | .unterminatedComment => "Unterminated block comment:"

/-- The code of a fault. -/
def code : ScanFault → ErrorCode
  | .unterminatedString .. => .unterminatedString
  | .invalidBinary => .invalidBinaryLiteral
  | .unexpectedCharacter _ => .unexpectedCharacter
  | .unterminatedComment => .unterminatedString

/-- The beginning of a string that is not ended: the quote and the content without blanks at
its end, shortened. -/
def preview (quote : Char) (content : String) : String :=
  shorten (String.singleton quote ++ Text.trimEnd content)

/-- The line shown for a fault, and the marks below it. -/
def excerpt (line : UInt32) : ScanFault → Excerpt
  | .unterminatedString quote content =>
    let shown := preview quote content
    { line, text := shown, underline := Excerpt.run '-' shown.length ++ "^" }
  | .invalidBinary => { line, text := "0b", underline := "--^" }
  | .unexpectedCharacter character =>
    { line, text := String.singleton character, underline := "^" }
  | .unterminatedComment => .marked line "/* ... " 7 1

/-- The advice on a fault. -/
def hint : ScanFault → String
  | .unterminatedString quote _ =>
    let mark := String.singleton quote
    "Did you forget to end your string?\n" ++
      "Erroneous example: " ++ mark ++ "Hello, World!\n" ++
      "Valid example: " ++ mark ++ "Hello, World!" ++ mark
  | .invalidBinary =>
    "Try providing a valid binary literal.\n" ++
      "Erroneous example: '0b'\n" ++
      "Valid example: '0b0111010'"
  | .unexpectedCharacter character =>
    "Unknown character: '" ++ String.singleton character ++ "'.\n" ++
      "Expected an expression or statement."
  | .unterminatedComment =>
    "Incomplete comment: '/* ... '.\nExpected '*/' to close the comment."

end ScanFault

end Oreo
