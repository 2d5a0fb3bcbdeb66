import Oreo.Token.Fault

/-!
# Lexemes

A lexeme is what stands at the beginning of a text that does not start with a blank: its
class, and how many characters it takes. Nothing here knows about places in the source; the
lexeme depends on the text alone, and looks at most one character past its own end.

Every lexeme takes the longest run of its class. Where a character could begin two classes,
the order of the tests in `Lexeme.scan` decides: words, numbers, strings, comments, operators,
punctuation.
-/

namespace Oreo

/-- The class of a lexeme, or why there is none, and the number of characters it takes. -/
structure Lexeme where
  /-- The class with its value, or the fault. -/
  outcome : Except ScanFault Token.Kind
  /-- How many characters are taken. -/
  length : Nat

namespace Lexeme

/-- Whether a character starts a word: an ASCII letter or the underscore. -/
def isWordStart (character : Char) : Bool := character.isAlpha || character == '_'

/-- Whether a character continues a word: an ASCII letter or digit, or the underscore. -/
def isWordPart (character : Char) : Bool := character.isAlphanum || character == '_'

/-- Whether a character is a quote. Either quote ends a string, whichever began it. -/
def isQuote (character : Char) : Bool := character == '"' || character == '\''

/-- Whether a text starts with a decimal digit. -/
def startsWithDigit : List Char → Bool
  | [] => false
  | first :: _ => first.isDigit

/-- The class of a word: keywords and the two truth values are reserved. -/
def wordKind (word : String) : Token.Kind :=
  match Keyword.ofText? word with
  | some keyword => .keyword keyword
  | none =>
    if word = "true" then .boolean true
    else if word = "false" then .boolean false
    else .identifier word

/-- The word at the beginning of a text. -/
def word (text : List Char) : Lexeme :=
  let letters := text.takeWhile isWordPart
  { outcome := .ok (wordKind (String.ofList letters)), length := letters.length }

/-- The longest run of digits, and of dots that stand directly before a digit. -/
def decimalRun : List Char → List Char
  | [] => []
  | first :: rest =>
    if first.isDigit || (first == '.' && startsWithDigit rest) then first :: decimalRun rest
    else []

/-- The decimal number at the beginning of a text. A run with several dots is one number. -/
def decimal (text : List Char) : Lexeme :=
  let run := decimalRun text
  { outcome := .ok (.number (.ofDecimalRun run)), length := run.length }

/-- Whether a character is a binary digit. -/
def isBinaryDigit (character : Char) : Bool := character == '0' || character == '1'

/-- The number of digits of a run, counted in a signed word of 32 bits: behind `2 ^ 32` digits
the count is zero again. -/
def digitCount (digits : List Char) : Int32 := digits.foldl (fun count _ => count + 1) 0

/-- The binary number whose mark stands before the text. A run whose count of digits is zero is
no number. -/
def binary (text : List Char) : Lexeme :=
  let digits := text.takeWhile isBinaryDigit
  { outcome :=
      if digitCount digits = 0 then .error .invalidBinary
      else .ok (.number (.ofBinaryDigits digits))
    length := 2 + digits.length }

/-- The number at the beginning of a text. -/
def number : List Char → Lexeme
  | '0' :: 'b' :: rest => binary rest
  | '0' :: 'B' :: rest => binary rest
  | text => decimal text

/-- The characters that an escape stands for, by the character behind the backslash. An
unknown escape stands for itself. -/
def unescape (character : Char) : List Char :=
  if character = 'n' then ['\n']
  else if character = 't' then ['\t']
  else if character = 'r' then ['\r']
  else if character = '\\' || isQuote character then [character]
  else ['\\', character]

/-- What follows an opening quote: the content with its escapes resolved, the number of
characters read, and whether a closing quote was among them. -/
structure StringBody where
  /-- The resolved content. -/
  content : List Char
  /-- The number of characters read, the closing quote included. -/
  length : Nat
  /-- Whether the string is ended. -/
  isClosed : Bool
deriving DecidableEq, Repr

/-- A body that starts with the given content, read from the given number of characters. -/
def StringBody.prepend (body : StringBody) (content : List Char) (length : Nat) : StringBody :=
  { body with content := content ++ body.content, length := length + body.length }

/-- Reads up to and with the first quote that is not escaped, or to the end of the text. A
backslash at the end of the text is dropped. -/
def stringBody : List Char → StringBody
  | [] => { content := [], length := 0, isClosed := false }
  | first :: rest =>
    if first = '\\' then
      match rest with
      | [] => { content := [], length := 1, isClosed := false }
      | escaped :: rest => (stringBody rest).prepend (unescape escaped) 2
    else if isQuote first then { content := [], length := 1, isClosed := true }
    else (stringBody rest).prepend [first] 1

/-- The string whose opening quote stands before the text. -/
def string (quote : Char) (text : List Char) : Lexeme :=
  let body := stringBody text
  let content := String.ofList body.content
  { outcome :=
      if body.isClosed then .ok (.string content quote)
      else .error (.unterminatedString quote content)
    length := 1 + body.length }

/-- The comment whose two slashes stand before the text. It takes the line feed that ends it,
which is no part of its value. -/
def lineComment (text : List Char) : Lexeme :=
  let line := text.takeWhile (· != '\n')
  let lineFeed := if line.length < text.length then 1 else 0
  { outcome := .ok (.lineComment (String.ofList line)), length := 2 + line.length + lineFeed }

/-- How many characters it takes to close `depth + 1` open block comments. Markers are read
from left to right, two characters each, and comments nest. -/
def closeBlocks (depth : Nat) : List Char → Option Nat
  | [] => none
  | [_] => none
  | first :: second :: rest =>
    if first = '*' ∧ second = '/' then
      match depth with
      | 0 => some 2
      | depth + 1 => (closeBlocks depth rest).map (2 + ·)
    else if first = '/' ∧ second = '*' then (closeBlocks (depth + 1) rest).map (2 + ·)
    else (closeBlocks depth (second :: rest)).map (1 + ·)

/-- The comment whose opening marker stands before the text. Its value is everything up to
the closing marker, inner markers included. -/
def blockComment (text : List Char) : Lexeme :=
  match closeBlocks 0 text with
  | some length =>
    { outcome := .ok (.blockComment (String.ofList (text.take (length - 2))))
      length := 2 + length }
  | none => { outcome := .error .unterminatedComment, length := 2 + text.length }

/-- The operators of one character. -/
def singleOperators : List Operator :=
  [.add, .subtract, .multiply, .divide, .less, .greater, .power, .modulo]

/-- The operators of two characters. -/
def doubleOperators : List Operator := [.or, .and, .equal, .notEqual]

/-- The operator of one character that a character is. -/
def singleOperator? (first : Char) : Option Operator :=
  singleOperators.find? (·.text.toList == [first])

/-- The operator of two characters that two characters are. -/
def doubleOperator? (first second : Char) : Option Operator :=
  doubleOperators.find? (·.text.toList == [first, second])

/-- The operator or punctuation mark at the beginning of a text. A character that is neither
is not taken. -/
def symbol (first : Char) (rest : List Char) : Lexeme :=
  match singleOperator? first, rest.head?.bind (doubleOperator? first),
      Punctuation.ofCharacter? first with
  | some operator, _, _ => { outcome := .ok (.operator operator), length := 1 }
  | none, some operator, _ => { outcome := .ok (.operator operator), length := 2 }
  | none, none, some mark => { outcome := .ok (.punctuation mark), length := 1 }
  | none, none, none => { outcome := .error (.unexpectedCharacter first), length := 0 }

/-- The lexeme at the beginning of a text whose first character is not blank. -/
def scan (first : Char) (rest : List Char) : Lexeme :=
  if isWordStart first then word (first :: rest)
  else if first.isDigit || (first == '.' && startsWithDigit rest) then number (first :: rest)
  else if isQuote first then string first rest
  else if first = '/' ∧ rest.head? = some '/' then lineComment (rest.drop 1)
  else if first = '/' ∧ rest.head? = some '*' then blockComment (rest.drop 1)
  else symbol first rest

end Lexeme

end Oreo
