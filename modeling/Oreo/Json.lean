import Oreo.Number.Layout

/-!
# JSON values and their text

`Json` is the structured form in which tokens, trees and diagnostics are written. The fields
of an object keep the order in which they are given, so the text is determined by the value.
`Json.write` renders a value either on one line or indented, as a `Json.Layout` says.

Strings are escaped as little as possible: the quote, the backslash and the control characters
below the space; every other character stands for itself.
-/

namespace Oreo

/-- A JSON value. -/
inductive Json where
  /-- The value `null`. -/
  | null
  /-- A truth value. -/
  | bool (value : Bool)
  /-- A whole number. -/
  | integer (value : Int)
  /-- A number written with a point or an exponent. -/
  | double (value : Double)
  /-- A text. -/
  | string (value : String)
  /-- A list of values. -/
  | array (items : List Json)
  /-- Named values, in order. -/
  | object (fields : List (String × Json))

namespace Json

/-- A natural number as JSON. -/
def natural (value : Nat) : Json := .integer value

/-- An optional value, absent as `null`. -/
def ofOption {α : Type} (encode : α → Json) : Option α → Json
  | none => .null
  | some value => encode value

/-- One character as it stands between quotes. -/
def escape (character : Char) : List Char :=
  if character = '"' then ['\\', '"']
  else if character = '\\' then ['\\', '\\']
  else if character = '\n' then ['\\', 'n']
  else if character = '\r' then ['\\', 'r']
  else if character = '\t' then ['\\', 't']
  else if character = '\x08' then ['\\', 'b']
  else if character = '\x0c' then ['\\', 'f']
  else if character.toNat < 0x20 then
    let code := character.toNat
    ['\\', 'u', '0', '0', Nat.digitChar (code / 16), Nat.digitChar (code % 16)]
  else [character]

/-- A text between quotes. -/
def quote (text : String) : String :=
  "\"" ++ String.ofList (text.toList.flatMap escape) ++ "\""

/-- How the parts of a value are spaced. -/
structure Layout where
  /-- What stands before an element at the given depth, and before a closing bracket. -/
  lineBreak : Nat → String
  /-- What stands between a name and its value. -/
  colon : String

/-- Everything on one line, without a blank. -/
def Layout.compact : Layout := ⟨fun _ => "", ":"⟩

/-- One element a line, indented by two blanks a level. -/
def Layout.indented : Layout :=
  ⟨fun depth => "\n" ++ String.ofList (List.replicate (2 * depth) ' '), ": "⟩

mutual

/-- The text of a value that stands at the given depth. -/
def writeAt (layout : Layout) (depth : Nat) : Json → String
  | .null => "null"
  | .bool value => if value then "true" else "false"
  | .integer value => toString value
  | .double value => value.write .data
  | .string value => quote value
  | .array [] => "[]"
  | .array (item :: items) =>
    "[" ++ layout.lineBreak (depth + 1) ++ writeAt layout (depth + 1) item ++
      writeItems layout depth items
  | .object [] => "\x7b\x7d"
  | .object ((name, value) :: fields) =>
    "\x7b" ++ layout.lineBreak (depth + 1) ++ quote name ++ layout.colon ++
      writeAt layout (depth + 1) value ++ writeFields layout depth fields

/-- The items of an array behind its first, and the closing bracket. -/
def writeItems (layout : Layout) (depth : Nat) : List Json → String
  | [] => layout.lineBreak depth ++ "]"
  | item :: items =>
    "," ++ layout.lineBreak (depth + 1) ++ writeAt layout (depth + 1) item ++
      writeItems layout depth items

/-- The fields of an object behind its first, and the closing brace. -/
def writeFields (layout : Layout) (depth : Nat) : List (String × Json) → String
  | [] => layout.lineBreak depth ++ "\x7d"
  | (name, value) :: fields =>
    "," ++ layout.lineBreak (depth + 1) ++ quote name ++ layout.colon ++
      writeAt layout (depth + 1) value ++ writeFields layout depth fields

end

/-- The text of a value. -/
def write (layout : Layout) (json : Json) : String := json.writeAt layout 0

end Json

end Oreo
