import Oreo.Json
import Oreo.Location

/-!
# Tokens

A token is a classified run of characters with its place in the source. Keywords, operators
and punctuation are closed sets, each with its spelling; `Token.text` writes a token as the
source would, with string escapes resolved and numbers by value.

A token that is not read from a source may hold any operator text and any punctuation character.
What the language does not know stands apart, as `otherOperator` and `otherMark`.
-/

namespace Oreo

/-- The reserved words. -/
inductive Keyword where
  | var
  | let
  | if
  | else
  | elseif
  | while
  | do
  | for
  | switch
  | case
  | default
  | fn
  | return
deriving DecidableEq, Repr

namespace Keyword

/-- The keyword as it is written. -/
def text : Keyword → String
  | .var => "var"
  | .let => "let"
  | .if => "if"
  | .else => "else"
  | .elseif => "elseif"
  | .while => "while"
  | .do => "do"
  | .for => "for"
  | .switch => "switch"
  | .case => "case"
  | .default => "default"
  | .fn => "fn"
  | .return => "return"

/-- All keywords. -/
def all : List Keyword :=
  [.var, .let, .if, .else, .elseif, .while, .do, .for, .switch, .case, .default, .fn, .return]

/-- The keyword that is written as the given word. -/
def ofText? (word : String) : Option Keyword := all.find? (·.text == word)

end Keyword

/-- The binary operators. The last four are not written in one token: `=`, `<=`, `>=` and
`..` have a place in the table of precedences only. -/
inductive Operator where
  | or
  | and
  | less
  | greater
  | equal
  | notEqual
  | add
  | subtract
  | power
  | multiply
  | divide
  | modulo
  | assign
  | lessEqual
  | greaterEqual
  | concat
deriving DecidableEq, Repr

namespace Operator

/-- The operator as it is written. -/
def text : Operator → String
  | .or => "||"
  | .and => "&&"
  | .less => "<"
  | .greater => ">"
  | .equal => "=="
  | .notEqual => "!="
  | .add => "+"
  | .subtract => "-"
  | .power => "^"
  | .multiply => "*"
  | .divide => "/"
  | .modulo => "%"
  | .assign => "="
  | .lessEqual => "<="
  | .greaterEqual => ">="
  | .concat => ".."

/-- All operators. -/
def all : List Operator :=
  [.or, .and, .less, .greater, .equal, .notEqual, .add, .subtract, .power, .multiply, .divide,
   .modulo, .assign, .lessEqual, .greaterEqual, .concat]

/-- The operator that is written as the given symbol. -/
def ofText? (symbol : String) : Option Operator := all.find? (·.text == symbol)

/-- How tightly the operator binds: a higher number binds tighter. -/
def precedence : Operator → Nat
  | .assign => 1
  | .or => 2
  | .and => 3
  | .less | .greater | .lessEqual | .greaterEqual | .equal | .notEqual => 7
  | .add | .subtract => 10
  | .power => 15
  | .multiply | .divide | .modulo => 20
  | .concat => 30

end Operator

/-- The punctuation marks. -/
inductive Punctuation where
  | openParen
  | closeParen
  | openBrace
  | closeBrace
  | openBracket
  | closeBracket
  | dot
  | comma
  | semicolon
  | colon
  | equals
  | bar
  | bang
deriving DecidableEq, Repr

namespace Punctuation

/-- The character of the mark. -/
def character : Punctuation → Char
  | .openParen => '('
  | .closeParen => ')'
  | .openBrace => '\x7b'
  | .closeBrace => '\x7d'
  | .openBracket => '['
  | .closeBracket => ']'
  | .dot => '.'
  | .comma => ','
  | .semicolon => ';'
  | .colon => ':'
  | .equals => '='
  | .bar => '|'
  | .bang => '!'

/-- All punctuation marks. -/
def all : List Punctuation :=
  [.openParen, .closeParen, .openBrace, .closeBrace, .openBracket, .closeBracket, .dot, .comma,
   .semicolon, .colon, .equals, .bar, .bang]

/-- The mark with the given character. -/
def ofCharacter? (character : Char) : Option Punctuation :=
  all.find? (·.character == character)

/-- The mark as text. -/
def text (mark : Punctuation) : String := String.singleton mark.character

end Punctuation

namespace Token

/-- The classes of tokens with their values. -/
inductive Kind where
  /-- A name that is no keyword. -/
  | identifier (name : String)
  /-- A reserved word. -/
  | keyword (keyword : Keyword)
  /-- A number, by value. -/
  | number (value : Double)
  /-- A quoted text with its escapes resolved, and the quote that opened it. -/
  | string (value : String) (quote : Char)
  /-- One of the words `true` and `false`. -/
  | boolean (value : Bool)
  /-- A binary operator. -/
  | operator (operator : Operator)
  /-- A punctuation mark. -/
  | punctuation (mark : Punctuation)
  /-- An operator that the language does not know. -/
  | otherOperator (text : String) (unknown : Operator.ofText? text = none)
  /-- A punctuation character that the language does not know. -/
  | otherMark (character : Char) (unknown : Punctuation.ofCharacter? character = none)
  /-- A comment to the end of its line, without its two slashes. -/
  | lineComment (text : String)
  /-- A comment between markers, without the outer ones. -/
  | blockComment (text : String)
deriving DecidableEq, Repr

namespace Kind

/-- The name of the class. -/
def name : Kind → String
  | .identifier _ => "Identifier"
  | .keyword _ => "Keyword"
  | .number _ => "NumberLiteral"
  | .string .. => "StringLiteral"
  | .boolean _ => "BooleanLiteral"
  | .operator _ | .otherOperator .. => "Operator"
  | .punctuation _ | .otherMark .. => "Punctuation"
  | .lineComment _ => "CommentLine"
  | .blockComment _ => "MultiLineComment"

/-- The token as a source would write it. -/
def text : Kind → String
  | .identifier name => name
  | .keyword word => word.text
  | .number value => value.write .message
  | .string value quote => String.singleton quote ++ value ++ String.singleton quote
  | .boolean value => if value then "true" else "false"
  | .operator symbol => symbol.text
  | .punctuation mark => mark.text
  | .otherOperator text _ => text
  | .otherMark character _ => String.singleton character
  | .lineComment text => "//" ++ text
  | .blockComment text => "/*" ++ text ++ "*/"

/-- The value of the token as JSON. -/
def valueJson : Kind → Json
  | .identifier name => .string name
  | .keyword word => .string word.text
  | .number value => .double value
  | .string value quote =>
    .object [("value", .string value), ("quote", .string (String.singleton quote))]
  | .boolean value => .bool value
  | .operator symbol => .string symbol.text
  | .punctuation mark => .string mark.text
  | .otherOperator text _ => .string text
  | .otherMark character _ => .string (String.singleton character)
  | .lineComment text => .string text
  | .blockComment text => .string text

end Kind

end Token

/-- A classified run of characters and its place. -/
structure Token where
  /-- The class, with its value. -/
  kind : Token.Kind
  /-- The span of the token in the source. -/
  location : Location
deriving DecidableEq, Repr

/-- A location as JSON. -/
def Location.toJson (location : Location) : Json :=
  .object [("start", .natural location.start), ("end", .natural location.stop),
    ("line", .natural location.line.toNat), ("column", .natural location.column.toNat)]

namespace Token

/-- The token as a source would write it. -/
def text (token : Token) : String := token.kind.text

/-- Whether the token is a name. -/
def isIdentifier (token : Token) : Bool :=
  match token.kind with
  | .identifier _ => true
  | _ => false

/-- Whether the token is an operator, known or not. -/
def isOperator (token : Token) : Bool :=
  match token.kind with
  | .operator _ | .otherOperator .. => true
  | _ => false

/-- The operator, if the token is one that the language knows. -/
def operator? (token : Token) : Option Operator :=
  match token.kind with
  | .operator symbol => some symbol
  | _ => none

/-- Whether the token is the given punctuation mark. -/
def isMark (token : Token) (mark : Punctuation) : Bool := token.kind == .punctuation mark

/-- Whether the token is the given keyword. -/
def isKeyword (token : Token) (keyword : Keyword) : Bool := token.kind == .keyword keyword

/-- The token as JSON. -/
def toJson (token : Token) : Json :=
  .object [("type", .string token.kind.name), ("value", token.kind.valueJson),
    ("loc", token.location.toJson)]

end Token

end Oreo
