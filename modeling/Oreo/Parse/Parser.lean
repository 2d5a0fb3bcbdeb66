import Oreo.Node.Basic
import Oreo.Parse.Fault

/-!
# Parsers over tokens

A parser reads tokens from the front of a list. Its reply holds what it made of them, or the
error it found; the tokens that are left, also after an error; and the events on the way. A
parser never sees the tokens that were read before. All that it knows besides the tokens in
front of it is its `Scope`: how many levels of nesting may still be opened, and the last token
of the source, behind which an unexpected end is reported.

The parsers here are the small ones from which the grammar is put together. Each looks at two
tokens at most.
-/

namespace Oreo

/-- What a parser knows besides the tokens in front of it. -/
structure Scope where
  /-- The number of levels of nesting that the options accept. -/
  limit : Nat
  /-- How many more levels may be opened here. -/
  room : Nat
  /-- The last token of the source. -/
  last : Option Token
deriving DecidableEq, Repr

namespace Scope

/-- The scope in which the tokens of a source are read. -/
def ofTokens (options : Options) (tokens : List Token) : Scope where
  limit := options.maxDepth
  room := options.maxDepth
  last := tokens.getLast?

/-- The empty span at the end of the source. It is said to be on the line and in the column at
which the last token starts. -/
def finish (scope : Scope) : Location :=
  match scope.last with
  | some token =>
    { start := token.location.stop, stop := token.location.stop,
      line := token.location.line, column := token.location.column }
  | none => { start := 0, stop := 0, line := 1, column := 1 }

end Scope

/-- What is recorded while tokens are read. -/
inductive Event where
  /-- A statement begins with the token. -/
  | entered (token : Token)
  /-- A semicolon was looked past and put back; so many tokens stand behind it. -/
  | putBack (behind : Nat)
  /-- A level of nesting was opened. -/
  | descended
  /-- The level that was opened last was closed. -/
  | ascended
deriving DecidableEq, Repr

/-- A grammatical fault and its place. -/
abbrev ParseError := Located ParseFault

/-- What a parser answers. -/
structure Reply (α : Type) where
  /-- The value that was read, or the error. -/
  outcome : Except ParseError α
  /-- The tokens that are left. -/
  rest : List Token
  /-- What was recorded, in order. -/
  events : List Event := []

/-- A reader of tokens from the front of a list. -/
def Parser (α : Type) : Type := Scope → List Token → Reply α

namespace Parser

variable {α β : Type}

/-- Reads nothing. -/
protected def pure (value : α) : Parser α := fun _ tokens =>
  { outcome := .ok value, rest := tokens }

/-- Reads one thing and then another, which may depend on it. An error ends the reading. -/
protected def bind (first : Parser α) (next : α → Parser β) : Parser β := fun scope tokens =>
  match first scope tokens with
  | ⟨.ok value, rest, events⟩ =>
    let reply := next value scope rest
    { reply with events := events ++ reply.events }
  | ⟨.error error, rest, events⟩ => ⟨.error error, rest, events⟩

/-- Parsers are put in sequence, the second at what the first left. -/
instance : Monad Parser where
  pure := Parser.pure
  bind := Parser.bind

/-- Ends the reading with an error. -/
def fail (fault : ParseFault) (location : Location) : Parser α := fun _ tokens =>
  { outcome := .error ⟨fault, location⟩, rest := tokens }

/-- Records an event. -/
def record (event : Event) : Parser Unit := fun _ tokens =>
  { outcome := .ok (), rest := tokens, events := [event] }

/-- The current token, which is not passed. -/
def peek : Parser (Option Token) := fun _ tokens =>
  { outcome := .ok tokens.head?, rest := tokens }

/-- The token behind the current one; none is passed. -/
def peekSecond : Parser (Option Token) := fun _ tokens =>
  { outcome := .ok tokens.tail.head?, rest := tokens }

/-- The number of tokens that are left. -/
def left : Parser Nat := fun _ tokens => { outcome := .ok tokens.length, rest := tokens }

/-- Passes tokens, or all that are left. -/
def skip (count : Nat) : Parser Unit := fun _ tokens =>
  { outcome := .ok (), rest := tokens.drop count }

/-- The place of the current token, or the end of the source. -/
def here : Parser Location := fun scope tokens =>
  { outcome := .ok (tokens.head?.elim scope.finish Token.location), rest := tokens }

/-- Ends the reading because the source ends too early. The error is placed at the last token
of the source. -/
def failAtEnd (context : Construct) : Parser α := fun scope tokens =>
  match scope.last with
  | some token => fail (.unexpectedEnd context token.text) token.location scope tokens
  | none => fail (.unexpectedEnd context "") scope.finish scope tokens

/-- Reads at one level of nesting more, if there is room for it. The level is closed again
however the reading ends. -/
def nested (parser : Parser α) : Parser α := fun scope tokens =>
  match scope.room with
  | 0 => (here >>= fail (.nestingTooDeep scope.limit)) scope tokens
  | room + 1 =>
    let reply := parser { scope with room } tokens
    { reply with events := .descended :: (reply.events ++ [.ascended]) }

/-- Passes the current token and tells its place. -/
def take : Parser Location := do
  let place ← here
  skip 1
  return place

/-- Whether no token is left. -/
def atEnd : Parser Bool := return (← peek).isNone

/-- Whether the current token is the given mark. -/
def sees (mark : Punctuation) : Parser Bool := return (← peek).any (·.isMark mark)

/-- Whether the current token is the given keyword. -/
def seesKeyword (keyword : Keyword) : Parser Bool :=
  return (← peek).any (·.isKeyword keyword)

/-- Passes the current token if it is the given mark, and tells its place then. -/
def eat (mark : Punctuation) : Parser (Option Location) := do
  if ← sees mark then some <$> take else return none

/-- Ends the reading at the current token; the fault is told its text. -/
def failHere (fault : Option String → ParseFault) : Parser α := do
  let found := (← peek).map Token.text
  fail (fault found) (← here)

/-- Ends the reading because a bracket, opened at the given place, is not closed here. -/
def failUnclosed (bracket : Bracket) (context : Construct) (opened : Location) : Parser α := do
  let found := (← peek).map Token.text
  fail (.unclosedBracket bracket context found) opened

/-- Passes a name. -/
def expectIdentifier (context : Construct) : Parser Token := do
  match ← peek with
  | some token =>
    if token.isIdentifier then
      skip 1
      return token
    else failHere (.expectedKind "identifier" context)
  | none => failHere (.expectedKind "identifier" context)

/-- Passes the mark that closes a bracket, which was opened at the given place. -/
def expectClosing (bracket : Bracket) (context : Construct) (opened : Location) :
    Parser Location := do
  match ← eat bracket.closer with
  | some closed => return closed
  | none => failUnclosed bracket context opened

/-- Passes a semicolon if one of the keywords follows it. Any other semicolon stays. -/
def eatSemicolonBefore (keywords : List Keyword) : Parser Unit := do
  if ← sees .semicolon then
    let follower ← peekSecond
    if keywords.any fun keyword => follower.any (·.isKeyword keyword) then skip 1
    else record (.putBack ((← left) - 1))

/-- One or more items between commas, and the mark that closes the list. At most the given
number of items is read. -/
def separated (bracket : Bracket) (context : Construct) (opened : Location) (item : Parser α) :
    Nat → Parser (List α × Location)
  | 0 => fail (.unclosedBracket bracket context none) opened
  | budget + 1 => do
    match ← peek with
    | none => fail (.unclosedBracket bracket context none) opened
    | some token =>
      if token.isMark .comma then
        fail (.unexpectedToken context (some ",")) token.location
      else
        let first ← item
        match ← eat .comma with
        | some comma =>
          if ← sees bracket.closer then fail (.unexpectedToken context (some ",")) comma
          else
            let (others, closed) ← separated bracket context opened item budget
            return (first :: others, closed)
        | none => return ([first], ← expectClosing bracket context opened)

/-- Items between commas up to the mark that closes the list, which was opened at the given
place; the opening mark has been passed. A comma stands between two items and nowhere else. An
item takes at least one token, so there are no more items than tokens. -/
def delimited (bracket : Bracket) (context : Construct) (opened : Location) (item : Parser α) :
    Parser (List α × Location) := do
  match ← eat bracket.closer with
  | some closed => return ([], closed)
  | none => separated bracket context opened item (← left)

end Parser

end Oreo
