import Oreo.Parse.Program

/-!
# Sessions over a list of tokens

A session is a list of tokens with a current place in it, which may be moved by hand and is
moved by parsing. Parsing starts anew at the current place each time, with the full limit on
nesting, so a session can be used again after an error. Steps over the tokens are added in words
of 64 bits, so that a step that is too large for a word leads back.
-/

namespace Oreo

/-- A list of tokens that is read from a current place on. -/
structure Session where
  /-- The options for parsing. -/
  options : Options
  /-- All tokens. -/
  tokens : List Token
  /-- How many of them stand before the current place. -/
  position : Nat := 0

/-- A place in a session to which it can return. -/
structure Checkpoint where
  /-- How many tokens stand before the place. -/
  position : Nat
deriving DecidableEq, Repr

namespace Session

/-- The tokens from the current place on. -/
def rest (session : Session) : List Token := session.tokens.drop session.position

/-- The number of tokens before the place that many tokens behind the current one, as a word. -/
def placeBehind (session : Session) (count : UInt64) : Nat :=
  (UInt64.ofNat session.position + count).toNat

/-- The current token. -/
def current? (session : Session) : Option Token := session.tokens[session.position]?

/-- The token that stands the given number of tokens behind the current one. -/
def ahead? (session : Session) (count : UInt64) : Option Token :=
  session.tokens[session.placeBehind count]?

/-- The token before the current place. -/
def previous? (session : Session) : Option Token :=
  match session.position with
  | 0 => none
  | before + 1 => session.tokens[before]?

/-- Whether all tokens have been passed. -/
def isAtEnd (session : Session) : Bool := session.tokens.length ≤ session.position

/-- Passes tokens, or all that are left. -/
def skip (session : Session) (count : UInt64) : Session :=
  { session with position := min (session.placeBehind count) session.tokens.length }

/-- Passes the current token. -/
def next (session : Session) : Option Token × Session :=
  match session.current? with
  | some token => (some token, { session with position := session.position + 1 })
  | none => (none, session)

/-- The current place. -/
def checkpoint (session : Session) : Checkpoint := ⟨session.position⟩

/-- Returns to a place. -/
def restore (session : Session) (checkpoint : Checkpoint) : Session :=
  { session with position := checkpoint.position }

/-- Reads the tokens from the current place on as a program, and moves to where the reading
stopped, also after an error. -/
def parse (session : Session) : Except ParseError (List Node) × Session :=
  let reply := Parser.program (Scope.ofTokens session.options session.tokens) session.rest
  (reply.outcome, { session with position := session.tokens.length - reply.rest.length })

end Session

end Oreo
