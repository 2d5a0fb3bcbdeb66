import Oreo.Token.Lexeme

/-!
# The lexer

A lexer is the text that is still to be read together with the place where it begins. Reading
a token skips blanks, takes the next lexeme and moves past it. After a fault the lexer stays
where the lexeme left it, and can be asked again: an unexpected character is not passed, a
text that ended inside a string or comment is read to its end.
-/

namespace Oreo

/-- A text being read, from some place on. -/
structure Lexer where
  /-- The characters not yet read. -/
  rest : List Char
  /-- The place where they begin. -/
  position : Position := {}

/-- A lexical fault and its place. -/
abbrev ScanError := Located ScanFault

namespace Lexer

/-- A lexer at the beginning of a source. -/
def ofSource (source : String) : Lexer := { rest := source.toList }

/-- The lexer after the first characters have been read. -/
def drop (lexer : Lexer) (count : Nat) : Lexer where
  rest := lexer.rest.drop count
  position := lexer.position.advance (lexer.rest.take count)

/-- The lexer after leading blanks. -/
def skipBlanks (lexer : Lexer) : Lexer where
  rest := lexer.rest.dropWhile Text.isBlank
  position := lexer.position.advance (lexer.rest.takeWhile Text.isBlank)

/-- The number of characters that the location of a fault spans. A character that starts no
token is pointed at, though it is not read. -/
def faultLength : ScanFault → Nat → Nat
  | .unexpectedCharacter _, _ => 1
  | _, length => length

/-- Reads the next token; none when only blanks are left. -/
def next (lexer : Lexer) : Except ScanError (Option Token) × Lexer :=
  let lexer := lexer.skipBlanks
  match lexer.rest with
  | [] => (.ok none, lexer)
  | first :: rest =>
    let lexeme := Lexeme.scan first rest
    let result := match lexeme.outcome with
      | .ok kind => .ok (some ⟨kind, .ofPosition lexer.position lexeme.length⟩)
      | .error fault =>
        .error ⟨fault, .ofPosition lexer.position (faultLength fault lexeme.length)⟩
    (result, lexer.drop lexeme.length)

/-- Reads at most the given number of tokens, up to the end of the text or a fault. -/
def collect : Nat → Lexer → Except ScanError (List Token) × Lexer
  | 0, lexer => (.ok [], lexer)
  | budget + 1, lexer =>
    match lexer.next with
    | (.error fault, lexer) => (.error fault, lexer)
    | (.ok none, lexer) => (.ok [], lexer)
    | (.ok (some token), lexer) =>
      match lexer.collect budget with
      | (.ok tokens, lexer) => (.ok (token :: tokens), lexer)
      | (.error fault, lexer) => (.error fault, lexer)

/-- Reads all tokens up to the end of the text, or to the first fault. A token takes at least
one character, so there are no more tokens than characters; one round more finds the end. -/
def tokens (lexer : Lexer) : Except ScanError (List Token) × Lexer :=
  lexer.collect (lexer.rest.length + 1)

end Lexer

/-- The tokens of a source. -/
def tokenize (source : String) : Except ScanError (List Token) :=
  (Lexer.ofSource source).tokens.1

end Oreo
