import Oreo.Parse.Statement
import Oreo.Token.Lexer

/-!
# Programs

Here the circle of the rules is closed. A rule passes a token before it asks the grammar for a
part, so the grammar for parts in front of which at most `n` tokens are left is made from the
one for fewer than `n`, and the number of tokens in front of a parser tells which one it needs.
`Grammar.full` chooses it, and no bound is left to be seen.
-/

namespace Oreo

namespace Grammar

/-- The grammar whose parts are read by the given one. -/
def step (parse : Grammar) : Grammar
  | .statement => parse.statement
  | .expression => parse.expression
  | .named => parse.named false
  | .indexed target => parse.indexed target
  | .conditional => parse.conditional

/-- The grammar for parts in front of which fewer than the given number of tokens is left. -/
def below : Nat → Grammar
  | 0 => fun _ => Parser.failAtEnd .expression
  | bound + 1 => (below bound).step

/-- The grammar of the language, for any number of tokens. -/
def full : Grammar := fun goal scope tokens => below (tokens.length + 1) goal scope tokens

/-- Statements up to the end of the source; a semicolon may follow each. At most the given
number of statements is read. -/
def statements (parse : Grammar) : Nat → Parser (List Node)
  | 0 => return []
  | budget + 1 => do
    if ← Parser.atEnd then return []
    else
      let first ← parse.statement
      let _ ← Parser.eat .semicolon
      let others ← statements parse budget
      return first :: others

/-- A whole program. A case that is left outside all switches is an error. A statement takes
at least one token, so there are no more statements than tokens. -/
def program (parse : Grammar) : Parser (List Node) := do
  let statements ← parse.statements (← Parser.left)
  match statements.findSome? Node.clause? with
  | some branch => Parser.fail (.caseOutsideSwitch branch.summary) branch.location
  | none => return statements

end Grammar

namespace Parser

/-- Reads a statement. -/
def statement : Parser Node := Grammar.full.statement

/-- Reads an expression. -/
def expression : Parser Node := Grammar.full.expression

/-- Reads an operand. -/
def primary : Parser Node := Grammar.full.primary

/-- Reads a name and all that it leads. -/
def named (assignmentDue : Bool) : Parser Node := Grammar.full.named assignmentDue

/-- Reads statements in braces. -/
def block : Parser Node := Grammar.full.block

/-- Reads a body. -/
def body : Parser Node := Grammar.full.body

/-- Reads a program. -/
def program : Parser (List Node) := Grammar.full.program

end Parser

/-- Reads the program that a list of tokens is. -/
def parseTokens (options : Options) (tokens : List Token) : Reply (List Node) :=
  Parser.program (Scope.ofTokens options tokens) tokens

/-- The program that a source is. -/
def parse (options : Options) (source : String) : Except SourceError (List Node) :=
  match tokenize source with
  | .error error => .error ⟨.scan error.value, error.location⟩
  | .ok tokens =>
    match (parseTokens options tokens).outcome with
    | .error error => .error ⟨.parse error.value, error.location⟩
    | .ok program => .ok program

end Oreo
