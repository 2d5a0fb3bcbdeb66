import Oreo.Parse.Expression

/-!
# The grammar of statements

Statements are told apart by their first token. As for expressions, each rule is a function of
the grammar that it uses for its parts.
-/

namespace Oreo

/-- The name and the arguments, if the node is a call or a chain of members that ends in one. -/
def Node.signature? : Node → Option (Node × List Node)
  | .call callee arguments _ => some (callee, arguments)
  | .member owner property separator _ =>
    match property.signature? with
    | some (name, arguments) =>
      some (.member owner name separator (owner.location.through name.location), arguments)
    | none => none
  | _ => none

/-- The case that the node is. -/
def Node.clause? : Node → Option Clause
  | .clause branch => some branch
  | _ => none

namespace Grammar

open Oreo.Parser

/-- A new variable. -/
def declaration (parse : Grammar) : Parser Node := do
  let keyword ← take
  let name ← expectIdentifier .variableName
  match ← eat .equals with
  | some _ =>
    let value ← parse .expression
    return .declaration name (some value) (keyword.through value.location)
  | none => return .declaration name none (keyword.through name.location)

/-- What is done if a test fails: a block behind `else`, another test behind `elseif`. -/
def alternate (parse : Grammar) : Parser (Option Node) := do
  if ← seesKeyword .else then
    skip 1
    some <$> parse.block
  else if ← seesKeyword .elseif then some <$> nested (parse .conditional)
  else return none

/-- An `if`, from its keyword on, which may also be `elseif`. A semicolon may stand before what
is done otherwise. -/
def conditional (parse : Grammar) : Parser Node := do
  let keyword ← take
  let test ← parse .expression
  let consequent ← parse.body
  eatSemicolonBefore [.else, .elseif]
  let alternate ← parse.alternate
  return .conditional test consequent alternate
    (keyword.through (alternate.getD consequent).location)

/-- A loop that tests before each round. -/
def whileLoop (parse : Grammar) : Parser Node := do
  let keyword ← take
  let test ← parse .expression
  let body ← parse.body
  return .whileLoop test body (keyword.through body.location)

/-- A loop that tests after each round. A semicolon may stand before the test. -/
def doWhileLoop (parse : Grammar) : Parser Node := do
  let keyword ← take
  let body ← parse.body
  eatSemicolonBefore [.while]
  if ← seesKeyword .while then
    skip 1
    let test ← parse .expression
    return .doWhileLoop test body (keyword.through test.location)
  else failHere (.expectedToken "'while'" .doWhile)

/-- The step of a `for` loop. If it is left out, the variable that the loop declares is
incremented; the step is then placed at the name of the variable. -/
def forUpdate (parse : Grammar) (initial : Node) : Parser Node := do
  match ← eat .comma with
  | some _ => parse .statement
  | none =>
    match initial with
    | .declaration name _ _ =>
      if ← atEnd then failHere (.expectedToken "'comma'" .forLoop)
      else return .update name .increment name.location
    | _ => failHere (.expectedToken "'comma'" .forLoop)

/-- A loop with a start, a test and a step between commas. -/
def forLoop (parse : Grammar) : Parser Node := do
  let keyword ← take
  let initial ← parse .statement
  match ← eat .comma with
  | none => failHere (.expectedToken "'comma'" .forLoop)
  | some _ =>
    let test ← parse .expression
    let update ← parse.forUpdate initial
    let body ← parse.body
    return .forLoop initial test update body (keyword.through body.location)

/-- The entries of a switch, all of which have to be cases. The switch is shown if one is
not. -/
def clausesOf (shown : String) : List Node → Parser (List Clause)
  | [] => return []
  | entry :: entries =>
    match entry.clause? with
    | some branch => return branch :: (← clausesOf shown entries)
    | none => fail (.nonCaseInSwitch shown) entry.location

/-- A choice among cases. -/
def switch (parse : Grammar) : Parser Node := do
  let keyword ← take
  let subject ← parse .expression
  let (entries, location) ← parse.blockParts
  let clauses ← clausesOf ("switch " ++ subject.summary ++ " \x7b...\x7d") entries
  return .switch subject clauses (keyword.through location)

/-- Further values of a case, each behind a bar. At most the given number is read. -/
def alternatives (parse : Grammar) : Nat → Parser (List Node)
  | 0 => return []
  | budget + 1 => do
    match ← eat .bar with
    | none => return []
    | some _ =>
      let value ← parse .expression
      let others ← alternatives parse budget
      return value :: others

/-- The keyword of a case and the values that the case is for; the default has none. Each value
takes at least one token, so there are no more values than tokens. -/
def clauseHead (parse : Grammar) : Parser (Clause.Kind × Pattern) := do
  if ← seesKeyword .default then
    skip 1
    return (.default, .none)
  else
    skip 1
    let first ← parse .expression
    let others ← parse.alternatives (← left)
    return (.case, .ofValues first others)

/-- The body of a case: a block, or a statement behind a colon. -/
def clauseBody (parse : Grammar) : Parser Node := do
  if ← sees .openBrace then parse.block
  else
    match ← eat .colon with
    | some _ => parse .statement
    | none => failHere (.unexpectedToken .case)

/-- A case or the default. -/
def clause (parse : Grammar) : Parser Node := do
  let keyword ← here
  let (kind, pattern) ← parse.clauseHead
  let body ← parse.clauseBody
  return .clause { kind, pattern, body, location := keyword.through body.location }

/-- The parameters that the arguments of a signature stand for, all of which have to be
names. -/
def parametersOf : List Node → Parser (List Token)
  | [] => return []
  | argument :: arguments =>
    match argument.identifier? with
    | some name => return name :: (← parametersOf arguments)
    | none =>
      fail (.expectedKind "identifier" .parameters (some argument.summary)) argument.location

/-- A function with a name. The name and the parameters are read as if they were a call. -/
def namedFunction (parse : Grammar) : Parser Node := do
  let keyword ← take
  if (← peek).any Token.isIdentifier then
    match (← parse.named false).signature? with
    | none => failHere (.expectedToken "'('" .functionName)
    | some (name, arguments) =>
      let parameters ← parametersOf arguments
      let body ← parse.body
      return .function name parameters body (keyword.through body.location)
  else failHere (.expectedKind "identifier" .functionName)

/-- A function, with or without a name. -/
def function (parse : Grammar) : Parser Node := do
  if (← peekSecond).any (·.isMark .openParen) then parse.lambda else parse.namedFunction

/-- The end of a function. It has no result before a semicolon, a closing brace or the end of
the source. -/
def returns (parse : Grammar) : Parser Node := do
  let keyword ← take
  match ← peek with
  | none => return .returns none keyword
  | some token =>
    if token.isMark .semicolon || token.isMark .closeBrace then
      return .returns none keyword
    else
      let value ← parse .expression
      return .returns (some value) (keyword.through value.location)

/-- The statement that begins with the given keyword, which is the current token. -/
def keywordStatement (parse : Grammar) (keyword : Located Keyword) : Parser Node :=
  match keyword.value with
  | .let => parse.declaration
  | .var => parse.declaration
  | .if => parse.conditional
  | .while => parse.whileLoop
  | .do => parse.doWhileLoop
  | .for => parse.forLoop
  | .switch => parse.switch
  | .case => parse.clause
  | .default => parse.clause
  | .fn => parse.function
  | .return => parse.returns
  | .else => fail (.unexpectedKeyword .else) keyword.location
  | .elseif => fail (.unexpectedKeyword .elseif) keyword.location

/-- A statement, one level deeper than what surrounds it. -/
def statement (parse : Grammar) : Parser Node := nested do
  match ← peek with
  | none => failAtEnd .statement
  | some token =>
    record (.entered token)
    match token.kind with
    | .keyword keyword => parse.keywordStatement ⟨keyword, token.location⟩
    | .identifier _ => parse.named true
    | .lineComment _ | .blockComment _ =>
      skip 1
      return .leaf token
    | _ => fail (.unexpectedToken .statement (some token.text)) token.location

end Grammar

end Oreo
