import Oreo.Parse.Parser

/-!
# The grammar of expressions

The rules of the grammar call one another in circles. Each rule is therefore a function of the
grammar that it is to use for its parts, a `Grammar`, and calls it only after it has passed a
token; the circle is closed in one place, at the end of the grammar.
-/

namespace Oreo

/-- The parts that a rule may ask the grammar for. -/
inductive Goal where
  /-- A statement. -/
  | statement
  /-- A value. -/
  | expression
  /-- A name and all that it leads, such as a call or an assignment. -/
  | named
  /-- An index in brackets behind the given value, and all that it leads. -/
  | indexed (target : Node)
  /-- An `if`, from its keyword on. -/
  | conditional

/-- A parser for each part. -/
abbrev Grammar : Type := Goal → Parser Node

/-- The operator that is written as a binary operator twice. -/
def UpdateOperator.doubled? : Operator → Option UpdateOperator
  | .add => some .increment
  | .subtract => some .decrement
  | _ => none

/-- The separator that the token is. -/
def Token.separator? (token : Token) : Option MemberSeparator :=
  match token.kind with
  | .punctuation mark => MemberSeparator.ofMark? mark
  | _ => none

namespace Grammar

open Oreo.Parser

/-- Statements up to the brace that closes their block, which was opened at the given place. A
semicolon may follow each. At most the given number of statements is read. -/
def blockBody (parse : Grammar) (opened : Location) : Nat → Parser (List Node × Location)
  | 0 => fail (.unclosedBracket .brace .block none) opened
  | budget + 1 => do
    match ← eat .closeBrace with
    | some closed => return ([], closed)
    | none =>
      if ← atEnd then fail (.unclosedBracket .brace .block none) opened
      else
        let first ← parse .statement
        let _ ← eat .semicolon
        let (others, closed) ← blockBody parse opened budget
        return (first :: others, closed)

/-- The statements of a block and its place. A statement takes at least one token, so there
are no more statements than tokens. -/
def blockParts (parse : Grammar) : Parser (List Node × Location) := do
  if ← sees .openBrace then
    nested do
      let opened ← take
      let (body, closed) ← parse.blockBody opened (← left)
      return (body, opened.through closed)
  else failHere (.expectedToken "\"\x7b\"" .block)

/-- Statements in braces. -/
def block (parse : Grammar) : Parser Node := do
  let (body, location) ← parse.blockParts
  return .block body location

/-- The body of a loop, a function or a choice: a block if there is one, else a statement. -/
def body (parse : Grammar) : Parser Node := do
  if ← sees .openBrace then parse.block else parse .statement

/-- A member of the given object, if a separator and a name follow. -/
def members (parse : Grammar) (object : Node) : Parser Node := do
  match (← peek).bind Token.separator? with
  | none => return object
  | some separator =>
    if (← peekSecond).any Token.isIdentifier then
      skip 1
      let property ← nested (parse .named)
      return .member object property separator (object.location.through property.location)
    else return object

/-- Arguments in parentheses behind the given value, and a member of the result. -/
def call (parse : Grammar) (callee : Node) : Parser Node := do
  let opened ← take
  let (arguments, closed) ← nested (delimited .paren .arguments opened (parse .expression))
  parse.members (.call callee arguments (callee.location.through closed))

/-- An index in brackets behind the given value: it is assigned to, called, indexed again, or
has a member. -/
def indexed (parse : Grammar) (target : Node) : Parser Node := do
  let opened ← take
  let index ← nested (parse .expression)
  let closed ← expectClosing .square .index opened
  match ← eat .equals with
  | some _ =>
    let value ← nested (parse .expression)
    return .elementAssignment target index value (target.location.through value.location)
  | none =>
    let access := Node.access target index (target.location.through closed)
    if ← sees .openParen then parse.call access
    else if ← sees .openBracket then nested (parse (.indexed access))
    else parse.members access

/-- The value that a variable gets; the operator has been passed. -/
def assigned (parse : Grammar) (target : Token) (operator : AssignmentOperator) :
    Parser Node := do
  let value ← nested (parse .expression)
  return .assignment target operator value (target.location.through value.location)

/-- What a name leads, if a binary operator follows it: the operator may be doubled, or stand
before an equals sign. -/
def namedOperator (parse : Grammar) (name : Token) (operator : Operator) : Parser Node := do
  match ← peekSecond with
  | none => return .leaf name
  | some second =>
    if second.isMark .equals then
      match AssignmentOperator.compound? operator with
      | some assignment =>
        skip 2
        parse.assigned name assignment
      | none => return .leaf name
    else if second.operator? = some operator then
      match UpdateOperator.doubled? operator with
      | some update =>
        skip 2
        return .update name update (name.location.through second.location)
      | none => return .leaf name
    else return .leaf name

/-- A name and all that it leads: an assignment, an update, a call, a member or an index. Where
an assignment is due, a name must not be the last token of the source. -/
def named (parse : Grammar) (assignmentDue : Bool) : Parser Node := do
  match ← peek with
  | none => failAtEnd .expression
  | some name =>
    skip 1
    match ← peek with
    | none =>
      if assignmentDue then fail (.unexpectedEnd .assignment name.text) name.location
      else return .leaf name
    | some follower =>
      match follower.kind with
      | .operator operator => parse.namedOperator name operator
      | .punctuation .equals =>
        skip 1
        parse.assigned name .assign
      | .punctuation .openParen => parse.call (.leaf name)
      | .punctuation .dot => parse.members (.leaf name)
      | .punctuation .colon => parse.members (.leaf name)
      | .punctuation .openBracket => parse.indexed (.leaf name)
      | _ => return .leaf name

/-- An expression in parentheses, or an empty pair of them. -/
def parenthesized (parse : Grammar) : Parser Node := do
  let opened ← take
  if ← atEnd then fail (.unclosedBracket .paren .parenthesis none) opened
  else
    match ← eat .closeParen with
    | some closed => return .unit (opened.through closed)
    | none =>
      let inner ← parse .expression
      let _ ← expectClosing .paren .parenthesis opened
      return inner

/-- Values in brackets. -/
def array (parse : Grammar) : Parser Node := do
  let opened ← take
  let (elements, closed) ← delimited .square .array opened (parse .expression)
  return .array elements (opened.through closed)

/-- An entry of an object literal. -/
def entry (parse : Grammar) : Parser Entry := do
  match ← eat .openBracket with
  | some opened =>
    let key ← nested (parse .expression)
    let _ ← expectClosing .square .object opened
    match ← eat .equals with
    | some _ => return .keyed key (some (← parse .expression))
    | none => return .keyed key none
  | none =>
    match (← peek).filter Token.isIdentifier with
    | some name =>
      if (← peekSecond).any (·.isMark .equals) then
        skip 2
        return .named name (← parse .expression)
      else return .item (← parse .expression)
    | none => return .item (← parse .expression)

/-- An object literal. -/
def object (parse : Grammar) : Parser Node := do
  let opened ← take
  let (entries, closed) ← delimited .brace .object opened parse.entry
  return .object entries (opened.through closed)

/-- A negation; its operand is a whole expression. -/
def negation (parse : Grammar) : Parser Node := do
  let bang ← take
  if ← atEnd then fail (.expectedKind "identifier or expression" .negation none) bang
  else
    let operand ← parse .expression
    return .negation operand (bang.through operand.location)

/-- A function without a name, from its keyword on. -/
def lambda (parse : Grammar) : Parser Node := do
  let keyword ← take
  match ← eat .openParen with
  | none => failHere (.expectedToken "'('" .parameters)
  | some opened =>
    let (parameters, _) ← delimited .paren .parameters opened (expectIdentifier .parameters)
    let body ← parse.body
    return .lambda parameters body (keyword.through body.location)

/-- An operand: a token that stands for itself, a form in brackets, a negation, a function, or
a name and all that it leads. -/
def primary (parse : Grammar) : Parser Node := do
  match ← peek with
  | none => failAtEnd .expression
  | some token =>
    match token.kind with
    | .punctuation .openParen => nested parse.parenthesized
    | .punctuation .openBracket => nested parse.array
    | .punctuation .openBrace => nested parse.object
    | .punctuation .bang => nested parse.negation
    | .punctuation _ | .otherMark .. =>
      fail (.unexpectedToken .expression (some token.text)) token.location
    | .identifier _ => parse.named false
    | .keyword .fn => nested parse.lambda
    | _ =>
      skip 1
      return .leaf token

/-- Adds operators that bind tighter than a given strength, with their operands, to the left
operand. An operand on the right first takes all that binds tighter than its own operator. At
most the given number of operators is read. -/
def climb (parse : Grammar) : Nat → Node → Nat → Parser Node
  | 0, left, _ => return left
  | budget + 1, left, strength => do
    match (← peek).bind Token.operator? with
    | none => return left
    | some operator =>
      if operator.precedence ≤ strength then return left
      else
        skip 1
        let operand ← parse.primary
        let right ← climb parse budget operand operator.precedence
        climb parse budget
          (.binary operator left right (left.location.through right.location)) strength

/-- A value: an operand, and the operators behind it. A first operator that stands before
another operator or at the end of the source is left alone. Each operator is a token, so there
are no more operators than tokens. -/
def expression (parse : Grammar) : Parser Node := do
  let operand ← parse.primary
  if (← peek).any Token.isOperator then
    if (← peekSecond).any (!·.isOperator) then parse.climb (← left) operand 0
    else return operand
  else return operand

end Grammar

end Oreo
