import Oreo.Proofs.Parse.Success

/-!
# Readings

The grammar as a relation. `Reads part room tokens value rest` says that a part of the grammar,
with room for so many levels of nesting, is read as the value from the front of the tokens, and
which tokens are left. There is one constructor for each way in which a rule can succeed; it
names the tokens that are passed, the parts that are read in between, and what has to stand
ahead for the rule to go this way.

No bound on the number of tokens or of rounds occurs here. That the parser succeeds exactly with
what can be read is shown in `Oreo.Proofs.Parse.Soundness` and `Oreo.Proofs.Parse.Completeness`;
properties of trees are shown by induction on readings.
-/

namespace Oreo

/-- Whether the token is a comment. -/
def Token.isComment (token : Token) : Bool :=
  match token.kind with
  | .lineComment _ | .blockComment _ => true
  | _ => false

/-- Whether the token is an operand by itself: it is no mark, no name and not the keyword of a
function. -/
def Token.isOperand (token : Token) : Bool :=
  match token.kind with
  | .punctuation _ | .otherMark .. | .identifier _ | .keyword .fn => false
  | _ => true

/-- Whether the tokens behind a name lead on: to an assignment, an update, a call, a member or
an index. A separator is looked at more closely where members are read. -/
def leadsOn : List Token → Bool
  | [] => false
  | follower :: others =>
    match follower.kind with
    | .operator operator =>
      (startsWith .equals others && (AssignmentOperator.compound? operator).isSome) ||
        (others.head?.bind Token.operator? == some operator &&
          (UpdateOperator.doubled? operator).isSome)
    | .punctuation .equals | .punctuation .openParen | .punctuation .dot | .punctuation .colon
    | .punctuation .openBracket => true
    | _ => false

/-- What may stand behind the body of an `if`: the tokens without a semicolon before `else` or
`elseif`. -/
def alternateAhead (tokens : List Token) : List Token :=
  passSemicolonBefore [.else, .elseif] tokens

/-- The parts of the grammar. -/
inductive Part where
  /-- Statements up to the end of the source. -/
  | program
  /-- A statement. -/
  | statement
  /-- An `if` or `elseif`, from its keyword on. -/
  | conditional
  /-- The body of a case. -/
  | clauseBody
  /-- Further values of a case. -/
  | alternatives
  /-- The body of a loop, a function or a choice. -/
  | body
  /-- Statements in braces. -/
  | block
  /-- Statements up to a closing brace. -/
  | statements
  /-- A function without a name, from its keyword on. -/
  | lambda
  /-- A value. -/
  | expression
  /-- Operators that bind tighter than the strength, behind a left operand. -/
  | climb (left : Node) (strength : Nat)
  /-- An operand. -/
  | operand
  /-- A name and all that it leads. -/
  | named (assignmentDue : Bool)
  /-- What may follow an object. -/
  | members (object : Node)
  /-- Arguments behind a value, and what may follow them. -/
  | call (callee : Node)
  /-- An index behind a value, and what may follow it. -/
  | indexed (target : Node)
  /-- What may follow an index that was closed at the given place. -/
  | accessed (target index : Node) (closed : Location)
  /-- An entry of an object literal. -/
  | entry
  /-- A parameter of a function. -/
  | parameter
  /-- Items between commas, up to the mark that closes the bracket. -/
  | list (bracket : Bracket) (item : Part)
  /-- One or more items between commas, up to the mark that closes the bracket. -/
  | items (bracket : Bracket) (item : Part)

/-- What a part is read as. Lists come with the place of the mark that closes them. -/
@[reducible] def Part.Result : Part → Type
  | .program | .alternatives => List Node
  | .block | .statements => List Node × Location
  | .entry => Entry
  | .parameter => Token
  | .list _ item | .items _ item => List item.Result × Location
  | _ => Node

/-- A part, with room for so many levels, is read from the front of the tokens. -/
inductive Reads : (part : Part) → Nat → List Token → part.Result → List Token → Prop
  /-- A program ends with the source. -/
  | programEnd {room : Nat} : Reads .program room [] [] []
  /-- A statement, perhaps a semicolon, and the rest of the program. -/
  | programNext {room : Nat} {tokens middle rest : List Token} {first : Node} {others : List Node}
      (statementRead : Reads .statement room tokens first middle)
      (othersRead : Reads .program room (passSemicolon middle) others rest) :
      Reads .program room tokens (first :: others) rest
  /-- A variable without a value. -/
  | declared {room : Nat} {keyword name : Token} {rest : List Token}
      (keywordKind : keyword.kind = .keyword .let ∨ keyword.kind = .keyword .var)
      (nameKind : name.isIdentifier = true) (ahead : startsWith .equals rest = false) :
      Reads .statement (room + 1) (keyword :: name :: rest)
        (.declaration name none (keyword.location.through name.location)) rest
  /-- A variable with a value. -/
  | initialized {room : Nat} {keyword name equals : Token} {tokens rest : List Token} {value : Node}
      (keywordKind : keyword.kind = .keyword .let ∨ keyword.kind = .keyword .var)
      (nameKind : name.isIdentifier = true) (equalsKind : equals.kind = .punctuation .equals)
      (valueRead : Reads .expression room tokens value rest) :
      Reads .statement (room + 1) (keyword :: name :: equals :: tokens)
        (.declaration name (some value) (keyword.location.through value.location)) rest
  /-- An `if`. -/
  | conditionalStatement {room : Nat} {keyword : Token} {tokens rest : List Token} {node : Node}
      (keywordKind : keyword.kind = .keyword .if)
      (conditionalRead : Reads .conditional room (keyword :: tokens) node rest) :
      Reads .statement (room + 1) (keyword :: tokens) node rest
  /-- A loop that tests before each round. -/
  | whileLoop {room : Nat} {keyword : Token} {tokens middle rest : List Token} {test body : Node}
      (keywordKind : keyword.kind = .keyword .while)
      (testRead : Reads .expression room tokens test middle)
      (bodyRead : Reads .body room middle body rest) :
      Reads .statement (room + 1) (keyword :: tokens)
        (.whileLoop test body (keyword.location.through body.location)) rest
  /-- A loop that tests after each round; a semicolon may stand before the test. -/
  | doWhileLoop {room : Nat} {keyword follower : Token} {tokens middle later rest : List Token}
      {test body : Node} (keywordKind : keyword.kind = .keyword .do)
      (bodyRead : Reads .body room tokens body middle)
      (ahead : passSemicolonBefore [.while] middle = follower :: later)
      (followerKind : follower.kind = .keyword .while)
      (testRead : Reads .expression room later test rest) :
      Reads .statement (room + 1) (keyword :: tokens)
        (.doWhileLoop test body (keyword.location.through test.location)) rest
  /-- A loop whose step is written. -/
  | forLoop {room : Nat} {keyword comma second : Token} {tokens middle later last rest : List Token}
      {initial test update body : Node} (keywordKind : keyword.kind = .keyword .for)
      (initialRead : Reads .statement room tokens initial (comma :: middle))
      (commaKind : comma.kind = .punctuation .comma)
      (testRead : Reads .expression room middle test (second :: later))
      (secondKind : second.kind = .punctuation .comma)
      (updateRead : Reads .statement room later update last)
      (bodyRead : Reads .body room last body rest) :
      Reads .statement (room + 1) (keyword :: tokens)
        (.forLoop initial test update body (keyword.location.through body.location)) rest
  /-- A loop whose step is implied: the variable that it declares grows by one. -/
  | forLoopByOne {room : Nat} {keyword name comma : Token} {tokens middle later rest : List Token}
      {value : Option Node} {place : Location} {test body : Node}
      (keywordKind : keyword.kind = .keyword .for)
      (initialRead : Reads .statement room tokens (.declaration name value place) (comma :: middle))
      (commaKind : comma.kind = .punctuation .comma)
      (testRead : Reads .expression room middle test later)
      (ahead : startsWith .comma later = false) (more : later ≠ [])
      (bodyRead : Reads .body room later body rest) :
      Reads .statement (room + 1) (keyword :: tokens)
        (.forLoop (.declaration name value place) test (.update name .increment name.location) body
          (keyword.location.through body.location)) rest
  /-- A choice, the statements in whose braces are all cases. -/
  | switch {room : Nat} {keyword : Token} {tokens middle rest : List Token} {subject : Node}
      {clauses : List Clause} {location : Location} (keywordKind : keyword.kind = .keyword .switch)
      (subjectRead : Reads .expression room tokens subject middle)
      (clausesRead : Reads .block room middle (clauses.map Node.clause, location) rest) :
      Reads .statement (room + 1) (keyword :: tokens)
        (.switch subject clauses (keyword.location.through location)) rest
  /-- A case with values. -/
  | caseClause {room : Nat} {keyword : Token} {tokens middle later rest : List Token}
      {value body : Node} {others : List Node} (keywordKind : keyword.kind = .keyword .case)
      (valueRead : Reads .expression room tokens value middle)
      (othersRead : Reads .alternatives room middle others later)
      (bodyRead : Reads .clauseBody room later body rest) :
      Reads .statement (room + 1) (keyword :: tokens)
        (.clause (.ofValues value others body (keyword.location.through body.location))) rest
  /-- The default. -/
  | defaultClause {room : Nat} {keyword : Token} {tokens rest : List Token} {body : Node}
      (keywordKind : keyword.kind = .keyword .default)
      (bodyRead : Reads .clauseBody room tokens body rest) :
      Reads .statement (room + 1) (keyword :: tokens)
        (.clause (.fallback body (keyword.location.through body.location))) rest
  /-- A function without a name in the place of a statement. -/
  | lambdaStatement {room : Nat} {keyword : Token} {tokens rest : List Token} {node : Node}
      (keywordKind : keyword.kind = .keyword .fn)
      (lambdaRead : Reads .lambda room (keyword :: tokens) node rest) :
      Reads .statement (room + 1) (keyword :: tokens) node rest
  /-- A function with a name: a call whose arguments are names is taken apart. -/
  | function {room : Nat} {keyword name : Token} {parameters tokens middle rest : List Token}
      {signature title body : Node}
      (keywordKind : keyword.kind = .keyword .fn) (nameKind : name.isIdentifier = true)
      (signatureRead : Reads (.named false) room (name :: tokens) signature middle)
      (split : signature.signature? = some (title, parameters.map Node.leaf))
      (parameterKinds : ∀ parameter ∈ parameters, parameter.isIdentifier = true)
      (bodyRead : Reads .body room middle body rest) :
      Reads .statement (room + 1) (keyword :: name :: tokens)
        (.function title parameters body (keyword.location.through body.location)) rest
  /-- The end of a function without a result. -/
  | returnsNothing {room : Nat} {keyword : Token} {rest : List Token}
      (keywordKind : keyword.kind = .keyword .return)
      (ahead : rest = [] ∨ startsWith .semicolon rest = true ∨ startsWith .closeBrace rest = true) :
      Reads .statement (room + 1) (keyword :: rest) (.returns none keyword.location) rest
  /-- The end of a function with a result. -/
  | returnsValue {room : Nat} {keyword : Token} {tokens rest : List Token} {value : Node}
      (keywordKind : keyword.kind = .keyword .return)
      (more : tokens ≠ []) (semicolon : startsWith .semicolon tokens = false)
      (brace : startsWith .closeBrace tokens = false)
      (valueRead : Reads .expression room tokens value rest) :
      Reads .statement (room + 1) (keyword :: tokens)
        (.returns (some value) (keyword.location.through value.location)) rest
  /-- A name and what it leads in the place of a statement. -/
  | namedStatement {room : Nat} {name : Token} {tokens rest : List Token} {node : Node}
      (nameKind : name.isIdentifier = true)
      (namedRead : Reads (.named true) room (name :: tokens) node rest) :
      Reads .statement (room + 1) (name :: tokens) node rest
  /-- A comment. -/
  | comment {room : Nat} {token : Token} {rest : List Token} (comment : token.isComment = true) :
      Reads .statement (room + 1) (token :: rest) (.leaf token) rest
  /-- A test, and nothing is done if it fails. -/
  | conditionalOnly {room : Nat} {keyword : Token} {tokens middle rest : List Token}
      {test consequent : Node}
      (keywordKind : keyword.kind = .keyword .if ∨ keyword.kind = .keyword .elseif)
      (testRead : Reads .expression room tokens test middle)
      (consequentRead : Reads .body room middle consequent rest)
      (noElse : startsWithKeyword .else (alternateAhead rest) = false)
      (noElseif : startsWithKeyword .elseif (alternateAhead rest) = false) :
      Reads .conditional room (keyword :: tokens)
        (.conditional test consequent none (keyword.location.through consequent.location)) rest
  /-- A test, and a block if it fails. -/
  | conditionalElse {room : Nat} {keyword follower : Token}
      {tokens middle later last rest : List Token} {test consequent : Node} {body : List Node}
      {location : Location}
      (keywordKind : keyword.kind = .keyword .if ∨ keyword.kind = .keyword .elseif)
      (testRead : Reads .expression room tokens test middle)
      (consequentRead : Reads .body room middle consequent later)
      (ahead : alternateAhead later = follower :: last)
      (followerKind : follower.kind = .keyword .else)
      (blockRead : Reads .block room last (body, location) rest) :
      Reads .conditional room (keyword :: tokens)
        (.conditional test consequent (some (.block body location))
          (keyword.location.through location)) rest
  /-- A test, and another one a level deeper if it fails. -/
  | conditionalElseif {room : Nat} {keyword follower : Token}
      {tokens middle later last rest : List Token} {test consequent alternate : Node}
      (keywordKind : keyword.kind = .keyword .if ∨ keyword.kind = .keyword .elseif)
      (testRead : Reads .expression (room + 1) tokens test middle)
      (consequentRead : Reads .body (room + 1) middle consequent later)
      (ahead : alternateAhead later = follower :: last)
      (followerKind : follower.kind = .keyword .elseif)
      (alternateRead : Reads .conditional room (follower :: last) alternate rest) :
      Reads .conditional (room + 1) (keyword :: tokens)
        (.conditional test consequent (some alternate)
          (keyword.location.through alternate.location)) rest
  /-- No bar follows. -/
  | alternativesEnd {room : Nat} {rest : List Token} (ahead : startsWith .bar rest = false) :
      Reads .alternatives room rest [] rest
  /-- A bar, a value and further values. -/
  | alternativesNext {room : Nat} {mark : Token} {tokens middle rest : List Token} {value : Node}
      {others : List Node} (markKind : mark.kind = .punctuation .bar)
      (valueRead : Reads .expression room tokens value middle)
      (othersRead : Reads .alternatives room middle others rest) :
      Reads .alternatives room (mark :: tokens) (value :: others) rest
  /-- A block is the body of a case. -/
  | clauseBlock {room : Nat} {tokens rest : List Token} {body : List Node} {location : Location}
      (blockRead : Reads .block room tokens (body, location) rest) :
      Reads .clauseBody room tokens (.block body location) rest
  /-- A statement behind a colon is the body of a case. -/
  | clauseStatement {room : Nat} {colon : Token} {tokens rest : List Token} {node : Node}
      (colonKind : colon.kind = .punctuation .colon)
      (statementRead : Reads .statement room tokens node rest) :
      Reads .clauseBody room (colon :: tokens) node rest
  /-- A block is a body. -/
  | bodyBlock {room : Nat} {tokens rest : List Token} {body : List Node} {location : Location}
      (blockRead : Reads .block room tokens (body, location) rest) :
      Reads .body room tokens (.block body location) rest
  /-- A statement that does not begin with a brace is a body. -/
  | bodyStatement {room : Nat} {tokens rest : List Token} {node : Node}
      (ahead : startsWith .openBrace tokens = false)
      (statementRead : Reads .statement room tokens node rest) :
      Reads .body room tokens node rest
  /-- A brace and the statements up to the next one. -/
  | block {room : Nat} {opened : Token} {tokens rest : List Token} {body : List Node}
      {place : Location} (openedKind : opened.kind = .punctuation .openBrace)
      (bodyRead : Reads .statements room tokens (body, place) rest) :
      Reads .block (room + 1) (opened :: tokens) (body, opened.location.through place) rest
  /-- The brace closes. -/
  | statementsEnd {room : Nat} {closed : Token} {rest : List Token}
      (closedKind : closed.kind = .punctuation .closeBrace) :
      Reads .statements room (closed :: rest) ([], closed.location) rest
  /-- A statement, perhaps a semicolon, and further statements. -/
  | statementsNext {room : Nat} {tokens middle rest : List Token} {first : Node}
      {others : List Node} {place : Location} (ahead : startsWith .closeBrace tokens = false)
      (statementRead : Reads .statement room tokens first middle)
      (othersRead : Reads .statements room (passSemicolon middle) (others, place) rest) :
      Reads .statements room tokens (first :: others, place) rest
  /-- A function without a name. -/
  | lambda {room : Nat} {keyword opened : Token} {parameters tokens middle rest : List Token}
      {place : Location} {body : Node} (keywordKind : keyword.kind = .keyword .fn)
      (openedKind : opened.kind = .punctuation .openParen)
      (parametersRead : Reads (.list .paren .parameter) room tokens (parameters, place) middle)
      (bodyRead : Reads .body room middle body rest) :
      Reads .lambda room (keyword :: opened :: tokens)
        (.lambda parameters body (keyword.location.through body.location)) rest
  /-- An operand behind which no operator begins. -/
  | expressionOperand {room : Nat} {tokens rest : List Token} {node : Node}
      (operandRead : Reads .operand room tokens node rest)
      (ahead : startsBinary rest = false) :
      Reads .expression room tokens node rest
  /-- An operand and the operators behind it. -/
  | expressionBinary {room : Nat} {tokens middle rest : List Token} {operand node : Node}
      (operandRead : Reads .operand room tokens operand middle)
      (ahead : startsBinary middle = true)
      (climbRead : Reads (.climb operand 0) room middle node rest) :
      Reads .expression room tokens node rest
  /-- No operator that binds tighter follows. -/
  | climbEnd {strength room : Nat} {rest : List Token} {left : Node} (ahead : ∀ operator,
        rest.head?.bind Token.operator? = some operator → operator.precedence ≤ strength) :
      Reads (.climb left strength) room rest left rest
  /-- An operator that binds tighter, with all that binds tighter than itself on its right. -/
  | climbNext {strength room : Nat} {symbol : Token} {tokens middle later rest : List Token}
      {left operand right node : Node} {operator : Operator}
      (symbolKind : symbol.kind = .operator operator) (tighter : strength < operator.precedence)
      (operandRead : Reads .operand room tokens operand middle)
      (rightRead : Reads (.climb operand operator.precedence) room middle right later)
      (climbRead : Reads (.climb (.binary operator left right
        (left.location.through right.location)) strength) room later node rest) :
      Reads (.climb left strength) room (symbol :: tokens) node rest
  /-- An empty pair of parentheses. -/
  | unit {room : Nat} {opened closed : Token} {rest : List Token}
      (openedKind : opened.kind = .punctuation .openParen)
      (closedKind : closed.kind = .punctuation .closeParen) :
      Reads .operand (room + 1) (opened :: closed :: rest)
        (.unit (opened.location.through closed.location)) rest
  /-- A value in parentheses. -/
  | parenthesized {room : Nat} {opened closed : Token} {tokens rest : List Token} {node : Node}
      (openedKind : opened.kind = .punctuation .openParen)
      (ahead : startsWith .closeParen tokens = false)
      (innerRead : Reads .expression room tokens node (closed :: rest))
      (closedKind : closed.kind = .punctuation .closeParen) :
      Reads .operand (room + 1) (opened :: tokens) node rest
  /-- Values in brackets. -/
  | array {room : Nat} {opened : Token} {tokens rest : List Token} {elements : List Node}
      {place : Location} (openedKind : opened.kind = .punctuation .openBracket)
      (elementsRead : Reads (.list .square .expression) room tokens (elements, place) rest) :
      Reads .operand (room + 1) (opened :: tokens)
        (.array elements (opened.location.through place)) rest
  /-- Entries in braces. -/
  | object {room : Nat} {opened : Token} {tokens rest : List Token} {entries : List Entry}
      {place : Location} (openedKind : opened.kind = .punctuation .openBrace)
      (entriesRead : Reads (.list .brace .entry) room tokens (entries, place) rest) :
      Reads .operand (room + 1) (opened :: tokens)
        (.object entries (opened.location.through place)) rest
  /-- A negation of a whole expression. -/
  | negation {room : Nat} {mark : Token} {tokens rest : List Token} {operand : Node}
      (markKind : mark.kind = .punctuation .bang)
      (operandRead : Reads .expression room tokens operand rest) :
      Reads .operand (room + 1) (mark :: tokens)
        (.negation operand (mark.location.through operand.location)) rest
  /-- A function without a name. -/
  | lambdaOperand {room : Nat} {keyword : Token} {tokens rest : List Token} {node : Node}
      (keywordKind : keyword.kind = .keyword .fn)
      (lambdaRead : Reads .lambda room (keyword :: tokens) node rest) :
      Reads .operand (room + 1) (keyword :: tokens) node rest
  /-- A name and what it leads. -/
  | namedOperand {room : Nat} {name : Token} {tokens rest : List Token} {node : Node}
      (nameKind : name.isIdentifier = true)
      (namedRead : Reads (.named false) room (name :: tokens) node rest) :
      Reads .operand room (name :: tokens) node rest
  /-- A token that stands for itself. -/
  | literal {room : Nat} {token : Token} {rest : List Token} (operand : token.isOperand = true) :
      Reads .operand room (token :: rest) (.leaf token) rest
  /-- A name at the end of the source. -/
  | nameLast {room : Nat} {name : Token} (nameKind : name.isIdentifier = true) :
      Reads (.named false) room [name] (.leaf name) []
  /-- A name that leads to nothing. -/
  | nameAlone {room : Nat} {due : Bool} {name : Token} {rest : List Token}
      (nameKind : name.isIdentifier = true) (more : rest ≠ [])
      (ahead : leadsOn rest = false) :
      Reads (.named due) room (name :: rest) (.leaf name) rest
  /-- A name that gets a value. -/
  | assigned {room : Nat} {due : Bool} {name equals : Token} {tokens rest : List Token}
      {value : Node} (nameKind : name.isIdentifier = true)
      (equalsKind : equals.kind = .punctuation .equals)
      (valueRead : Reads .expression room tokens value rest) :
      Reads (.named due) (room + 1) (name :: equals :: tokens)
        (.assignment name .assign value (name.location.through value.location)) rest
  /-- A name that gets its old value combined with another. -/
  | combined {room : Nat} {due : Bool} {name symbol equals : Token} {tokens rest : List Token}
      {value : Node} {operator : Operator} {assignment : AssignmentOperator}
      (nameKind : name.isIdentifier = true) (symbolKind : symbol.kind = .operator operator)
      (equalsKind : equals.kind = .punctuation .equals)
      (compound : AssignmentOperator.compound? operator = some assignment)
      (valueRead : Reads .expression room tokens value rest) :
      Reads (.named due) (room + 1) (name :: symbol :: equals :: tokens)
        (.assignment name assignment value (name.location.through value.location)) rest
  /-- A name that changes by one. -/
  | updated {room : Nat} {due : Bool} {name symbol second : Token} {rest : List Token}
      {operator : Operator} {update : UpdateOperator}
      (nameKind : name.isIdentifier = true) (symbolKind : symbol.kind = .operator operator)
      (secondKind : second.kind = .operator operator)
      (doubled : UpdateOperator.doubled? operator = some update) :
      Reads (.named due) room (name :: symbol :: second :: rest)
        (.update name update (name.location.through second.location)) rest
  /-- A name that is called. -/
  | called {room : Nat} {due : Bool} {name : Token} {tokens rest : List Token} {node : Node}
      (nameKind : name.isIdentifier = true)
      (callRead : Reads (.call (.leaf name)) room tokens node rest) :
      Reads (.named due) room (name :: tokens) node rest
  /-- A name with a member. -/
  | owner {room : Nat} {due : Bool} {name mark : Token} {tokens rest : List Token} {node : Node}
      (nameKind : name.isIdentifier = true)
      (markKind : mark.kind = .punctuation .dot ∨ mark.kind = .punctuation .colon)
      (membersRead : Reads (.members (.leaf name)) room (mark :: tokens) node rest) :
      Reads (.named due) room (name :: mark :: tokens) node rest
  /-- A name with an index. -/
  | indexedName {room : Nat} {due : Bool} {name : Token} {tokens rest : List Token} {node : Node}
      (nameKind : name.isIdentifier = true)
      (indexedRead : Reads (.indexed (.leaf name)) room tokens node rest) :
      Reads (.named due) room (name :: tokens) node rest
  /-- No member follows. -/
  | membersEnd {room : Nat} {rest : List Token} {object : Node}
      (ahead : startsMember rest = false) :
      Reads (.members object) room rest object rest
  /-- A member, which may lead on. -/
  | member {room : Nat} {mark name : Token} {tokens rest : List Token} {object property : Node}
      {separator : MemberSeparator}
      (markKind : mark.separator? = some separator) (nameKind : name.isIdentifier = true)
      (propertyRead : Reads (.named false) room (name :: tokens) property rest) :
      Reads (.members object) (room + 1) (mark :: name :: tokens)
        (.member object property separator (object.location.through property.location)) rest
  /-- Arguments, and the members of the call. -/
  | call {room : Nat} {opened : Token} {tokens middle rest : List Token} {callee node : Node}
      {arguments : List Node} {place : Location}
      (openedKind : opened.kind = .punctuation .openParen)
      (argumentsRead : Reads (.list .paren .expression) room tokens (arguments, place) middle)
      (membersRead : Reads (.members (.call callee arguments (callee.location.through place)))
        (room + 1) middle node rest) :
      Reads (.call callee) (room + 1) (opened :: tokens) node rest
  /-- An index, and what follows the element. -/
  | indexed {room : Nat} {opened closed : Token} {tokens middle rest : List Token}
      {target index node : Node} (openedKind : opened.kind = .punctuation .openBracket)
      (indexRead : Reads .expression room tokens index (closed :: middle))
      (closedKind : closed.kind = .punctuation .closeBracket)
      (accessedRead : Reads (.accessed target index closed.location) (room + 1) middle node rest) :
      Reads (.indexed target) (room + 1) (opened :: tokens) node rest
  /-- An element that gets a value. -/
  | elementAssigned {room : Nat} {equals : Token} {tokens rest : List Token}
      {target index value : Node} {place : Location}
      (equalsKind : equals.kind = .punctuation .equals)
      (valueRead : Reads .expression room tokens value rest) :
      Reads (.accessed target index place) (room + 1) (equals :: tokens)
        (.elementAssignment target index value (target.location.through value.location)) rest
  /-- An element that is called. -/
  | elementCalled {room : Nat} {tokens rest : List Token} {target index node : Node}
      {place : Location}
      (callRead : Reads (.call (.access target index (target.location.through place))) room tokens
        node rest) :
      Reads (.accessed target index place) room tokens node rest
  /-- An element with another index. -/
  | elementIndexed {room : Nat} {tokens rest : List Token} {target index node : Node}
      {place : Location}
      (indexedRead : Reads (.indexed (.access target index (target.location.through place))) room
        tokens node rest) :
      Reads (.accessed target index place) (room + 1) tokens node rest
  /-- An element, perhaps with members. -/
  | element {room : Nat} {tokens rest : List Token} {target index node : Node} {place : Location}
      (noEquals : startsWith .equals tokens = false)
      (noParen : startsWith .openParen tokens = false)
      (noBracket : startsWith .openBracket tokens = false)
      (membersRead : Reads (.members (.access target index (target.location.through place))) room
        tokens node rest) :
      Reads (.accessed target index place) room tokens node rest
  /-- A computed key and its value. -/
  | keyedValue {room : Nat} {opened equals closed : Token} {tokens middle rest : List Token}
      {key value : Node} (openedKind : opened.kind = .punctuation .openBracket)
      (keyRead : Reads .expression room tokens key (closed :: equals :: middle))
      (closedKind : closed.kind = .punctuation .closeBracket)
      (equalsKind : equals.kind = .punctuation .equals)
      (valueRead : Reads .expression (room + 1) middle value rest) :
      Reads .entry (room + 1) (opened :: tokens) (.keyed key (some value)) rest
  /-- A computed key alone. -/
  | keyed {room : Nat} {opened closed : Token} {tokens rest : List Token} {key : Node}
      (openedKind : opened.kind = .punctuation .openBracket)
      (keyRead : Reads .expression room tokens key (closed :: rest))
      (closedKind : closed.kind = .punctuation .closeBracket)
      (ahead : startsWith .equals rest = false) :
      Reads .entry (room + 1) (opened :: tokens) (.keyed key none) rest
  /-- A name and its value. -/
  | namedEntry {room : Nat} {name equals : Token} {tokens rest : List Token} {value : Node}
      (nameKind : name.isIdentifier = true)
      (equalsKind : equals.kind = .punctuation .equals)
      (valueRead : Reads .expression room tokens value rest) :
      Reads .entry room (name :: equals :: tokens) (.named name value) rest
  /-- A value without a key. -/
  | item {room : Nat} {tokens rest : List Token} {value : Node}
      (noBracket : startsWith .openBracket tokens = false)
      (noName : startsNamedEntry tokens = false)
      (valueRead : Reads .expression room tokens value rest) :
      Reads .entry room tokens (.item value) rest
  /-- A name is a parameter. -/
  | parameter {room : Nat} {name : Token} {rest : List Token}
      (nameKind : name.isIdentifier = true) :
      Reads .parameter room (name :: rest) name rest
  /-- The bracket closes at once. -/
  | listEmpty {bracket : Bracket} {item : Part} {room : Nat} {closed : Token} {rest : List Token}
      (closedKind : closed.kind = .punctuation bracket.closer) :
      Reads (.list bracket item) room (closed :: rest) ([], closed.location) rest
  /-- One or more items. -/
  | listItems {bracket : Bracket} {item : Part} {room : Nat} {tokens rest : List Token}
      {values : List item.Result} {place : Location}
      (ahead : startsWith bracket.closer tokens = false)
      (itemsRead : Reads (.items bracket item) room tokens (values, place) rest) :
      Reads (.list bracket item) room tokens (values, place) rest
  /-- The last item. -/
  | itemsEnd {bracket : Bracket} {item : Part} {room : Nat} {closed : Token}
      {tokens rest : List Token} {first : item.Result} (ahead : startsWith .comma tokens = false)
      (firstRead : Reads item room tokens first (closed :: rest))
      (closedKind : closed.kind = .punctuation bracket.closer) :
      Reads (.items bracket item) room tokens ([first], closed.location) rest
  /-- An item, a comma and further items. -/
  | itemsNext {bracket : Bracket} {item : Part} {room : Nat} {comma : Token}
      {tokens middle rest : List Token} {first : item.Result} {others : List item.Result}
      {place : Location} (ahead : startsWith .comma tokens = false)
      (firstRead : Reads item room tokens first (comma :: middle))
      (commaKind : comma.kind = .punctuation .comma)
      (more : startsWith bracket.closer middle = false)
      (othersRead : Reads (.items bracket item) room middle (others, place) rest) :
      Reads (.items bracket item) room tokens (first :: others, place) rest

/-- The number of tokens that a part takes at least. -/
def Part.cost : Part → Nat
  | .program | .alternatives | .climb .. | .members _ | .accessed .. => 0
  | _ => 1

/-- An optional semicolon leaves a back part of the tokens. -/
theorem passSemicolon_suffix (tokens : List Token) : passSemicolon tokens <:+ tokens := by
  unfold passSemicolon
  split
  · exact List.tail_suffix tokens
  · exact List.suffix_refl tokens

/-- An optional semicolon before a keyword leaves a back part of the tokens. -/
theorem passSemicolonBefore_suffix (keywords : List Keyword) (tokens : List Token) :
    passSemicolonBefore keywords tokens <:+ tokens := by
  unfold passSemicolonBefore
  split
  · exact List.tail_suffix tokens
  · exact List.suffix_refl tokens

/-- Behind an optional semicolon and the token that follows it, fewer tokens are left. -/
theorem length_lt_of_passSemicolonBefore {keywords : List Keyword} {follower : Token}
    {tokens rest : List Token} (ahead : passSemicolonBefore keywords tokens = follower :: rest) :
    rest.length < tokens.length := by
  have fewer := (passSemicolonBefore_suffix keywords tokens).length_le
  rw [ahead, List.length_cons] at fewer
  omega

/-- What is behind a token of a source is a back part of the source. -/
theorem within_tail {token : Token} {tokens source : List Token}
    (within : token :: tokens <:+ source) : tokens <:+ source :=
  (List.suffix_cons token tokens).trans within

/-- What is behind an optional semicolon of a source is a back part of the source. -/
theorem within_behind {keywords : List Keyword} {token : Token} {tokens rest source : List Token}
    (ahead : passSemicolonBefore keywords tokens = token :: rest) (within : tokens <:+ source) :
    token :: rest <:+ source :=
  (ahead ▸ passSemicolonBefore_suffix keywords tokens : token :: rest <:+ tokens).trans within

namespace Reads

variable {part : Part} {room : Nat} {tokens rest source : List Token} {value : part.Result}

/-- What is read from a back part of a source leaves a back part of it: a rule passes tokens in
front of its parts, and hands on what each part leaves. -/
theorem within (reads : Reads part room tokens value rest) (within : tokens <:+ source) :
    rest <:+ source := by
  induction reads with
  | programEnd | alternativesEnd | climbEnd | membersEnd => exact within
  | returnsNothing | comment | statementsEnd | literal | nameLast | nameAlone | parameter
  | listEmpty => exact within_tail within
  | declared | unit => exact within_tail (within_tail within)
  | updated => exact within_tail (within_tail (within_tail within))
  | conditionalStatement _ _ part | lambdaStatement _ _ part | namedStatement _ _ part
  | clauseBlock _ part | bodyBlock _ part | bodyStatement _ _ part | expressionOperand _ _ part
  | lambdaOperand _ _ part | namedOperand _ _ part | elementCalled _ part | elementIndexed _ part
  | element _ _ _ _ part | item _ _ _ part | listItems _ _ part => exact part within
  | defaultClause _ _ part | clauseStatement _ _ part | block _ _ part
  | returnsValue _ _ _ _ _ part | array _ _ part | object _ _ part | negation _ _ part
  | called _ _ part | owner _ _ _ part | indexedName _ _ part | member _ _ _ part
  | elementAssigned _ _ part => exact part (within_tail within)
  | function _ _ _ _ _ _ signature body => exact body (signature (within_tail within))
  | assigned _ _ _ part | namedEntry _ _ _ part =>
    exact part (within_tail (within_tail within))
  | initialized _ _ _ _ part | combined _ _ _ _ _ part =>
    exact part (within_tail (within_tail (within_tail within)))
  | parenthesized _ _ _ _ part | keyed _ _ _ _ part =>
    exact within_tail (part (within_tail within))
  | itemsEnd _ _ _ part => exact within_tail (part within)
  | programNext _ _ first others | statementsNext _ _ _ first others =>
    exact others ((passSemicolon_suffix _).trans (first within))
  | whileLoop _ _ _ first second | switch _ _ _ first second | alternativesNext _ _ _ first second
  | conditionalOnly _ _ _ _ _ first second | call _ _ _ first second =>
    exact second (first (within_tail within))
  | expressionBinary _ _ _ first second => exact second (first within)
  | lambda _ _ _ _ parameters body => exact body (parameters (within_tail (within_tail within)))
  | itemsNext _ _ _ _ _ first others => exact others (within_tail (first within))
  | indexed _ _ _ _ index accessed => exact accessed (within_tail (index (within_tail within)))
  | caseClause _ _ _ _ first second third | climbNext _ _ _ _ _ first second third =>
    exact third (second (first (within_tail within)))
  | doWhileLoop _ _ ahead _ _ body test =>
    exact test (within_tail (within_behind ahead (body (within_tail within))))
  | forLoop _ _ _ _ _ _ _ initial test update body =>
    exact body (update (within_tail (test (within_tail (initial (within_tail within))))))
  | forLoopByOne _ _ _ _ _ _ _ initial test body =>
    exact body (test (within_tail (initial (within_tail within))))
  | conditionalElse _ _ _ ahead _ _ test consequent block =>
    exact block (within_tail (within_behind ahead (consequent (test (within_tail within)))))
  | conditionalElseif _ _ _ ahead _ _ test consequent alternate =>
    exact alternate (within_behind ahead (consequent (test (within_tail within))))
  | keyedValue _ _ _ _ _ key value =>
    exact value (within_tail (within_tail (key (within_tail within))))

/-- A reading leaves a back part of its tokens. -/
theorem suffix (reads : Reads part room tokens value rest) : rest <:+ tokens :=
  reads.within (List.suffix_refl tokens)

/-- A reading takes at least the tokens that its part costs. -/
theorem cost_le (reads : Reads part room tokens value rest) :
    rest.length + part.cost ≤ tokens.length := by
  induction reads with
  | programNext _ _ first others | statementsNext _ _ _ first others =>
    have passed :=
      Nat.le_trans (passSemicolon_suffix _).length_le (Nat.le_of_add_right_le first)
    simp only [Part.cost] at *
    omega
  | doWhileLoop _ _ ahead | conditionalElse _ _ _ ahead | conditionalElseif _ _ _ ahead =>
    have passed := length_lt_of_passSemicolonBefore ahead
    simp only [Part.cost, List.length_cons] at *
    omega
  | _ =>
    simp only [Part.cost, List.length_cons, List.length_nil] at *
    omega

end Reads

end Oreo
