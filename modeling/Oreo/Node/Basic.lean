import Oreo.Token.Basic

/-!
# Syntax trees

A `Node` is a statement or an expression with its place in the source. The entries of a switch
(`Clause`) and of an object literal (`Entry`) are no nodes of their own kind, and are declared
beside it. Their fields are independent of each other: which of them go together is up to what
makes them. A token that stands for itself, such as a number, a name or a comment, is a `leaf`.

Parentheses leave no node: they shape the tree and nothing else.
-/

namespace Oreo

/-- The operators that change a variable by one. -/
inductive UpdateOperator where
  | increment
  | decrement
deriving DecidableEq, Repr

/-- The operator as it is written. -/
def UpdateOperator.text : UpdateOperator → String
  | .increment => "++"
  | .decrement => "--"

/-- The operators that assign to a variable. -/
inductive AssignmentOperator where
  | assign
  | addAssign
  | subtractAssign
  | multiplyAssign
  | divideAssign
deriving DecidableEq, Repr

namespace AssignmentOperator

/-- The operator as it is written. -/
def text : AssignmentOperator → String
  | .assign => "="
  | .addAssign => "+="
  | .subtractAssign => "-="
  | .multiplyAssign => "*="
  | .divideAssign => "/="

/-- The assignment that first combines the old value with the new one by a binary operator.
Only the four basic operations of arithmetic have one. -/
def compound? : Operator → Option AssignmentOperator
  | .add => some .addAssign
  | .subtract => some .subtractAssign
  | .multiply => some .multiplyAssign
  | .divide => some .divideAssign
  | _ => none

end AssignmentOperator

/-- The marks between an object and its member. -/
inductive MemberSeparator where
  | dot
  | colon
deriving DecidableEq, Repr

namespace MemberSeparator

/-- The separator as a punctuation mark. -/
def mark : MemberSeparator → Punctuation
  | .dot => .dot
  | .colon => .colon

/-- The separator that is a given punctuation mark. -/
def ofMark? : Punctuation → Option MemberSeparator
  | .dot => some .dot
  | .colon => some .colon
  | _ => none

/-- The separator as it is written. -/
def text (separator : MemberSeparator) : String := separator.mark.text

end MemberSeparator

/-- The kinds of cases. -/
inductive Clause.Kind where
  /-- A case that is for values of its own. -/
  | case
  /-- The case that is for all others. -/
  | default
deriving DecidableEq, Repr

/-- The keyword that a case of the kind begins with. -/
def Clause.Kind.keyword : Clause.Kind → Keyword
  | .case => .case
  | .default => .default

mutual

/-- A statement or an expression. -/
inductive Node where
  /-- Statements in braces. -/
  | block (body : List Node) (location : Location)
  /-- A new variable, and its first value if it gets one. -/
  | declaration (name : Token) (value : Option Node) (location : Location)
  /-- An `if`; what follows `else` is a block, what follows `elseif` another `conditional`. -/
  | conditional (test consequent : Node) (alternate : Option Node) (location : Location)
  /-- A loop that tests before each round. -/
  | whileLoop (test body : Node) (location : Location)
  /-- A loop that tests after each round; the body is written first. -/
  | doWhileLoop (test body : Node) (location : Location)
  /-- A loop with a start, a test and a step. -/
  | forLoop (initial test update body : Node) (location : Location)
  /-- A choice among cases. -/
  | switch (subject : Node) (clauses : List Clause) (location : Location)
  /-- A function with a name, which may be a chain of members. -/
  | function (name : Node) (parameters : List Token) (body : Node) (location : Location)
  /-- A function without a name. -/
  | lambda (parameters : List Token) (body : Node) (location : Location)
  /-- The end of a function, and its result if it has one. -/
  | returns (value : Option Node) (location : Location)
  /-- Two operands and an operator between them. -/
  | binary (operator : Operator) (left right : Node) (location : Location)
  /-- The negation of a value. -/
  | negation (operand : Node) (location : Location)
  /-- A variable that is changed by one. -/
  | update (target : Token) (operator : UpdateOperator) (location : Location)
  /-- A variable that gets a value. -/
  | assignment (target : Token) (operator : AssignmentOperator) (value : Node)
      (location : Location)
  /-- A call with its arguments. -/
  | call (callee : Node) (arguments : List Node) (location : Location)
  /-- An element of a value. -/
  | access (target index : Node) (location : Location)
  /-- An element that gets a value. -/
  | elementAssignment (target index value : Node) (location : Location)
  /-- A member of an object; the member may be called, indexed or assigned in turn. -/
  | member (object property : Node) (separator : MemberSeparator) (location : Location)
  /-- A list of values. -/
  | array (elements : List Node) (location : Location)
  /-- An object literal. -/
  | object (entries : List Entry) (location : Location)
  /-- An empty pair of parentheses. -/
  | unit (location : Location)
  /-- A case that stands in the place of a statement. -/
  | clause (branch : Clause)
  /-- A token that stands for itself. -/
  | leaf (token : Token)

/-- The values that a case is for. -/
inductive Pattern where
  /-- No value is named. -/
  | none
  /-- One value. -/
  | single (value : Node)
  /-- Several values. -/
  | alternatives (values : List Node)

/-- A case: its keyword, the values that it is for, and its body. -/
structure Clause where
  /-- Whether it is the default. -/
  kind : Clause.Kind
  /-- The values. -/
  pattern : Pattern
  /-- What is done. -/
  body : Node
  /-- The span from the keyword to the end of the body. -/
  location : Location

/-- An entry of an object literal. -/
structure Entry where
  /-- The key, or the value itself if no key is written. -/
  key : Node
  /-- Whether the key is written in brackets. -/
  isComputed : Bool
  /-- Whether no value is written. -/
  isArrayStyle : Bool
  /-- The value behind the equals sign. -/
  value : Option Node

end

namespace Pattern

/-- The values, in order. -/
def values : Pattern → List Node
  | .none => []
  | .single value => [value]
  | .alternatives values => values

/-- The values of a case that has a first one: only where others follow are they alternatives. -/
def ofValues (first : Node) : List Node → Pattern
  | [] => .single first
  | others => .alternatives (first :: others)

/-- No value is lost. -/
@[simp] theorem values_ofValues (first : Node) (others : List Node) :
    (ofValues first others).values = first :: others := by
  cases others <;> rfl

end Pattern

namespace Clause

/-- The keyword that the case begins with. -/
def keyword (clause : Clause) : Keyword := clause.kind.keyword

/-- The values that the case is for. -/
def values (clause : Clause) : List Node := clause.pattern.values

/-- A case with a first value and perhaps others. -/
def ofValues (first : Node) (others : List Node) (body : Node) (location : Location) : Clause :=
  ⟨.case, .ofValues first others, body, location⟩

/-- The values of such a case are the first and the others. -/
@[simp] theorem values_ofValues (first : Node) (others : List Node) (body : Node)
    (location : Location) : (ofValues first others body location).values = first :: others :=
  Pattern.values_ofValues first others

/-- The body of such a case. -/
@[simp] theorem body_ofValues (first : Node) (others : List Node) (body : Node)
    (location : Location) : (ofValues first others body location).body = body := rfl

/-- The default. -/
def fallback (body : Node) (location : Location) : Clause := ⟨.default, .none, body, location⟩

/-- The default has no values. -/
@[simp] theorem values_fallback (body : Node) (location : Location) :
    (fallback body location).values = [] := rfl

/-- The body of the default. -/
@[simp] theorem body_fallback (body : Node) (location : Location) :
    (fallback body location).body = body := rfl

end Clause

namespace Entry

/-- An entry with a computed key, and its value if it has one. -/
def keyed (key : Node) (value : Option Node) : Entry := ⟨key, true, value.isNone, value⟩

/-- A name and its value. -/
def named (name : Token) (value : Node) : Entry := ⟨.leaf name, false, false, some value⟩

/-- A value without a key. -/
def item (value : Node) : Entry := ⟨value, false, true, none⟩

/-- The nodes of the entry: its key, and its value if it has one. -/
def nodes (entry : Entry) : List Node := entry.key :: entry.value.toList

/-- An entry with a computed key has the key and the value. -/
@[simp] theorem nodes_keyed (key : Node) (value : Option Node) :
    (keyed key value).nodes = key :: value.toList := rfl

/-- An entry with a name has the name and the value. -/
@[simp] theorem nodes_named (name : Token) (value : Node) :
    (named name value).nodes = [.leaf name, value] := rfl

/-- A value without a key is alone. -/
@[simp] theorem nodes_item (value : Node) : (item value).nodes = [value] := rfl

end Entry

namespace Node

/-- The span of a node in the source. -/
def location : Node → Location
  | .block _ location
  | .declaration _ _ location
  | .conditional _ _ _ location
  | .whileLoop _ _ location
  | .doWhileLoop _ _ location
  | .forLoop _ _ _ _ location
  | .switch _ _ location
  | .function _ _ _ location
  | .lambda _ _ location
  | .returns _ location
  | .binary _ _ _ location
  | .negation _ location
  | .update _ _ location
  | .assignment _ _ _ location
  | .call _ _ location
  | .access _ _ location
  | .elementAssignment _ _ _ location
  | .member _ _ _ location
  | .array _ location
  | .object _ location
  | .unit location => location
  | .clause branch => branch.location
  | .leaf token => token.location

/-- The name of the kind of a node; a leaf has the one of its token. -/
def kindName : Node → String
  | .block .. => "BlockStatement"
  | .declaration .. => "VariableDeclaration"
  | .conditional .. => "IfStatement"
  | .whileLoop .. => "WhileStatement"
  | .doWhileLoop .. => "DoWhileStatement"
  | .forLoop .. => "ForStatement"
  | .switch .. => "SwitchStatement"
  | .function .. => "FunctionDeclaration"
  | .lambda .. => "AnonymousFunctionDeclaration"
  | .returns .. => "ReturnStatement"
  | .binary .. => "BinaryExpression"
  | .negation .. => "UnaryExpression"
  | .update .. => "UpdateExpression"
  | .assignment .. => "AssignmentExpression"
  | .call .. => "FunctionCall"
  | .access .. => "PropertyAccess"
  | .elementAssignment .. => "PropertyAssignment"
  | .member .. => "ObjectExpression"
  | .array .. => "ArrayExpression"
  | .object .. => "ObjectLiteralExpression"
  | .unit .. => "EmptyExpression"
  | .clause .. => "CaseStatement"
  | .leaf token => token.kind.name

/-- The token of a leaf. -/
def token? : Node → Option Token
  | .leaf token => some token
  | _ => none

/-- The token of a leaf that is a name. -/
def identifier? (node : Node) : Option Token := node.token?.filter Token.isIdentifier

/-- Whether the node is a name that stands for itself. -/
def isIdentifier (node : Node) : Bool := node.identifier?.isSome

end Node

mutual

/-- A node in a few words: leaves by their text, members and cases by their parts, all else by
the name of its kind. -/
def Node.summary : Node → String
  | .leaf token => token.text
  | .member object property separator _ => object.summary ++ separator.text ++ property.summary
  | .clause branch => branch.summary
  | other => other.kindName

/-- A case in a few words, without its body. -/
def Clause.summary : Clause → String
  | ⟨kind, .none, _, _⟩ => kind.keyword.text
  | ⟨kind, .single value, _, _⟩ => kind.keyword.text ++ " " ++ value.summary
  | ⟨kind, .alternatives values, _, _⟩ => kind.keyword.text ++ " " ++ Node.summaries values

/-- Nodes in a few words, with a bar between each two. -/
def Node.summaries : List Node → String
  | [] => ""
  | [node] => node.summary
  | node :: next :: others => node.summary ++ " | " ++ Node.summaries (next :: others)

end

end Oreo
