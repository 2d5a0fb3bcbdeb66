import Oreo.Node.Basic

/-!
# Syntax trees as JSON

Every node is an object whose first field is the name of its kind and whose last is its place;
a leaf is written as its token. Parts that may be missing are `null` then.
-/

namespace Oreo

/-- A node as JSON: the name of its kind, its parts, and its place. -/
def Node.record (kind : String) (location : Location) (parts : List (String × Json)) : Json :=
  .object (("type", .string kind) :: parts ++ [("loc", location.toJson)])

/-- The names of parameters as JSON. -/
def Node.parametersJson (parameters : List Token) : Json := .array (parameters.map Token.toJson)

mutual

/-- A node as JSON. -/
def Node.toJson : Node → Json
  | .block body location => Node.record "BlockStatement" location
      [("body", .array (Node.listJson body))]
  | .declaration name value location => Node.record "VariableDeclaration" location
      [("identifier", name.toJson), ("value", Node.optionJson value)]
  | .conditional test consequent alternate location => Node.record "IfStatement" location
      [("test", test.toJson), ("consequent", consequent.toJson),
       ("alternate", Node.optionJson alternate)]
  | .whileLoop test body location => Node.record "WhileStatement" location
      [("test", test.toJson), ("consequent", body.toJson)]
  | .doWhileLoop test body location => Node.record "DoWhileStatement" location
      [("test", test.toJson), ("body", body.toJson)]
  | .forLoop initial test update body location => Node.record "ForStatement" location
      [("init", initial.toJson), ("test", test.toJson), ("update", update.toJson),
       ("body", body.toJson)]
  | .switch subject clauses location => Node.record "SwitchStatement" location
      [("identifier", subject.toJson), ("body", .array (Clause.listJson clauses))]
  | .function name parameters body location => Node.record "FunctionDeclaration" location
      [("identifier", name.toJson), ("arguments", Node.parametersJson parameters),
       ("body", body.toJson)]
  | .lambda parameters body location => Node.record "AnonymousFunctionDeclaration" location
      [("arguments", Node.parametersJson parameters), ("body", body.toJson)]
  | .returns value location => Node.record "ReturnStatement" location
      [("statement", Node.optionJson value)]
  | .binary operator left right location => Node.record "BinaryExpression" location
      [("operator", .string operator.text), ("left", left.toJson), ("right", right.toJson)]
  | .negation operand location => Node.record "UnaryExpression" location
      [("expression", operand.toJson)]
  | .update target operator location => Node.record "UpdateExpression" location
      [("identifier", target.toJson), ("operator", .string operator.text)]
  | .assignment target operator value location => Node.record "AssignmentExpression" location
      [("identifier", target.toJson), ("operator", .string operator.text),
       ("value", value.toJson)]
  | .call callee arguments location => Node.record "FunctionCall" location
      [("identifier", callee.toJson), ("arguments", .array (Node.listJson arguments))]
  | .access target index location => Node.record "PropertyAccess" location
      [("identifier", target.toJson), ("index", index.toJson)]
  | .elementAssignment target index value location => Node.record "PropertyAssignment" location
      [("identifier", target.toJson), ("index", index.toJson), ("value", value.toJson)]
  | .member object property separator location => Node.record "ObjectExpression" location
      [("object", object.toJson), ("property", property.toJson),
       ("expressionType", .string separator.text)]
  | .array elements location => Node.record "ArrayExpression" location
      [("elements", .array (Node.listJson elements))]
  | .object entries location => Node.record "ObjectLiteralExpression" location
      [("entries", .array (Entry.listJson entries))]
  | .unit location => Node.record "EmptyExpression" location []
  | .clause branch => branch.toJson
  | .leaf token => token.toJson

/-- Nodes as JSON, in order. -/
def Node.listJson : List Node → List Json
  | [] => []
  | node :: nodes => node.toJson :: Node.listJson nodes

/-- A part that may be missing. -/
def Node.optionJson : Option Node → Json
  | none => .null
  | some node => node.toJson

/-- The values of a case as JSON: none is `null`, one stands alone, several are an array. -/
def Pattern.toJson : Pattern → Json
  | .none => .null
  | .single value => value.toJson
  | .alternatives values => .array (Node.listJson values)

/-- A case as JSON. -/
def Clause.toJson : Clause → Json
  | ⟨kind, pattern, body, location⟩ => Node.record "CaseStatement" location
      [("caseType", .string kind.keyword.text), ("identifier", pattern.toJson),
       ("body", body.toJson)]

/-- Cases as JSON, in order. -/
def Clause.listJson : List Clause → List Json
  | [] => []
  | branch :: others => branch.toJson :: Clause.listJson others

/-- An entry of an object literal as JSON. -/
def Entry.toJson : Entry → Json
  | ⟨key, isComputed, isArrayStyle, value⟩ => .object
      [("identifier", key.toJson), ("computed", .bool isComputed),
       ("isArrayStyle", .bool isArrayStyle), ("value", Node.optionJson value)]

/-- Entries as JSON, in order. -/
def Entry.listJson : List Entry → List Json
  | [] => []
  | entry :: entries => entry.toJson :: Entry.listJson entries

end

/-- A program as JSON. -/
def Node.programJson (program : List Node) : Json := .array (Node.listJson program)

end Oreo
