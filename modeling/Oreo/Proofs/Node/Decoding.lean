import Mathlib.Data.Set.Function
import Oreo.Node.Json
import Oreo.Proofs.Parse.Completeness
import Oreo.Proofs.Parse.Spans

/-!
# Reading trees back

The JSON of a program is all that those see of it who go on from there, so no two programs may have
the same. Some kinds of nodes are told apart by less than a name of their own: a leaf is written as
its token, and the values of a case as `null`, as one node or as an array. `Json.program?` reads a
program back from its JSON, field by field and by name, and gives the very program that was written
(`program?_programJson`).

Numbers are left open. A writer of JSON may put any value in the place of a number, as it puts
`null` in the place of infinity (`Json.written`); all that is needed is that the numbers of sources
can be told apart.
-/

namespace Oreo

namespace Json

mutual

/-- The value with each number as it is written. -/
@[simp] def written (write : Double → Json) : Json → Json
  | .double value => write value
  | .array items => .array (writtenItems write items)
  | .object fields => .object (writtenFields write fields)
  | json => json

/-- The items of an array with each number as it is written. -/
@[simp] def writtenItems (write : Double → Json) : List Json → List Json
  | [] => []
  | item :: items => item.written write :: writtenItems write items

/-- The fields of an object with each number as it is written. -/
@[simp] def writtenFields (write : Double → Json) : List (String × Json) → List (String × Json)
  | [] => []
  | (name, value) :: fields => (name, value.written write) :: writtenFields write fields

end

/-- The value of a field of an object. -/
def field? (name : String) : Json → Option Json
  | .object fields => fields.lookup name
  | _ => none

/-- The truth value of a flag. -/
@[simp] def flag? : Json → Option Bool
  | .bool flag => some flag
  | _ => none

/-- A text is read back from itself. -/
@[simp] theorem string?_string (text : String) : (string text).string? = some text := rfl

/-- The natural number of a whole number. -/
def natural? : Json → Option Nat
  | .integer (.ofNat value) => some value
  | _ => none

/-- A natural number is read back. -/
@[simp] theorem natural?_natural (value : Nat) : (natural value).natural? = some value := rfl

/-- A word is read back. -/
@[simp] theorem word?_natural (value : UInt32) : (natural value.toNat).word? = some value := by
  have below : value.toNat < UInt32.size := value.toNat_lt_size
  simp [word?, natural, naturalBelow?, below]

end Json

/-- The location that is written as the given value. -/
def Location.decode? (json : Json) : Option Location := do
  let start ← (← json.field? "start").natural?
  let stop ← (← json.field? "end").natural?
  let line ← (← json.field? "line").word?
  let column ← (← json.field? "column").word?
  return { start, stop, line, column }

/-- The kind of case that begins with the given keyword. -/
def Clause.Kind.ofText? (text : String) : Option Clause.Kind :=
  [.case, .default].find? (·.keyword.text == text)

/-- The operator that is written as the given symbol. -/
def UpdateOperator.ofText? (symbol : String) : Option UpdateOperator :=
  [.increment, .decrement].find? (·.text == symbol)

/-- The operator that is written as the given symbol. -/
def AssignmentOperator.ofText? (symbol : String) : Option AssignmentOperator :=
  [.assign, .addAssign, .subtractAssign, .multiplyAssign, .divideAssign].find? (·.text == symbol)

/-- The separator that is written as the given text. -/
def MemberSeparator.ofText? (text : String) : Option MemberSeparator :=
  [.dot, .colon].find? (·.text == text)

/-- The kind of an operator with the given text. -/
def Token.Kind.ofSymbol (text : String) : Token.Kind :=
  match known : Operator.ofText? text with
  | some found => .operator found
  | none => .otherOperator text known

/-- The kind of a punctuation character. -/
def Token.Kind.ofCharacter (character : Char) : Token.Kind :=
  match known : Punctuation.ofCharacter? character with
  | some mark => .punctuation mark
  | none => .otherMark character known

/-- The kind of the given name whose value is written as the given one. -/
def Token.Kind.decode? (read : Json → Option Double) (name : String) (value : Json) :
    Option Token.Kind :=
  match name with
  | "Identifier" => return .identifier (← value.string?)
  | "Keyword" => return .keyword (← Keyword.ofText? (← value.string?))
  | "NumberLiteral" => return .number (← read value)
  | "StringLiteral" => do
    let text ← (← value.field? "value").string?
    let quote ← (← (← value.field? "quote").string?).toList.head?
    return .string text quote
  | "BooleanLiteral" => return .boolean (← value.flag?)
  | "Operator" => return .ofSymbol (← value.string?)
  | "Punctuation" => return .ofCharacter (← (← value.string?).toList.head?)
  | "CommentLine" => return .lineComment (← value.string?)
  | "MultiLineComment" => return .blockComment (← value.string?)
  | _ => none

/-- An object, and what its fields are read as. -/
structure Json.Parts where
  /-- The fields. -/
  fields : List (String × Json)
  /-- The nodes of the field of the given name. -/
  nodes : String → Option (List Node)
  /-- The entries of an object literal. -/
  entries : Option (List Entry)

namespace Json.Parts

/-- The value of a field. -/
def value (parts : Parts) (name : String) : Option Json := parts.fields.lookup name

/-- The text of a field. -/
@[simp] def text (parts : Parts) (name : String) : Option String :=
  (parts.value name).bind Json.string?

/-- The truth value of a field. -/
@[simp] def flag (parts : Parts) (name : String) : Option Bool :=
  (parts.value name).bind Json.flag?

/-- The one node of a field. -/
@[simp] def node (parts : Parts) (name : String) : Option Node :=
  (parts.nodes name).bind List.head?

/-- The node of a field that may be missing. -/
@[simp] def optional (parts : Parts) (name : String) : Option (Option Node) :=
  (parts.nodes name).map List.head?

/-- The one token of a field. -/
@[simp] def token (parts : Parts) (name : String) : Option Token :=
  (parts.node name).bind Node.token?

/-- The tokens of a field. -/
@[simp] def tokens (parts : Parts) (name : String) : Option (List Token) :=
  (parts.nodes name).map (List.filterMap Node.token?)

/-- The cases of a field. -/
@[simp] def clauses (parts : Parts) (name : String) : Option (List Clause) :=
  (parts.nodes name).map (List.filterMap Node.clause?)

/-- The entry of an object literal with these parts. -/
@[simp] def entry (parts : Parts) : Option Entry := do
  let key ← parts.node "identifier"
  let isComputed ← parts.flag "computed"
  let isArrayStyle ← parts.flag "isArrayStyle"
  let value ← parts.optional "value"
  return { key, isComputed, isArrayStyle, value }

/-- The values of a case: none of `null`, several of an array, and else one. -/
def pattern (parts : Parts) (name : String) : Option Pattern := do
  match ← parts.value name with
  | .null => return .none
  | .array _ => return .alternatives (← parts.nodes name)
  | _ => return .single (← parts.node name)

/-- The node of the given kind with these parts. -/
def build (read : Json → Option Double) (parts : Parts) (location : Location) (kind : String) :
    Option Node :=
  match kind with
  | "BlockStatement" => return .block (← parts.nodes "body") location
  | "VariableDeclaration" =>
    return .declaration (← parts.token "identifier") (← parts.optional "value") location
  | "IfStatement" =>
    return .conditional (← parts.node "test") (← parts.node "consequent")
      (← parts.optional "alternate") location
  | "WhileStatement" =>
    return .whileLoop (← parts.node "test") (← parts.node "consequent") location
  | "DoWhileStatement" => return .doWhileLoop (← parts.node "test") (← parts.node "body") location
  | "ForStatement" =>
    return .forLoop (← parts.node "init") (← parts.node "test") (← parts.node "update")
      (← parts.node "body") location
  | "SwitchStatement" =>
    return .switch (← parts.node "identifier") (← parts.clauses "body") location
  | "FunctionDeclaration" =>
    return .function (← parts.node "identifier") (← parts.tokens "arguments")
      (← parts.node "body") location
  | "AnonymousFunctionDeclaration" =>
    return .lambda (← parts.tokens "arguments") (← parts.node "body") location
  | "ReturnStatement" => return .returns (← parts.optional "statement") location
  | "BinaryExpression" =>
    return .binary (← Operator.ofText? (← parts.text "operator")) (← parts.node "left")
      (← parts.node "right") location
  | "UnaryExpression" => return .negation (← parts.node "expression") location
  | "UpdateExpression" =>
    return .update (← parts.token "identifier")
      (← UpdateOperator.ofText? (← parts.text "operator")) location
  | "AssignmentExpression" =>
    return .assignment (← parts.token "identifier")
      (← AssignmentOperator.ofText? (← parts.text "operator")) (← parts.node "value") location
  | "FunctionCall" => return .call (← parts.node "identifier") (← parts.nodes "arguments") location
  | "PropertyAccess" =>
    return .access (← parts.node "identifier") (← parts.node "index") location
  | "PropertyAssignment" =>
    return .elementAssignment (← parts.node "identifier") (← parts.node "index")
      (← parts.node "value") location
  | "ObjectExpression" =>
    return .member (← parts.node "object") (← parts.node "property")
      (← MemberSeparator.ofText? (← parts.text "expressionType")) location
  | "ArrayExpression" => return .array (← parts.nodes "elements") location
  | "ObjectLiteralExpression" => return .object (← parts.entries) location
  | "EmptyExpression" => return .unit location
  | "CaseStatement" =>
    return .clause ⟨← Clause.Kind.ofText? (← parts.text "caseType"), ← parts.pattern "identifier",
      ← parts.node "body", location⟩
  | _ => return .leaf ⟨← Token.Kind.decode? read kind (← parts.value "value"), location⟩

/-- The node with these parts, which tell its place and its kind. -/
def toNode (read : Json → Option Double) (parts : Parts) : Option Node := do
  parts.build read (← Location.decode? (← parts.value "loc")) (← parts.text "type")

end Json.Parts

namespace Json

variable (read : Json → Option Double)

mutual

/-- The nodes of a value: none of `null`, one of an object, several of an array. -/
@[simp] def nodes? : Json → Option (List Node)
  | .null => some []
  | .array items => itemNodes? items
  | .object fields => do
    let node ← Parts.toNode read ⟨fields, fieldNodes? fields, fieldEntries? fields⟩
    return [node]
  | _ => none

/-- The nodes of an array. -/
@[simp] def itemNodes? : List Json → Option (List Node)
  | [] => some []
  | item :: items => return (← (← nodes? item).head?) :: (← itemNodes? items)

/-- The nodes of the field of the given name. -/
@[simp] def fieldNodes? : List (String × Json) → String → Option (List Node)
  | [], _ => none
  | (key, value) :: fields, name =>
    if name == key then nodes? value else fieldNodes? fields name

/-- The entry of an object literal that is written as the given value. -/
def entryOf? : Json → Option Entry
  | .object fields => Parts.entry ⟨fields, fieldNodes? fields, fieldEntries? fields⟩
  | _ => none

/-- The entries of an array. -/
@[simp] def itemEntries? : List Json → Option (List Entry)
  | [] => some []
  | item :: items => return (← entryOf? item) :: (← itemEntries? items)

/-- The entries of the field that is named for them. -/
def fieldEntries? : List (String × Json) → Option (List Entry)
  | [] => none
  | (key, .array items) :: fields =>
    if key == "entries" then itemEntries? items else fieldEntries? fields
  | _ :: fields => fieldEntries? fields

end

/-- The program that is written as the given value. -/
def program? : Json → Option (List Node)
  | .array items => itemNodes? read items
  | _ => none

/-- What the fields of an object are read as. -/
def partsOf (fields : List (String × Json)) : Parts :=
  ⟨fields, fieldNodes? read fields, fieldEntries? read fields⟩

variable {read} {fields : List (String × Json)}

/-- A value is looked up among the fields by its name. -/
@[simp] theorem partsOf_value (name : String) :
    (partsOf read fields).value name = fields.lookup name := rfl

/-- The nodes of a field are read from the fields. -/
@[simp] theorem partsOf_nodes (name : String) :
    (partsOf read fields).nodes name = fieldNodes? read fields name := rfl

/-- The entries are read from the fields. -/
@[simp] theorem partsOf_entries : (partsOf read fields).entries = fieldEntries? read fields := rfl

/-- The fields of a node are read as that one node. -/
theorem nodes?_object {node : Node} (told : (partsOf read fields).toNode read = some node) :
    nodes? read (.object fields) = some [node] := by
  rw [partsOf] at told
  simp [nodes?, told]

/-- The fields of an entry are read as its parts say. -/
theorem entryOf?_object : entryOf? read (.object fields) = (partsOf read fields).entry := by
  rw [entryOf?, partsOf]

end Json

/-- A keyword is read back from its text. -/
@[simp] theorem Keyword.ofText?_text (keyword : Keyword) : ofText? keyword.text = some keyword := by
  cases keyword <;> decide

/-- An operator is read back from its text. -/
@[simp] theorem Operator.ofText?_text (operator : Operator) :
    ofText? operator.text = some operator := by
  cases operator <;> decide

/-- The mark of a character is read back. -/
theorem Punctuation.ofCharacter?_character (mark : Punctuation) :
    ofCharacter? mark.character = some mark := by
  cases mark <;> decide

/-- An operator is read back from its text. -/
@[simp] theorem Token.Kind.ofSymbol_text (operator : Operator) :
    ofSymbol operator.text = .operator operator := by
  unfold ofSymbol
  split
  · rename_i other known
    rw [Operator.ofText?_text] at known
    cases known
    rfl
  · rename_i unknown
    rw [Operator.ofText?_text] at unknown
    cases unknown

/-- Another operator is read back from its text. -/
theorem Token.Kind.ofSymbol_unknown {text : String}
    (unknown : Operator.ofText? text = none) : ofSymbol text = .otherOperator text unknown := by
  unfold ofSymbol
  split
  · rename_i operator known
    cases unknown.symm.trans known
  · rfl

/-- A mark is read back from its character. -/
@[simp] theorem Token.Kind.ofCharacter_character (mark : Punctuation) :
    ofCharacter mark.character = .punctuation mark := by
  unfold ofCharacter
  split
  · rename_i other known
    rw [Punctuation.ofCharacter?_character] at known
    cases known
    rfl
  · rename_i unknown
    rw [Punctuation.ofCharacter?_character] at unknown
    cases unknown

/-- Another mark is read back from its character. -/
theorem Token.Kind.ofCharacter_unknown {character : Char}
    (unknown : Punctuation.ofCharacter? character = none) :
    ofCharacter character = .otherMark character unknown := by
  unfold ofCharacter
  split
  · rename_i mark known
    cases unknown.symm.trans known
  · rfl

/-- The kind of a case is read back from its keyword. -/
@[simp] theorem Clause.Kind.ofText?_text (kind : Clause.Kind) :
    ofText? kind.keyword.text = some kind := by
  cases kind <;> decide

/-- An update operator is read back from its text. -/
@[simp] theorem UpdateOperator.ofText?_text (operator : UpdateOperator) :
    ofText? operator.text = some operator := by
  cases operator <;> decide

/-- An assignment operator is read back from its text. -/
@[simp] theorem AssignmentOperator.ofText?_text (operator : AssignmentOperator) :
    ofText? operator.text = some operator := by
  cases operator <;> decide

/-- A member separator is read back from its text. -/
@[simp] theorem MemberSeparator.ofText?_text (separator : MemberSeparator) :
    ofText? separator.text = some separator := by
  cases separator <;> decide

/-- A location is read back from its fields. -/
@[simp] theorem Location.decode?_toJson (location : Location) :
    decode? location.toJson = some location := by
  simp [decode?, toJson, Json.field?, List.lookup_cons]

section

variable {read : Json → Option Double} {write : Double → Json}

/-- A location has no number that the writer changes. -/
@[simp] theorem Location.written_toJson (location : Location) :
    location.toJson.written write = location.toJson := by
  simp [toJson, Json.natural]

/-- The kind of a token is read back if its number is, where it is one. -/
theorem Token.Kind.decode?_valueJson {kind : Token.Kind}
    (numbers : ∀ value, kind = .number value → read (write value) = some value) :
    decode? read kind.name (kind.valueJson.written write) = some kind := by
  cases kind with
  | number value => simp [decode?, name, valueJson, numbers value rfl]
  | string value quote =>
    simp [decode?, name, valueJson, Json.field?, List.lookup_cons]
  | punctuation mark => simp [decode?, name, valueJson, Punctuation.text]
  | otherOperator text unknown => simp [decode?, name, valueJson, ofSymbol_unknown unknown]
  | otherMark character unknown => simp [decode?, name, valueJson, ofCharacter_unknown unknown]
  | _ => simp [decode?, name, valueJson]

namespace Json

/-- The value is read as the nodes, with its numbers as they are written. -/
abbrev Tells (read : Json → Option Double) (write : Double → Json) (json : Json)
    (nodes : List Node) : Prop :=
  nodes? read (json.written write) = some nodes

/-- Fields one behind the other are written one behind the other. -/
theorem writtenFields_append (front back : List (String × Json)) :
    writtenFields write (front ++ back) =
      writtenFields write front ++ writtenFields write back := by
  induction front with
  | nil => rfl
  | cons field front ih => simp [ih]

/-- A record tells the node that is built from its parts. -/
theorem tells_record {kind : String} {location : Location} {parts : List (String × Json)}
    {node : Node} (unplaced : (writtenFields write parts).lookup "loc" = none)
    (built : (partsOf read (("type", .string kind) ::
      (writtenFields write parts ++ [("loc", location.toJson)]))).build read location kind =
        some node) :
    (Node.record kind location parts).Tells read write [node] := by
  have fields : (Node.record kind location parts).written write = .object
      (("type", .string kind) :: (writtenFields write parts ++ [("loc", location.toJson)])) := by
    simp [Node.record, writtenFields_append]
  rw [Tells, fields]
  apply nodes?_object
  simpa [Parts.toNode, List.lookup_cons, List.lookup_append, unplaced] using built

/-- A list of nodes is read back if each of them is. -/
theorem itemNodes?_listJson (nodes : List Node)
    (back : ∀ node ∈ nodes, node.toJson.Tells read write [node]) :
    itemNodes? read (writtenItems write (Node.listJson nodes)) = some nodes := by
  induction nodes with
  | nil => rfl
  | cons node nodes ih =>
    rw [List.forall_mem_cons] at back
    simp [Node.listJson, back.1, ih back.2]

/-- A part that may be missing is read back if it is when it is there. -/
theorem tells_optionJson (part : Option Node)
    (back : ∀ node, part = some node → node.toJson.Tells read write [node]) :
    (Node.optionJson part).Tells read write part.toList := by
  cases part with
  | none => simp [Tells, Node.optionJson]
  | some node => simpa [Node.optionJson] using back

/-- Parameters are read as leaves. -/
theorem tells_parametersJson (parameters : List Token)
    (back : ∀ token ∈ parameters, token.toJson.Tells read write [.leaf token]) :
    (Node.parametersJson parameters).Tells read write (parameters.map .leaf) := by
  rw [Tells, Node.parametersJson, written, nodes?]
  induction parameters with
  | nil => rfl
  | cons token parameters ih =>
    rw [List.forall_mem_cons] at back
    simp [back.1, ih back.2]

/-- The cases of a switch are read as nodes. -/
theorem itemNodes?_clauses (clauses : List Clause)
    (back : ∀ branch ∈ clauses, branch.toJson.Tells read write [.clause branch]) :
    itemNodes? read (writtenItems write (Clause.listJson clauses)) =
      some (clauses.map .clause) := by
  induction clauses with
  | nil => rfl
  | cons branch clauses ih =>
    rw [List.forall_mem_cons] at back
    simp [Clause.listJson, back.1, ih back.2]

/-- A list of entries is read back if each of them is. -/
theorem itemEntries?_listJson (entries : List Entry)
    (back : ∀ entry ∈ entries, entryOf? read (entry.toJson.written write) = some entry) :
    itemEntries? read (writtenItems write (Entry.listJson entries)) = some entries := by
  induction entries with
  | nil => rfl
  | cons entry entries ih =>
    rw [List.forall_mem_cons] at back
    simp [Entry.listJson, back.1, ih back.2]

end Json

/-- A token is the record of its class, its place and its value. -/
theorem Token.toJson_eq_record (token : Token) :
    token.toJson = Node.record token.kind.name token.location [("value", token.kind.valueJson)] :=
  rfl

/-- A token is read as a leaf: its kind has the name of no other kind of nodes. -/
theorem Token.tells_toJson {token : Token}
    (numbers : ∀ value, token.kind = .number value → read (write value) = some value) :
    token.toJson.Tells read write [.leaf token] := by
  have kindBack := Token.Kind.decode?_valueJson numbers
  rw [toJson_eq_record]
  apply Json.tells_record rfl
  obtain ⟨kind, location⟩ := token
  cases kind <;>
    simp only [Token.Kind.name] at kindBack <;>
    simp [Json.Parts.build, Token.Kind.name, List.lookup_cons, kindBack]

/-- A node is written as an object. -/
theorem Node.toJson_eq_object (node : Node) : ∃ fields, node.toJson = .object fields := by
  cases node with
  | clause branch =>
    cases branch with
    | mk kind pattern body location => exact ⟨_, by rw [Node.toJson, Clause.toJson]; rfl⟩
  | _ => exact ⟨_, by rw [Node.toJson]; rfl⟩

/-- The values of a case are read back if each of them is: a node alone is neither `null` nor an
array. -/
theorem Json.Parts.pattern_of_toJson {parts : Parts} {name : String} {pattern : Pattern}
    (value : parts.value name = some (pattern.toJson.written write))
    (nodes : parts.nodes name = nodes? read (pattern.toJson.written write))
    (back : ∀ node ∈ pattern.values, node.toJson.Tells read write [node]) :
    parts.pattern name = some pattern := by
  cases pattern with
  | none => simp [Parts.pattern, value, Pattern.toJson]
  | single node =>
    have nodeBack := back node List.mem_cons_self
    obtain ⟨fields, object⟩ := node.toJson_eq_object
    rw [Tells, object, written] at nodeBack
    simp [Parts.pattern, value, nodes, Pattern.toJson, object, nodeBack]
  | alternatives values =>
    have valuesBack := itemNodes?_listJson values back
    simp [Parts.pattern, value, nodes, Pattern.toJson, valuesBack]

/-- A case is read back if its pieces are. -/
theorem Clause.tells_toJson {branch : Clause}
    (values : ∀ node ∈ branch.values, node.toJson.Tells read write [node])
    (body : branch.body.toJson.Tells read write [branch.body]) :
    branch.toJson.Tells read write [.clause branch] := by
  obtain ⟨kind, pattern, body, location⟩ := branch
  rw [Clause.toJson]
  apply Json.tells_record rfl
  rw [Json.Parts.build, Json.Parts.pattern_of_toJson (by simp [List.lookup_cons]) (by simp) values]
  simp [List.lookup_cons, body]

/-- An entry of an object literal is read back if its pieces are. -/
theorem Entry.entryOf?_toJson {entry : Entry}
    (back : ∀ child, .node child ∈ entry.pieces → child.toJson.Tells read write [child]) :
    Json.entryOf? read (entry.toJson.written write) = some entry := by
  obtain ⟨key, isComputed, isArrayStyle, value⟩ := entry
  have keyBack := back key (by simp [Entry.pieces, Entry.nodes])
  have valueBack := Json.tells_optionJson value fun node given =>
    back node (by simp [Entry.pieces, Entry.nodes, given])
  simp [Entry.toJson, Json.entryOf?_object, List.lookup_cons, keyBack, valueBack]

namespace Node

open Json.Parts in
/-- A node is read back if its pieces are. The name of its kind tells which fields it has, and the
fields tell the pieces. -/
theorem tells_toJson {node : Node}
    (held : ∀ token, .token token ∈ node.pieces → token.toJson.Tells read write [.leaf token])
    (back : ∀ child, .node child ∈ node.pieces → child.toJson.Tells read write [child]) :
    node.toJson.Tells read write [node] := by
  cases node with
  | block body location =>
    have bodyBack := Json.itemNodes?_listJson body fun node listed =>
      back node (by simp [pieces, listed])
    rw [toJson]
    apply Json.tells_record rfl
    simp [build, bodyBack]
  | declaration name value location =>
    have nameBack := held name (by simp [pieces])
    have valueBack := Json.tells_optionJson value fun node given =>
      back node (by simp [pieces, given])
    rw [toJson]
    apply Json.tells_record rfl
    simp [build, nameBack, valueBack, token?]
  | conditional test consequent alternate location =>
    have testBack := back test (by simp [pieces])
    have consequentBack := back consequent (by simp [pieces])
    have alternateBack := Json.tells_optionJson alternate fun node given =>
      back node (by simp [pieces, given])
    rw [toJson]
    apply Json.tells_record rfl
    simp [build, testBack, consequentBack, alternateBack]
  | whileLoop test body location | doWhileLoop test body location =>
    have testBack := back test (by simp [pieces])
    have bodyBack := back body (by simp [pieces])
    rw [toJson]
    apply Json.tells_record rfl
    simp [build, testBack, bodyBack]
  | forLoop initial test step body location =>
    have initialBack := back initial (by simp [pieces])
    have testBack := back test (by simp [pieces])
    have stepBack := back step (by simp [pieces])
    have bodyBack := back body (by simp [pieces])
    rw [toJson]
    apply Json.tells_record rfl
    simp [build, initialBack, testBack, stepBack, bodyBack]
  | switch subject clauses location =>
    have subjectBack := back subject (by simp [pieces])
    have clausesBack := Json.itemNodes?_clauses clauses fun branch listed => by
      simpa [toJson] using back (.clause branch) (by simp [pieces, listed])
    rw [toJson]
    apply Json.tells_record rfl
    simp [build, subjectBack, clausesBack, Function.comp_def, clause?]
  | function name parameters body location =>
    have nameBack := back name (by simp [pieces])
    have parametersBack := Json.tells_parametersJson parameters fun token listed =>
      held token (by simp [pieces, listed])
    have bodyBack := back body (by simp [pieces])
    rw [toJson]
    apply Json.tells_record rfl
    simp [build, nameBack, parametersBack, bodyBack, Function.comp_def, token?]
  | lambda parameters body location =>
    have parametersBack := Json.tells_parametersJson parameters fun token listed =>
      held token (by simp [pieces, listed])
    have bodyBack := back body (by simp [pieces])
    rw [toJson]
    apply Json.tells_record rfl
    simp [build, parametersBack, bodyBack, Function.comp_def, token?]
  | returns value location =>
    have valueBack := Json.tells_optionJson value fun node given =>
      back node (by simp [pieces, given])
    rw [toJson]
    apply Json.tells_record rfl
    simp [build, valueBack]
  | binary operator left right location =>
    have leftBack := back left (by simp [pieces])
    have rightBack := back right (by simp [pieces])
    rw [toJson]
    apply Json.tells_record rfl
    simp [build, List.lookup_cons, leftBack, rightBack]
  | negation operand location =>
    have operandBack := back operand (by simp [pieces])
    rw [toJson]
    apply Json.tells_record rfl
    simp [build, operandBack]
  | update target operator location =>
    have targetBack := held target (by simp [pieces])
    rw [toJson]
    apply Json.tells_record rfl
    simp [build, List.lookup_cons, targetBack, token?]
  | assignment target operator value location =>
    have targetBack := held target (by simp [pieces])
    have valueBack := back value (by simp [pieces])
    rw [toJson]
    apply Json.tells_record rfl
    simp [build, List.lookup_cons, targetBack, valueBack, token?]
  | call callee arguments location =>
    have calleeBack := back callee (by simp [pieces])
    have argumentsBack := Json.itemNodes?_listJson arguments fun node listed =>
      back node (by simp [pieces, listed])
    rw [toJson]
    apply Json.tells_record rfl
    simp [build, calleeBack, argumentsBack]
  | access target index location =>
    have targetBack := back target (by simp [pieces])
    have indexBack := back index (by simp [pieces])
    rw [toJson]
    apply Json.tells_record rfl
    simp [build, targetBack, indexBack]
  | elementAssignment target index value location =>
    have targetBack := back target (by simp [pieces])
    have indexBack := back index (by simp [pieces])
    have valueBack := back value (by simp [pieces])
    rw [toJson]
    apply Json.tells_record rfl
    simp [build, targetBack, indexBack, valueBack]
  | member owner property separator location =>
    have ownerBack := back owner (by simp [pieces])
    have propertyBack := back property (by simp [pieces])
    rw [toJson]
    apply Json.tells_record rfl
    simp [build, List.lookup_cons, ownerBack, propertyBack]
  | array elements location =>
    have elementsBack := Json.itemNodes?_listJson elements fun node listed =>
      back node (by simp [pieces, listed])
    rw [toJson]
    apply Json.tells_record rfl
    simp [build, elementsBack]
  | object entries location =>
    have entriesBack := Json.itemEntries?_listJson entries fun entry listed =>
      Entry.entryOf?_toJson fun child inside =>
        back child (List.mem_flatMap.mpr ⟨entry, listed, inside⟩)
    rw [toJson]
    apply Json.tells_record rfl
    simp [build, Json.fieldEntries?, entriesBack]
  | unit location =>
    rw [toJson]
    apply Json.tells_record rfl
    simp [build]
  | clause branch =>
    rw [toJson]
    exact Clause.tells_toJson (fun node listed => back node (by simp [pieces, listed]))
      (back branch.body (by simp [pieces]))
  | leaf token =>
    rw [toJson]
    exact held token (by simp [pieces])

end Node

/-- A nested node is read back if the numbers of the tokens are. -/
theorem Node.Nested.tells_toJson {tokens : List Token} {node : Node} (nested : node.Nested tokens)
    (numbers : ∀ token ∈ tokens, ∀ value, token.kind = .number value →
      read (write value) = some value) :
    node.toJson.Tells read write [node] := by
  induction nested with
  | mk spanned _ ih =>
    exact Node.tells_toJson
      (fun token held => Token.tells_toJson (numbers token (spanned.held token held))) ih

/-- The number is the value of a number token of some source. -/
def Double.Lexable (value : Double) : Prop :=
  ∃ source tokens, tokenize source = .ok tokens ∧ ∃ token ∈ tokens, token.kind = .number value

/-- A program that was parsed is read back if the numbers of sources are. -/
theorem Json.program?_programJson {options : Options} {source : String} {program : List Node}
    (numbers : ∀ value : Double, value.Lexable → read (write value) = some value)
    (parsed : parse options source = .ok program) :
    program? read ((Node.programJson program).written write) = some program := by
  obtain ⟨tokens, scanned, reads, -⟩ := reads_of_parse parsed
  have ascending : Ascending tokens := (tiles_of_tokenize scanned).ascending
  have laid : Laid tokens ([] ++ program.map .node) [] :=
    reads.laid trivial (Laid.start ascending)
  have listedNumbers : ∀ token ∈ tokens, ∀ value, token.kind = .number value →
      read (write value) = some value := fun token listed value kind =>
    numbers value ⟨source, tokens, scanned, token, listed, kind⟩
  have back : ∀ statement ∈ program, statement.toJson.Tells read write [statement] := by
    intro statement listed
    have nested : statement.Nested tokens :=
      laid.sound (.node statement) (List.mem_map_of_mem listed)
    exact nested.tells_toJson listedNumbers
  simp [Node.programJson, program?, itemNodes?_listJson program back]

end

/-- The JSON of programs is faithful. Whatever the numbers of sources are written as, if no two of
them are written alike, then programs can be read back from their JSON; so no two programs that are
parsed, from any sources and with any limits of depth, have the same JSON. -/
theorem programJson_faithful {write : Double → Json}
    (distinct : Set.InjOn write {value | value.Lexable}) :
    (∃ read : Json → Option Double, ∀ options source program,
      parse options source = .ok program →
        Json.program? read ((Node.programJson program).written write) = some program) ∧
    ∀ options source program otherOptions otherSource other,
      parse options source = .ok program → parse otherOptions otherSource = .ok other →
      (Node.programJson program).written write = (Node.programJson other).written write →
        program = other := by
  let read : Json → Option Double := fun json =>
    some (Function.invFunOn write {value | value.Lexable} json)
  have numbers : ∀ value : Double, value.Lexable → read (write value) = some value :=
    fun value lexable => congrArg some (distinct.leftInvOn_invFunOn lexable)
  refine ⟨⟨read, fun options source program => Json.program?_programJson numbers⟩, ?_⟩
  intro options source program otherOptions otherSource other parsed otherParsed same
  have back := Json.program?_programJson numbers parsed
  have otherBack := Json.program?_programJson numbers otherParsed
  rw [same, otherBack] at back
  exact (Option.some.inj back).symm

/-- Infinity is written as `null` and every other number as itself: a case for a name and a number
is read back, with what it returns, and has the JSON of no other program. -/
theorem programJson_faithful_switch :
    let write : Double → Json := fun value =>
      if value = .positive .infinite then .null else .double value
    let program : List Node :=
      [.switch (.leaf ⟨.identifier "a", ⟨7, 8, 1, 8⟩⟩)
        [⟨.case, .alternatives [.leaf ⟨.identifier "b", ⟨15, 16, 1, 16⟩⟩,
            .leaf ⟨.number (.ofDecimalRun ['1']), ⟨17, 18, 1, 18⟩⟩],
          .returns (some (.leaf ⟨.identifier "c", ⟨27, 28, 1, 28⟩⟩)) ⟨20, 28, 1, 21⟩,
          ⟨10, 28, 1, 11⟩⟩]
        ⟨0, 29, 1, 1⟩]
    Set.InjOn write {value | value.Lexable} ∧
      parse {} "switch a \x7bcase b|1: return c\x7d" = .ok program ∧
      (∃ read, Json.program? read ((Node.programJson program).written write) = some program) ∧
      ∀ options source other, parse options source = .ok other →
        (Node.programJson program).written write = (Node.programJson other).written write →
          program = other := by
  intro write program
  have distinct : Set.InjOn write {value | value.Lexable} := by
    intro first _ second _ same
    by_cases infinite : first = .positive .infinite
    · by_cases other : second = .positive .infinite
      · rw [infinite, other]
      · simp [write, infinite, other] at same
    · by_cases other : second = .positive .infinite
      · simp [write, infinite, other] at same
      · simpa [write, infinite, other] using same
  let tokens : List Token :=
    [⟨.keyword .switch, ⟨0, 6, 1, 1⟩⟩, ⟨.identifier "a", ⟨7, 8, 1, 8⟩⟩,
      ⟨.punctuation .openBrace, ⟨9, 10, 1, 10⟩⟩, ⟨.keyword .case, ⟨10, 14, 1, 11⟩⟩,
      ⟨.identifier "b", ⟨15, 16, 1, 16⟩⟩, ⟨.punctuation .bar, ⟨16, 17, 1, 17⟩⟩,
      ⟨.number (.ofDecimalRun ['1']), ⟨17, 18, 1, 18⟩⟩, ⟨.punctuation .colon, ⟨18, 19, 1, 19⟩⟩,
      ⟨.keyword .return, ⟨20, 26, 1, 21⟩⟩, ⟨.identifier "c", ⟨27, 28, 1, 28⟩⟩,
      ⟨.punctuation .closeBrace, ⟨28, 29, 1, 29⟩⟩]
  have scanned : tokenize "switch a \x7bcase b|1: return c\x7d" = .ok tokens := by rfl
  -- The parse is given by its reading, since it takes long to evaluate.
  have subject : Reads .expression 255 (tokens.drop 1) (.leaf ⟨.identifier "a", ⟨7, 8, 1, 8⟩⟩)
      (tokens.drop 2) :=
    .expressionOperand (.namedOperand rfl (.nameAlone rfl (List.cons_ne_nil _ _) rfl)) rfl
  have name : Reads .expression 253 (tokens.drop 4) (.leaf ⟨.identifier "b", ⟨15, 16, 1, 16⟩⟩)
      (tokens.drop 5) :=
    .expressionOperand (.namedOperand rfl (.nameAlone rfl (List.cons_ne_nil _ _) rfl)) rfl
  have number : Reads .expression 253 (tokens.drop 6)
      (.leaf ⟨.number (.ofDecimalRun ['1']), ⟨17, 18, 1, 18⟩⟩) (tokens.drop 7) :=
    .expressionOperand (.literal rfl) rfl
  have result : Reads .expression 252 (tokens.drop 9) (.leaf ⟨.identifier "c", ⟨27, 28, 1, 28⟩⟩)
      (tokens.drop 10) :=
    .expressionOperand (.namedOperand rfl (.nameAlone rfl (List.cons_ne_nil _ _) rfl)) rfl
  let branch : Clause :=
    ⟨.case, .alternatives [.leaf ⟨.identifier "b", ⟨15, 16, 1, 16⟩⟩,
        .leaf ⟨.number (.ofDecimalRun ['1']), ⟨17, 18, 1, 18⟩⟩],
      .returns (some (.leaf ⟨.identifier "c", ⟨27, 28, 1, 28⟩⟩)) ⟨20, 28, 1, 21⟩, ⟨10, 28, 1, 11⟩⟩
  have clause : Reads .statement 254 (tokens.drop 3) (.clause branch) (tokens.drop 10) :=
    .caseClause rfl name (.alternativesNext rfl number (.alternativesEnd rfl))
      (.clauseStatement rfl (.returnsValue rfl (List.cons_ne_nil _ _) rfl rfl result))
  have entries : Reads .block 255 (tokens.drop 2) ([branch].map .clause, ⟨9, 29, 1, 10⟩) [] :=
    .block rfl (.statementsNext rfl clause (.statementsEnd rfl))
  have reads : Reads .program 256 tokens program [] :=
    .programNext (.switch rfl subject entries) .programEnd
  have outcome : (parseTokens {} tokens).outcome = .ok program :=
    parseTokens_eq_ok_iff.mpr ⟨reads, rfl⟩
  have parsed : parse {} "switch a \x7bcase b|1: return c\x7d" = .ok program := by
    simp only [parse, scanned, outcome]
  obtain ⟨⟨read, back⟩, injective⟩ := programJson_faithful distinct
  exact ⟨distinct, parsed, ⟨read, back {} _ program parsed⟩, fun options source other =>
    injective {} _ program options source other parsed⟩

end Oreo
