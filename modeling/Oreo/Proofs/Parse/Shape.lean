import Oreo.Proofs.Parse.Spans
import Oreo.Proofs.Token.Longest

/-!
# The shape of trees

Whoever goes on from a tree, such as a generator of code, tells the nodes apart by their kinds and
expects certain kinds in certain places: a name or an element is called, a block or another `if`
stands behind `else`, a statement stands in a body. The types of the trees say little of this, for
any node may be a part of any other. `Node.WellFormed` says it of one node and its parts, and every
node of every program that is parsed is well-formed.

The parser puts a node together from parts that were read before, so the kinds of the parts have to
be known when the node is made. `Part.Formed` says for each part of the grammar which kinds it is
read as; a part that goes on behind a node, such as the arguments of a call, is told the kind of the
node instead. The name of a function is read as a call and taken apart again, and what is left of it
is well-formed too.
-/

namespace Oreo

namespace Node

/-- Whether the node can be called or indexed: it is a name or an element. -/
def isHead : Node → Bool
  | .leaf token => token.isIdentifier
  | .access .. => true
  | _ => false

/-- Whether the node can have members: it can be called or indexed, or is a call. -/
def isOwner : Node → Bool
  | .call .. => true
  | node => node.isHead

/-- Whether the node can be the name of a function: it can be called, or is a chain of members. -/
def isTitle : Node → Bool
  | .member .. => true
  | node => node.isHead

/-- Whether the node is a name with what it leads. -/
def isNamed : Node → Bool
  | .leaf token => token.isIdentifier
  | .update .. | .assignment .. | .call .. | .access .. | .elementAssignment .. | .member .. => true
  | _ => false

/-- Whether the node can stand behind `else`: it is a block or another test. -/
def isAlternate : Node → Bool
  | .block .. | .conditional .. => true
  | _ => false

/-- Whether the node is a statement: one that begins with a keyword, a comment, or a name with what
it leads. -/
def isStatement : Node → Bool
  | .declaration .. | .conditional .. | .whileLoop .. | .doWhileLoop .. | .forLoop .. | .switch ..
  | .clause _ | .function .. | .lambda .. | .returns .. => true
  | .leaf token => token.isComment || token.isIdentifier
  | node => node.isNamed

/-- Whether the node can be a body: it is a block or a statement. -/
def isBody : Node → Bool
  | .block .. => true
  | node => node.isStatement

/-- What can be called or indexed can have members. -/
theorem isOwner_of_isHead {node : Node} (head : node.isHead = true) : node.isOwner = true := by
  cases node with
  | call callee arguments location => rfl
  | _ => exact head

/-- What can have members is a name with what it leads. -/
theorem isNamed_of_isOwner {node : Node} (owner : node.isOwner = true) : node.isNamed = true := by
  cases node with
  | leaf token => exact owner
  | call | access => rfl
  | _ => cases owner

/-- What can be the name of a function is a name with what it leads. -/
theorem isNamed_of_isTitle {node : Node} (title : node.isTitle = true) : node.isNamed = true := by
  cases node with
  | leaf token => exact title
  | member | access => rfl
  | _ => cases title

/-- What can be called or indexed can be the name of a function. -/
theorem isTitle_of_isHead {node : Node} (head : node.isHead = true) : node.isTitle = true := by
  cases node with
  | member object property separator location => rfl
  | _ => exact head

/-- A name with what it leads is a statement. -/
theorem isStatement_of_isNamed {node : Node} (named : node.isNamed = true) :
    node.isStatement = true := by
  cases node with
  | leaf token => exact Bool.or_eq_true_iff.mpr (.inr named)
  | update | assignment | call | access | elementAssignment | member => rfl
  | _ => cases named

/-- A statement can be a body. -/
theorem isBody_of_isStatement {node : Node} (statement : node.isStatement = true) :
    node.isBody = true := by
  cases node with
  | block body location => rfl
  | _ => exact statement

end Node

/-- The operators that a source can hold. -/
def Lexeme.operators : List Operator := singleOperators ++ doubleOperators

/-- There are twelve of them; the other four have a place in the table of precedences only. -/
example : Lexeme.operators.length = 12 ∧
    ∀ operator ∈ [.assign, .lessEqual, .greaterEqual, .concat], operator ∉ Lexeme.operators := by
  decide

/-- The fields of a case go together, and it is written in the source. -/
structure Clause.WellFormed (tokens : List Token) (branch : Clause) : Prop where
  /-- The case begins with its keyword. -/
  written : ∃ token ∈ tokens, token.kind = .keyword branch.keyword ∧
    token.location.start = branch.location.start
  /-- The default has no values, and every other case has. -/
  default_iff : branch.kind = .default ↔ branch.pattern = .none
  /-- There are at least two alternatives. -/
  several : ∀ values, branch.pattern = .alternatives values → 2 ≤ values.length
  /-- The body is a block or a statement. -/
  body : branch.body.isBody = true

/-- The fields of an entry of an object literal go together. -/
structure Entry.WellFormed (entry : Entry) : Prop where
  /-- The entry is that of an array if it has no value, and only then. -/
  arrayStyle_iff : entry.isArrayStyle = true ↔ entry.value = none
  /-- The key of a value is computed or a name. -/
  named : entry.isComputed = false → entry.value ≠ none →
    ∃ name, name.isIdentifier = true ∧ entry.key = .leaf name

/-- The parts of the node are of the kinds that belong in their places. -/
def Node.WellFormed (tokens : List Token) : Node → Prop
  | .block body _ => ∀ node ∈ body, node.isStatement = true
  | .declaration name _ _ => name.isIdentifier = true
  | .conditional _ consequent alternate _ =>
    consequent.isBody = true ∧ ∀ node, alternate = some node → node.isAlternate = true
  | .whileLoop _ body _ | .doWhileLoop _ body _ => body.isBody = true
  | .forLoop initial _ step body _ =>
    initial.isStatement = true ∧ step.isStatement = true ∧ body.isBody = true
  | .function name parameters body _ =>
    name.isTitle = true ∧ (∀ parameter ∈ parameters, parameter.isIdentifier = true) ∧
      body.isBody = true
  | .lambda parameters body _ =>
    (∀ parameter ∈ parameters, parameter.isIdentifier = true) ∧ body.isBody = true
  | .binary operator _ _ _ => operator ∈ Lexeme.operators
  | .update target _ _ => target.isIdentifier = true
  | .assignment target _ _ _ => target.isIdentifier = true
  | .call callee _ _ => callee.isHead = true
  | .access target _ _ => target.isHead = true
  | .elementAssignment target _ _ _ => target.isHead = true
  | .member owner property _ _ => owner.isOwner = true ∧ property.isNamed = true
  | .object entries _ => ∀ entry ∈ entries, entry.WellFormed
  | .clause branch => branch.WellFormed tokens
  | .leaf token => token.kind.name ≠ "Punctuation" ∧ token.kind ≠ .keyword .fn
  | .switch .. | .returns .. | .negation .. | .array .. | .unit _ => True

/-- The node and all nodes in it are well-formed. -/
inductive Node.Formed (tokens : List Token) : Node → Prop
  /-- The node is well-formed, and so are all nodes in its children. -/
  | mk {node : Node} (here : node.WellFormed tokens)
      (below : ∀ child, .node child ∈ node.pieces → child.Formed tokens) : node.Formed tokens

/-- There is a value for every case that is not the default. -/
theorem Pattern.ofValues_ne_none (first : Node) (others : List Node) :
    ofValues first others ≠ .none := by
  cases others <;> rintro ⟨⟩

/-- Values are alternatives if there are others besides the first. -/
theorem Pattern.two_le_of_alternatives {first : Node} {others values : List Node}
    (several : ofValues first others = .alternatives values) : 2 ≤ values.length := by
  cases others with
  | nil => cases several
  | cons second others =>
    cases several
    simp

/-- An entry with a computed key is that of an array if it has no value. -/
theorem Entry.wellFormed_keyed (key : Node) (value : Option Node) :
    (keyed key value).WellFormed where
  arrayStyle_iff := Option.isNone_iff_eq_none
  named := nofun

/-- A name has a value. -/
theorem Entry.wellFormed_named {name : Token} (nameKind : name.isIdentifier = true) (value : Node) :
    (Entry.named name value).WellFormed where
  arrayStyle_iff := by constructor <;> nofun
  named := fun _ _ => ⟨name, nameKind, rfl⟩

/-- A value without a key is that of an array. -/
theorem Entry.wellFormed_item (value : Node) : (item value).WellFormed where
  arrayStyle_iff := iff_of_true rfl rfl
  named := fun _ given => absurd rfl given

/-- The node is of the kind, and all nodes in it are well-formed. -/
def Node.Fits (tokens : List Token) (kind : Node → Bool) (node : Node) : Prop :=
  kind node = true ∧ node.Formed tokens

/-- What a part is read as is well-formed and of the kinds that belong in its place. A part that
goes on behind a node is told the kind of the node. -/
@[simp] def Part.Formed (source : List Token) : (part : Part) → part.Result → Prop
  | .program, nodes => ∀ node ∈ nodes, node.Fits source Node.isStatement
  | .block, (nodes, _) | .statements, (nodes, _) =>
    ∀ node ∈ nodes, node.Fits source Node.isStatement
  | .alternatives, nodes => ∀ node ∈ nodes, node.Formed source
  | .statement, node | .lambda, node => node.Fits source Node.isStatement
  | .conditional, node => node.Fits source Node.isStatement ∧ node.isAlternate = true
  | .clauseBody, node | .body, node => node.Fits source Node.isBody
  | .expression, node | .operand, node => node.Formed source
  | .climb left _, node => left.Formed source → node.Formed source
  | .named _, node => node.Fits source Node.isNamed
  | .members object, node => object.Fits source Node.isOwner → node.Fits source Node.isNamed
  | .call head, node | .indexed head, node =>
    head.Fits source Node.isHead → node.Fits source Node.isNamed
  | .accessed target index _, node =>
    target.Fits source Node.isHead → index.Formed source → node.Fits source Node.isNamed
  | .entry, written =>
    written.WellFormed ∧ ∀ child, .node child ∈ written.pieces → child.Formed source
  | .parameter, name => name.isIdentifier = true
  | .list _ item, (values, _) | .items _ item, (values, _) =>
    ∀ value ∈ values, item.Formed source value

section

variable {source : List Token} {token : Token} {node : Node} {tokens rest : List Token}

/-- A node that fits a place fits every place that takes more kinds. -/
theorem Node.Fits.mono {kind larger : Node → Bool} (fits : node.Fits source kind)
    (le : kind node = true → larger node = true) : node.Fits source larger :=
  ⟨le fits.1, fits.2⟩

/-- A node that is formed is well-formed. -/
theorem Node.Formed.here (formed : node.Formed source) : node.WellFormed source := by
  cases formed with
  | mk here _ => exact here

/-- The children of a formed node are formed. -/
theorem Node.Formed.child {child : Node} (formed : node.Formed source)
    (held : .node child ∈ node.pieces) : child.Formed source := by
  cases formed with
  | mk _ below => exact below child held

/-- A leaf is formed if it is well-formed. -/
theorem formed_leaf (other : (Node.leaf token).WellFormed source) :
    (Node.leaf token).Formed source :=
  .mk other (by simp [Node.pieces])

/-- A name fits where something is called or indexed. -/
theorem fits_name (named : token.isIdentifier = true) :
    (Node.leaf token).Fits source Node.isHead := by
  refine ⟨named, formed_leaf ?_⟩
  obtain ⟨name, kind⟩ := Token.isIdentifier_iff.mp named
  simp [Node.WellFormed, Token.Kind.name, kind]

/-- A literal is formed. -/
theorem formed_literal (operand : token.isOperand = true) : (Node.leaf token).Formed source := by
  refine formed_leaf ?_
  obtain ⟨kind, location⟩ := token
  cases kind with
  | punctuation mark | otherMark character unknown => cases operand
  | keyword keyword =>
    constructor
    · simp [Token.Kind.name]
    · rintro ⟨⟩
      cases operand
  | _ => simp [Node.WellFormed, Token.Kind.name]

/-- What is left of a call, or of a chain of members that ends in one, is the name of a function. -/
theorem fits_title {title : Node} {arguments : List Node}
    (split : node.signature? = some (title, arguments)) (formed : node.Formed source) :
    title.Fits source Node.isTitle := by
  fun_induction Node.signature? node generalizing title arguments with
  | case1 callee given location =>
    cases split
    exact ⟨Node.isTitle_of_isHead formed.here, formed.child (by simp [Node.pieces])⟩
  | case2 owner property separator location name given inner ih =>
    cases split
    have ownerFormed : owner.Formed source := formed.child (by simp [Node.pieces])
    have nameFits := ih inner (formed.child (by simp [Node.pieces]))
    refine ⟨rfl, .mk ⟨formed.here.1, Node.isNamed_of_isTitle nameFits.1⟩ ?_⟩
    simpa [Node.pieces] using And.intro ownerFormed nameFits.2
  | case3 => cases split
  | case4 => cases split

/-- A block of formed statements is formed. -/
theorem formed_block {body : List Node} {location : Location}
    (statements : Part.Formed source .block (body, location)) :
    (Node.block body location).Formed source := by
  refine .mk (fun node listed => (statements node listed).1) ?_
  simpa [Node.pieces] using fun node listed => (statements node listed).2

/-- An update of a name is formed. -/
theorem formed_update {operator : UpdateOperator} {location : Location}
    (named : token.isIdentifier = true) : (Node.update token operator location).Formed source :=
  .mk named (by simp [Node.pieces])

/-- A comment is formed. -/
theorem formed_comment (comment : token.isComment = true) : (Node.leaf token).Formed source := by
  refine formed_leaf ?_
  obtain ⟨kind, location⟩ := token
  cases kind with
  | lineComment text | blockComment text => simp [Node.WellFormed, Token.Kind.name]
  | _ => cases comment

/-- A case is formed if its fields go together and its parts are formed. -/
theorem fits_clause {branch : Clause} (wellFormed : branch.WellFormed source)
    (values : ∀ value ∈ branch.values, value.Formed source) (body : branch.body.Formed source) :
    (Node.clause branch).Fits source Node.isStatement := by
  refine ⟨rfl, .mk wellFormed ?_⟩
  simp only [Node.pieces, List.mem_append, List.mem_map, List.mem_singleton, Piece.node.injEq]
  rintro child (⟨value, among, rfl⟩ | rfl)
  · exact values value among
  · exact body

/-- A case with values begins with its keyword. -/
theorem fits_ofValues {first body : Node} {others : List Node} {place : Location}
    (listed : token ∈ source) (kind : token.kind = .keyword .case)
    (values : ∀ value ∈ first :: others, value.Formed source)
    (bodyFits : body.Fits source Node.isBody) :
    (Node.clause (.ofValues first others body (token.location.through place))).Fits source
      Node.isStatement := by
  refine fits_clause ?_ (by rwa [Clause.values_ofValues]) bodyFits.2
  exact {
    written := ⟨token, listed, kind, rfl⟩
    default_iff := iff_of_false (by rintro ⟨⟩) (Pattern.ofValues_ne_none first others)
    several := fun _ => Pattern.two_le_of_alternatives
    body := bodyFits.1 }

/-- The default begins with its keyword. -/
theorem fits_fallback {body : Node} {place : Location} (listed : token ∈ source)
    (kind : token.kind = .keyword .default) (bodyFits : body.Fits source Node.isBody) :
    (Node.clause (.fallback body (token.location.through place))).Fits source
      Node.isStatement := by
  refine fits_clause ?_ (List.forall_mem_nil _) bodyFits.2
  exact {
    written := ⟨token, listed, kind, rfl⟩
    default_iff := iff_of_true rfl rfl
    several := nofun
    body := bodyFits.1 }

/-- An element of what can be indexed fits where something is called or indexed. -/
theorem fits_access {target index : Node} {location : Location}
    (targetFits : target.Fits source Node.isHead) (indexFormed : index.Formed source) :
    (Node.access target index location).Fits source Node.isHead :=
  ⟨rfl, .mk targetFits.1 (by simpa [Node.pieces] using And.intro targetFits.2 indexFormed)⟩

end

/-- What is read from the tokens of a source is well-formed and of the kinds that belong in its
place, if no operator is among them that no source can hold. -/
theorem Reads.formed {source : List Token} {part : Part} {room : Nat} {tokens rest : List Token}
    {value : part.Result}
    (symbols : ∀ token ∈ source, ∀ operator, token.kind = .operator operator →
      operator ∈ Lexeme.operators)
    (reads : Reads part room tokens value rest) (within : tokens <:+ source) :
    part.Formed source value := by
  induction reads with
  | programEnd => simp
  | programNext statementRead _ first others =>
    have later := (passSemicolon_suffix _).trans (statementRead.within within)
    simpa using And.intro (first within) (others later)
  | declared _ name => exact ⟨rfl, .mk name (by simp [Node.pieces])⟩
  | initialized _ name _ _ value =>
    have value := value (within_tail (within_tail (within_tail within)))
    exact ⟨rfl, .mk name (by simpa [Node.pieces] using value)⟩
  | conditionalStatement _ _ conditional => exact (conditional within).1
  | whileLoop _ testRead _ test body =>
    have inside := within_tail within
    have body := body (testRead.within inside)
    exact ⟨rfl, .mk body.1 (by simpa [Node.pieces] using And.intro (test inside) body.2)⟩
  | doWhileLoop _ bodyRead ahead _ _ body test =>
    have inside := within_tail within
    have later := within_tail (within_behind ahead (bodyRead.within inside))
    have body := body inside
    exact ⟨rfl, .mk body.1 (by simpa [Node.pieces] using And.intro body.2 (test later))⟩
  | forLoop _ initialRead _ testRead _ updateRead _ initial test update body =>
    have inside := within_tail within
    have middle := within_tail (initialRead.within inside)
    have later := within_tail (testRead.within middle)
    have initial := initial inside
    have update := update later
    have body := body (updateRead.within later)
    refine ⟨rfl, .mk ⟨initial.1, update.1, body.1⟩ ?_⟩
    simpa [Node.pieces] using And.intro initial.2 ⟨test middle, update.2, body.2⟩
  | forLoopByOne _ initialRead _ testRead _ _ _ initial test body =>
    have inside := within_tail within
    have middle := within_tail (initialRead.within inside)
    have initial := initial inside
    have body := body (testRead.within middle)
    refine ⟨rfl, .mk ⟨initial.1, rfl, body.1⟩ ?_⟩
    simpa [Node.pieces] using
      And.intro initial.2 ⟨test middle, formed_update initial.2.here, body.2⟩
  | switch _ subjectRead _ subject clauses =>
    have inside := within_tail within
    have clauses := clauses (subjectRead.within inside)
    refine ⟨rfl, .mk trivial ?_⟩
    simp only [Part.Formed, List.forall_mem_map] at clauses
    simpa [Node.pieces] using
      And.intro (subject inside) fun branch listed => (clauses branch listed).2
  | caseClause keyword valueRead othersRead _ value others body =>
    have inside := within_tail within
    have middle := valueRead.within inside
    have values := List.forall_mem_cons.mpr ⟨value inside, others middle⟩
    exact fits_ofValues (within.subset List.mem_cons_self) keyword values
      (body (othersRead.within middle))
  | defaultClause keyword _ body =>
    exact fits_fallback (within.subset List.mem_cons_self) keyword (body (within_tail within))
  | lambdaStatement _ _ lambda => exact lambda within
  | function _ _ signatureRead split parameters _ signature body =>
    have inside := within_tail within
    have title := fits_title split (signature inside).2
    have body := body (signatureRead.within inside)
    refine ⟨rfl, .mk ⟨title.1, parameters, body.1⟩ ?_⟩
    simpa [Node.pieces] using And.intro title.2 body.2
  | returnsNothing => exact ⟨rfl, .mk trivial (by simp [Node.pieces])⟩
  | returnsValue _ _ _ _ _ value =>
    exact ⟨rfl, .mk trivial (by simpa [Node.pieces] using value (within_tail within))⟩
  | namedStatement _ _ named => exact (named within).mono Node.isStatement_of_isNamed
  | comment comment => exact ⟨Bool.or_eq_true_iff.mpr (.inl comment), formed_comment comment⟩
  | conditionalOnly _ testRead _ _ _ test consequent =>
    have inside := within_tail within
    have consequent := consequent (testRead.within inside)
    refine ⟨⟨rfl, .mk ⟨consequent.1, by simp⟩ ?_⟩, rfl⟩
    simpa [Node.pieces] using And.intro (test inside) consequent.2
  | conditionalElse _ testRead consequentRead ahead _ _ test consequent block =>
    have inside := within_tail within
    have middle := testRead.within inside
    have later := within_behind ahead (consequentRead.within middle)
    have consequent := consequent middle
    have block := formed_block (block (within_tail later))
    refine ⟨⟨rfl, .mk ⟨consequent.1, ?_⟩ ?_⟩, rfl⟩
    · rintro _ ⟨⟩
      rfl
    · simpa [Node.pieces] using And.intro (test inside) ⟨consequent.2, block⟩
  | conditionalElseif _ testRead consequentRead ahead _ _ test consequent alternate =>
    have inside := within_tail within
    have middle := testRead.within inside
    have alternate := alternate (within_behind ahead (consequentRead.within middle))
    have consequent := consequent middle
    refine ⟨⟨rfl, .mk ⟨consequent.1, ?_⟩ ?_⟩, rfl⟩
    · rintro _ ⟨⟩
      exact alternate.2
    · simpa [Node.pieces] using And.intro (test inside) ⟨consequent.2, alternate.1.2⟩
  | alternativesEnd => simp
  | alternativesNext _ valueRead _ value others =>
    have inside := within_tail within
    simpa using And.intro (value inside) (others (valueRead.within inside))
  | clauseBlock _ block => exact ⟨rfl, formed_block (block within)⟩
  | clauseStatement _ _ statement =>
    exact (statement (within_tail within)).mono Node.isBody_of_isStatement
  | bodyBlock _ block => exact ⟨rfl, formed_block (block within)⟩
  | bodyStatement _ _ statement => exact (statement within).mono Node.isBody_of_isStatement
  | block _ _ body => exact body (within_tail within)
  | statementsEnd => simp
  | statementsNext _ statementRead _ first others =>
    have later := (passSemicolon_suffix _).trans (statementRead.within within)
    simpa using And.intro (first within) (others later)
  | lambda _ _ parametersRead _ parameters body =>
    have inside := within_tail (within_tail within)
    have body := body (parametersRead.within inside)
    exact ⟨rfl, .mk ⟨parameters inside, body.1⟩ (by simpa [Node.pieces] using body.2)⟩
  | expressionOperand _ _ operand => exact operand within
  | expressionBinary operandRead _ _ operand climb =>
    exact climb (operandRead.within within) (operand within)
  | climbEnd => exact fun left => left
  | climbNext symbol _ operandRead rightRead _ operand right climb =>
    intro left
    have inside := within_tail within
    have middle := operandRead.within inside
    have right := right middle (operand inside)
    refine climb (rightRead.within middle) (.mk (symbols _ (within.subset (by simp)) _ symbol) ?_)
    simpa [Node.pieces] using And.intro left right
  | unit => exact .mk trivial (by simp [Node.pieces])
  | parenthesized _ _ _ _ value => exact value (within_tail within)
  | array _ _ elements =>
    exact .mk trivial (by simpa [Node.pieces] using elements (within_tail within))
  | object _ _ entries =>
    have entries := entries (within_tail within)
    refine .mk (fun entry listed => (entries entry listed).1) ?_
    simp only [Node.pieces, List.mem_flatMap]
    rintro child ⟨entry, listed, held⟩
    exact (entries entry listed).2 child held
  | negation _ _ operand =>
    exact .mk trivial (by simpa [Node.pieces] using operand (within_tail within))
  | lambdaOperand _ _ lambda => exact (lambda within).2
  | namedOperand _ _ named => exact (named within).2
  | literal operand => exact formed_literal operand
  | nameLast name | nameAlone name =>
    exact (fits_name name).mono fun head => Node.isNamed_of_isOwner (Node.isOwner_of_isHead head)
  | assigned name _ _ value =>
    have value := value (within_tail (within_tail within))
    exact ⟨rfl, .mk name (by simpa [Node.pieces] using value)⟩
  | combined name _ _ _ _ value =>
    have value := value (within_tail (within_tail (within_tail within)))
    exact ⟨rfl, .mk name (by simpa [Node.pieces] using value)⟩
  | updated name => exact ⟨rfl, formed_update name⟩
  | called name _ call => exact call (within_tail within) (fits_name name)
  | owner name _ _ members =>
    exact members (within_tail within) ((fits_name name).mono Node.isOwner_of_isHead)
  | indexedName name _ indexed => exact indexed (within_tail within) (fits_name name)
  | membersEnd => exact fun object => object.mono Node.isNamed_of_isOwner
  | member _ _ _ property =>
    intro object
    have property := property (within_tail within)
    refine ⟨rfl, .mk ⟨object.1, property.1⟩ ?_⟩
    simpa [Node.pieces] using And.intro object.2 property.2
  | call _ argumentsRead _ arguments members =>
    intro callee
    have inside := within_tail within
    refine members (argumentsRead.within inside) ⟨rfl, .mk callee.1 ?_⟩
    simpa [Node.pieces] using And.intro callee.2 (arguments inside)
  | indexed _ indexRead _ _ index accessed =>
    intro target
    have inside := within_tail within
    exact accessed (within_tail (indexRead.within inside)) target (index inside)
  | elementAssigned _ _ value =>
    intro target index
    refine ⟨rfl, .mk target.1 ?_⟩
    simpa [Node.pieces] using And.intro target.2 ⟨index, value (within_tail within)⟩
  | elementCalled _ call => exact fun target index => call within (fits_access target index)
  | elementIndexed _ indexed => exact fun target index => indexed within (fits_access target index)
  | element _ _ _ _ members =>
    intro target index
    exact members within ((fits_access target index).mono Node.isOwner_of_isHead)
  | keyedValue _ keyRead _ _ _ key value =>
    have inside := within_tail within
    have value := value (within_tail (within_tail (keyRead.within inside)))
    exact ⟨Entry.wellFormed_keyed .., by simpa [Entry.pieces] using And.intro (key inside) value⟩
  | keyed _ _ _ _ key =>
    exact ⟨Entry.wellFormed_keyed .., by simpa [Entry.pieces] using key (within_tail within)⟩
  | namedEntry name _ _ value =>
    have value := value (within_tail (within_tail within))
    refine ⟨Entry.wellFormed_named name _, ?_⟩
    simpa [Entry.pieces] using And.intro (fits_name name).2 value
  | item _ _ _ value =>
    exact ⟨Entry.wellFormed_item _, by simpa [Entry.pieces] using value within⟩
  | parameter name => exact name
  | listEmpty => simp
  | listItems _ _ items => exact items within
  | itemsEnd _ _ _ first => simpa using first within
  | itemsNext _ firstRead _ _ _ first others =>
    have later := within_tail (firstRead.within within)
    simpa using And.intro (first within) (others later)

/-- A symbol is one of the operators, or a mark. -/
theorem Lexeme.symbol_mem_operators {first : Char} {rest : List Char} {operator : Operator}
    (scanned : (symbol first rest).outcome = .ok (.operator operator)) : operator ∈ operators := by
  unfold symbol at scanned
  split at scanned
  · rename_i found
    cases scanned
    exact List.mem_append_left _ (List.mem_of_find?_eq_some found)
  · rename_i found
    cases scanned
    obtain ⟨second, _, found⟩ := Option.bind_eq_some_iff.mp found
    exact List.mem_append_right _ (List.mem_of_find?_eq_some found)
  · cases scanned
  · cases scanned

/-- No lexeme is another operator than these. -/
theorem Lexeme.scan_mem_operators {first : Char} {rest : List Char} {operator : Operator}
    (scanned : (scan first rest).outcome = .ok (.operator operator)) : operator ∈ operators := by
  revert scanned
  unfold scan
  split
  · intro scanned
    rcases word_kind scanned with ⟨_, ⟨⟩⟩ | ⟨_, ⟨⟩⟩ | ⟨_, ⟨⟩⟩
  split
  · intro scanned
    obtain ⟨value, same⟩ := number_kind scanned
    cases same
  split
  · intro scanned
    obtain ⟨value, same⟩ := string_kind scanned
    cases same
  split
  · rintro ⟨⟩
  split
  · unfold blockComment
    split <;> rintro ⟨⟩
  exact symbol_mem_operators

/-- The tokens of a source hold no other operators. -/
theorem tokenize_operators {source : String} {tokens : List Token}
    (scanned : tokenize source = .ok tokens) :
    ∀ token ∈ tokens, ∀ operator, token.kind = .operator operator →
      operator ∈ Lexeme.operators := by
  intro token listed operator kind
  obtain ⟨first, rest, lexeme⟩ :=
    (Lexer.scans_of_tokens scanned).lexemeAt (.ofSource source) token listed
  have found := lexeme.scanned
  rw [kind] at found
  exact Lexeme.scan_mem_operators found

/-- Every node of a program of formed statements is formed. -/
theorem Occurs.formed {tokens : List Token} {program : List Node} {node : Node}
    (occurs : Occurs program node) (statements : ∀ statement ∈ program, statement.Formed tokens) :
    node.Formed tokens := by
  induction occurs with
  | statement listed => exact statements _ listed
  | piece _ held ih => exact ih.child held

/-- Every tree has the shape that its readers rely on. For every source that is parsed, with any
number of levels of nesting, the statements of the program are statements and none is a case; and
the parts of every node, however deep it stands, are of the kinds that belong in their places. -/
theorem shape_of_parse {options : Options} {source : String} {program : List Node}
    (parsed : parse options source = .ok program) :
    ∃ tokens, tokenize source = .ok tokens ∧
      (∀ node ∈ program, node.isStatement = true ∧ node.clause? = none) ∧
      ∀ node, Occurs program node → node.WellFormed tokens := by
  unfold parse at parsed
  split at parsed
  · contradiction
  rename_i tokens scanned
  split at parsed
  · contradiction
  rename_i outcome
  cases parsed
  obtain ⟨reads, outside⟩ := reads_program outcome
  have formed : Part.Formed tokens .program program :=
    reads.formed (tokenize_operators scanned) (List.suffix_refl tokens)
  refine ⟨tokens, scanned, fun node listed => ?_, fun node occurs => ?_⟩
  · exact ⟨(formed node listed).1, List.findSome?_eq_none_iff.mp outside node listed⟩
  · exact (occurs.formed fun statement listed => (formed statement listed).2).here

/-- A switch with a default only, in which a name is called. -/
theorem shape_of_parse_default :
    let program : List Node :=
      [.switch (.leaf ⟨.identifier "a", ⟨7, 8, 1, 8⟩⟩)
        [⟨.default, .none, .call (.leaf ⟨.identifier "b", ⟨19, 20, 1, 20⟩⟩) [] ⟨19, 22, 1, 20⟩,
          ⟨10, 22, 1, 11⟩⟩]
        ⟨0, 23, 1, 1⟩]
    parse {} "switch a \x7bdefault: b()\x7d" = .ok program ∧
      ∃ tokens, tokenize "switch a \x7bdefault: b()\x7d" = .ok tokens ∧
        (∀ node ∈ program, node.isStatement = true ∧ node.clause? = none) ∧
        ∀ node, Occurs program node → node.WellFormed tokens := by
  intro program
  have scanned : tokenize "switch a \x7bdefault: b()\x7d" = .ok
      [⟨.keyword .switch, ⟨0, 6, 1, 1⟩⟩, ⟨.identifier "a", ⟨7, 8, 1, 8⟩⟩,
        ⟨.punctuation .openBrace, ⟨9, 10, 1, 10⟩⟩, ⟨.keyword .default, ⟨10, 17, 1, 11⟩⟩,
        ⟨.punctuation .colon, ⟨17, 18, 1, 18⟩⟩, ⟨.identifier "b", ⟨19, 20, 1, 20⟩⟩,
        ⟨.punctuation .openParen, ⟨20, 21, 1, 21⟩⟩, ⟨.punctuation .closeParen, ⟨21, 22, 1, 22⟩⟩,
        ⟨.punctuation .closeBrace, ⟨22, 23, 1, 23⟩⟩] := by rfl
  have parsed : parse {} "switch a \x7bdefault: b()\x7d" = .ok program := by
    rw [parse, scanned]
    rfl
  exact ⟨parsed, shape_of_parse parsed⟩

end Oreo
