import Oreo.Proofs.Parse.Reading

/-!
# Writing trees

`Node.print` writes a tree as tokens. Every value is written in parentheses, so no operator binds
across the edge of another value; a name and what it leads is written as it stands, every
statement of a block, a switch or a program ends with a semicolon, a test behind `else` is written
as `elseif`, and the step of a loop is always written out. The tokens have no place, and
`Node.unplaced` is the tree without places that they stand for.

`Shaped` says which trees can be written: those whose bodies are blocks and whose parts are such as
the grammar reads in their place. `Node.levels` counts the levels of nesting that are open at the
deepest point of what is written.
-/

namespace Oreo

/-- The token without its place. -/
def Token.unplaced (token : Token) : Token := { token with location := {} }

/-- A mark without a place. -/
def Token.ofMark (mark : Punctuation) : Token := ⟨.punctuation mark, {}⟩

/-- A keyword without a place. -/
def Token.ofKeyword (keyword : Keyword) : Token := ⟨.keyword keyword, {}⟩

/-- An operator without a place. -/
def Token.ofOperator (operator : Operator) : Token := ⟨.operator operator, {}⟩

/-- The binary operator that is written twice for an update. -/
def UpdateOperator.symbol : UpdateOperator → Operator
  | .increment => .add
  | .decrement => .subtract

/-- The binary operator that is written before the equals sign of an assignment, if one is. -/
def AssignmentOperator.symbol? : AssignmentOperator → Option Operator
  | .assign => none
  | .addAssign => some .add
  | .subtractAssign => some .subtract
  | .multiplyAssign => some .multiply
  | .divideAssign => some .divide

/-- Tokens in parentheses. -/
def enclosed (tokens : List Token) : List Token :=
  .ofMark .openParen :: tokens ++ [.ofMark .closeParen]

/-- Texts with a comma between each two. -/
def commas : List (List Token) → List Token
  | [] => []
  | [text] => text
  | text :: next :: others => text ++ .ofMark .comma :: commas (next :: others)

/-- Parameters in parentheses. -/
def printParameters (parameters : List Token) : List Token :=
  enclosed (commas (parameters.map fun name => [name.unplaced]))

/-- Whether the node is an `if`. -/
def Node.isConditional : Node → Bool
  | .conditional .. => true
  | _ => false

mutual

/-- The tree without places. -/
@[simp] def Node.unplaced : Node → Node
  | .block body _ => .block (Node.listUnplaced body) {}
  | .declaration name value _ => .declaration name.unplaced (Node.optionUnplaced value) {}
  | .conditional test consequent alternate _ =>
    .conditional test.unplaced consequent.unplaced (Node.optionUnplaced alternate) {}
  | .whileLoop test body _ => .whileLoop test.unplaced body.unplaced {}
  | .doWhileLoop test body _ => .doWhileLoop test.unplaced body.unplaced {}
  | .forLoop initial test update body _ =>
    .forLoop initial.unplaced test.unplaced update.unplaced body.unplaced {}
  | .switch subject clauses _ => .switch subject.unplaced (Clause.listUnplaced clauses) {}
  | .function name parameters body _ =>
    .function name.unplaced (parameters.map Token.unplaced) body.unplaced {}
  | .lambda parameters body _ => .lambda (parameters.map Token.unplaced) body.unplaced {}
  | .returns value _ => .returns (Node.optionUnplaced value) {}
  | .binary operator left right _ => .binary operator left.unplaced right.unplaced {}
  | .negation operand _ => .negation operand.unplaced {}
  | .update target operator _ => .update target.unplaced operator {}
  | .assignment target operator value _ => .assignment target.unplaced operator value.unplaced {}
  | .call callee arguments _ => .call callee.unplaced (Node.listUnplaced arguments) {}
  | .access target index _ => .access target.unplaced index.unplaced {}
  | .elementAssignment target index value _ =>
    .elementAssignment target.unplaced index.unplaced value.unplaced {}
  | .member object property separator _ => .member object.unplaced property.unplaced separator {}
  | .array elements _ => .array (Node.listUnplaced elements) {}
  | .object entries _ => .object (Entry.listUnplaced entries) {}
  | .unit _ => .unit {}
  | .clause branch => .clause branch.unplaced
  | .leaf token => .leaf token.unplaced

/-- Trees without places. -/
@[simp] def Node.listUnplaced : List Node → List Node
  | [] => []
  | node :: nodes => node.unplaced :: Node.listUnplaced nodes

/-- A part that may be missing, without places. -/
@[simp] def Node.optionUnplaced : Option Node → Option Node
  | none => none
  | some node => some node.unplaced

/-- The values of a case without places. -/
@[simp] def Pattern.unplaced : Pattern → Pattern
  | .none => .none
  | .single value => .single value.unplaced
  | .alternatives values => .alternatives (Node.listUnplaced values)

/-- A case without places. -/
@[simp] def Clause.unplaced : Clause → Clause
  | ⟨kind, pattern, body, _⟩ => ⟨kind, pattern.unplaced, body.unplaced, {}⟩

/-- Cases without places. -/
@[simp] def Clause.listUnplaced : List Clause → List Clause
  | [] => []
  | branch :: others => branch.unplaced :: Clause.listUnplaced others

/-- An entry of an object literal without places. -/
@[simp] def Entry.unplaced : Entry → Entry
  | ⟨key, isComputed, isArrayStyle, value⟩ =>
    ⟨key.unplaced, isComputed, isArrayStyle, Node.optionUnplaced value⟩

/-- Entries without places. -/
@[simp] def Entry.listUnplaced : List Entry → List Entry
  | [] => []
  | entry :: entries => entry.unplaced :: Entry.listUnplaced entries

end

/-- A tree without places has no place. -/
@[simp] theorem Node.location_unplaced (node : Node) : node.unplaced.location = {} := by
  cases node with
  | clause branch => cases branch with | mk kind pattern body location => rfl
  | _ => rfl

/-- What is written from a part without a place to a tree has no place. -/
theorem Node.through_unplaced {location : Location} (node : Node) (unplaced : location = {}) :
    location.through node.unplaced.location = {} := by
  rw [unplaced, node.location_unplaced]
  rfl

/-- Trees lose their places one by one. -/
theorem Node.listUnplaced_eq (nodes : List Node) :
    Node.listUnplaced nodes = nodes.map Node.unplaced := by
  induction nodes with
  | nil => rfl
  | cons node nodes ih => rw [Node.listUnplaced, ih, List.map_cons]

/-- The values of a case lose their places one by one. -/
theorem Pattern.unplaced_ofValues (first : Node) (others : List Node) :
    (ofValues first others).unplaced = ofValues first.unplaced (Node.listUnplaced others) := by
  cases others <;> rfl

/-- A computed key stays one without places. -/
theorem Entry.unplaced_keyed (key : Node) (value : Option Node) :
    (keyed key value).unplaced = keyed key.unplaced (Node.optionUnplaced value) := by
  cases value <;> rfl

/-- Entries lose their places one by one. -/
theorem Entry.listUnplaced_eq (entries : List Entry) :
    Entry.listUnplaced entries = entries.map Entry.unplaced := by
  induction entries with
  | nil => rfl
  | cons entry entries ih => rw [Entry.listUnplaced, ih, List.map_cons]

/-- Cases lose their places as statements do. -/
theorem Clause.listUnplaced_eq (clauses : List Clause) :
    (Clause.listUnplaced clauses).map Node.clause =
      Node.listUnplaced (clauses.map Node.clause) := by
  induction clauses with
  | nil => rfl
  | cons branch clauses ih =>
    rw [Clause.listUnplaced, List.map_cons, ih, List.map_cons, Node.listUnplaced, Node.unplaced]

mutual

/-- The tokens of a tree, without parentheses around it. -/
@[simp] def Node.print : Node → List Token
  | .block body _ => .ofMark .openBrace :: Node.printBody body ++ [.ofMark .closeBrace]
  | .declaration name value _ => .ofKeyword .let :: name.unplaced :: Node.printAssigned value
  | .conditional test consequent alternate _ =>
    .ofKeyword .if :: enclosed test.print ++ consequent.print ++ Node.printAlternate alternate
  | .whileLoop test body _ => .ofKeyword .while :: enclosed test.print ++ body.print
  | .doWhileLoop test body _ =>
    .ofKeyword .do :: body.print ++ .ofKeyword .while :: enclosed test.print
  | .forLoop initial test update body _ =>
    .ofKeyword .for :: initial.print ++ .ofMark .comma :: enclosed test.print ++
      .ofMark .comma :: update.print ++ body.print
  | .switch subject clauses _ =>
    .ofKeyword .switch :: enclosed subject.print ++ .ofMark .openBrace ::
      Clause.printBody clauses ++ [.ofMark .closeBrace]
  | .function name parameters body _ =>
    .ofKeyword .fn :: name.print ++ printParameters parameters ++ body.print
  | .lambda parameters body _ => .ofKeyword .fn :: printParameters parameters ++ body.print
  | .returns value _ => .ofKeyword .return :: Node.printValue value
  | .binary operator left right _ =>
    enclosed left.print ++ .ofOperator operator :: enclosed right.print
  | .negation operand _ => .ofMark .bang :: enclosed operand.print
  | .update target operator _ =>
    [target.unplaced, .ofOperator operator.symbol, .ofOperator operator.symbol]
  | .assignment target operator value _ =>
    target.unplaced :: (operator.symbol?.map Token.ofOperator).toList ++
      .ofMark .equals :: enclosed value.print
  | .call callee arguments _ => callee.print ++ enclosed (commas (Node.printEach arguments))
  | .access target index _ =>
    target.print ++ .ofMark .openBracket :: enclosed index.print ++ [.ofMark .closeBracket]
  | .elementAssignment target index value _ =>
    target.print ++ .ofMark .openBracket :: enclosed index.print ++ .ofMark .closeBracket ::
      .ofMark .equals :: enclosed value.print
  | .member object property separator _ =>
    object.print ++ .ofMark separator.mark :: property.print
  | .array elements _ =>
    .ofMark .openBracket :: commas (Node.printEach elements) ++ [.ofMark .closeBracket]
  | .object entries _ =>
    .ofMark .openBrace :: commas (Entry.printEach entries) ++ [.ofMark .closeBrace]
  | .unit _ => [.ofMark .openParen, .ofMark .closeParen]
  | .clause branch => branch.print
  | .leaf token => [token.unplaced]

/-- Statements, each with a semicolon behind it. -/
@[simp] def Node.printBody : List Node → List Token
  | [] => []
  | node :: nodes => node.print ++ .ofMark .semicolon :: Node.printBody nodes

/-- Values, each in parentheses. -/
@[simp] def Node.printEach : List Node → List (List Token)
  | [] => []
  | node :: nodes => enclosed node.print :: Node.printEach nodes

/-- Further values of a case, each behind a bar. -/
@[simp] def Node.printOthers : List Node → List Token
  | [] => []
  | node :: nodes => .ofMark .bar :: enclosed node.print ++ Node.printOthers nodes

/-- A value that may be missing. -/
@[simp] def Node.printValue : Option Node → List Token
  | none => []
  | some value => enclosed value.print

/-- A value behind an equals sign, both of which may be missing. -/
@[simp] def Node.printAssigned : Option Node → List Token
  | none => []
  | some value => .ofMark .equals :: enclosed value.print

/-- What is done if a test fails: another test is written with `elseif` in the place of `if`. -/
@[simp] def Node.printAlternate : Option Node → List Token
  | none => []
  | some alternate =>
    if alternate.isConditional then .ofKeyword .elseif :: alternate.print.tail
    else .ofKeyword .else :: alternate.print

/-- Values of a case, with a bar between each two. -/
@[simp] def Node.printBetweenBars : List Node → List Token
  | [] => []
  | node :: nodes => enclosed node.print ++ Node.printOthers nodes

/-- The values of a case. -/
@[simp] def Pattern.print : Pattern → List Token
  | .none => []
  | .single value => enclosed value.print
  | .alternatives values => Node.printBetweenBars values

/-- A case or the default. -/
@[simp] def Clause.print : Clause → List Token
  | ⟨kind, pattern, body, _⟩ => .ofKeyword kind.keyword :: pattern.print ++ body.print

/-- Cases, each with a semicolon behind it. -/
@[simp] def Clause.printBody : List Clause → List Token
  | [] => []
  | branch :: others => branch.print ++ .ofMark .semicolon :: Clause.printBody others

/-- An entry of an object literal. -/
@[simp] def Entry.print : Entry → List Token
  | ⟨key, true, _, value⟩ =>
    .ofMark .openBracket :: enclosed key.print ++ .ofMark .closeBracket ::
      Node.printAssigned value
  | ⟨key, false, _, some value⟩ => key.print ++ .ofMark .equals :: enclosed value.print
  | ⟨value, false, _, none⟩ => enclosed value.print

/-- Entries of an object literal, in order. -/
@[simp] def Entry.printEach : List Entry → List (List Token)
  | [] => []
  | entry :: entries => entry.print :: Entry.printEach entries

end

/-- Values are written one by one. -/
theorem Node.printEach_eq (nodes : List Node) :
    Node.printEach nodes = nodes.map fun node => enclosed node.print := by
  induction nodes with
  | nil => rfl
  | cons node nodes ih => rw [Node.printEach, ih, List.map_cons]

/-- Further values of a case are written behind the first. -/
theorem Pattern.print_ofValues (first : Node) (others : List Node) :
    (ofValues first others).print = enclosed first.print ++ Node.printOthers others := by
  cases others with
  | nil => simp [ofValues]
  | cons second others => simp [ofValues]

/-- Entries are written one by one. -/
theorem Entry.printEach_eq (entries : List Entry) :
    Entry.printEach entries = entries.map Entry.print := by
  induction entries with
  | nil => rfl
  | cons entry entries ih => rw [Entry.printEach, ih, List.map_cons]

/-- Cases are written as statements are. -/
theorem Clause.printBody_eq (clauses : List Clause) :
    Clause.printBody clauses = Node.printBody (clauses.map Node.clause) := by
  induction clauses with
  | nil => rfl
  | cons branch clauses ih =>
    rw [Clause.printBody, ih, List.map_cons, Node.printBody, Node.print]

/-- The number of indices of an element of an element. -/
def Node.indices : Node → Nat
  | .access target _ _ => target.indices + 1
  | _ => 0

/-- The levels that are still open behind a name with indices: each index but the first opens
one. -/
def Node.reach : Node → Nat
  | .access target _ _ => target.indices
  | .call callee _ _ => callee.reach
  | _ => 0

/-- The levels that are opened around a value: one for its parentheses, and one for a function. -/
def Node.opens : Node → Nat
  | .lambda .. => 2
  | _ => 1

mutual

/-- The levels that are open at the deepest point of a tree, without those that are opened around
it. -/
@[simp] def Node.levels : Node → Nat
  | .block body _ => Node.statementLevels body + 1
  | .declaration _ value _ => Node.optionLevels value
  | .conditional test consequent alternate _ =>
    max (test.opens + test.levels) (max consequent.levels (Node.alternateLevels alternate))
  | .whileLoop test body _ => max (test.opens + test.levels) body.levels
  | .doWhileLoop test body _ => max (test.opens + test.levels) body.levels
  | .forLoop initial test update body _ =>
    max (max (initial.levels + 1) (test.opens + test.levels)) (max (update.levels + 1) body.levels)
  | .switch subject clauses _ =>
    max (subject.opens + subject.levels) (Clause.listLevels clauses + 1)
  | .function name _ body _ => max name.titleLevels body.levels
  | .lambda _ body _ => body.levels
  | .returns value _ => Node.optionLevels value
  | .binary _ left right _ => max (left.opens + left.levels) (right.opens + right.levels)
  | .negation operand _ => operand.opens + operand.levels + 1
  | .update .. => 0
  | .assignment _ _ value _ => value.opens + value.levels + 1
  | .call callee arguments _ =>
    max callee.levels (callee.reach + (Node.valueLevels arguments + 1))
  | .access target index _ =>
    max target.levels (target.indices + (index.opens + index.levels + 1))
  | .elementAssignment target index value _ =>
    max target.levels (target.indices +
      (max (index.opens + index.levels) (value.opens + value.levels) + 1))
  | .member object property _ _ => max object.levels (object.reach + (property.levels + 1))
  | .array elements _ => Node.valueLevels elements + 1
  | .object entries _ => Entry.listLevels entries + 1
  | .unit _ => 1
  | .clause branch => branch.levels
  | .leaf _ => 0

/-- The levels of the name of a function, which is read with its parameters as a call. -/
@[simp] def Node.titleLevels : Node → Nat
  | .access target index _ =>
    max target.levels (target.indices + (index.opens + index.levels + 1))
  | .member object property _ _ => max object.levels (object.reach + (property.titleLevels + 1))
  | _ => 1

/-- The levels of statements, with the one that each of them opens. -/
@[simp] def Node.statementLevels : List Node → Nat
  | [] => 0
  | node :: nodes => max (node.levels + 1) (Node.statementLevels nodes)

/-- The levels of values, with those that are opened around each of them. -/
@[simp] def Node.valueLevels : List Node → Nat
  | [] => 0
  | node :: nodes => max (node.opens + node.levels) (Node.valueLevels nodes)

/-- The levels of a value that may be missing. -/
@[simp] def Node.optionLevels : Option Node → Nat
  | none => 0
  | some value => value.opens + value.levels

/-- The levels of what is done if a test fails; another test opens one. -/
@[simp] def Node.alternateLevels : Option Node → Nat
  | none => 0
  | some alternate => alternate.levels + (if alternate.isConditional then 1 else 0)

/-- The levels of the values of a case. -/
@[simp] def Pattern.levels : Pattern → Nat
  | .none => 0
  | .single value => value.opens + value.levels
  | .alternatives values => Node.valueLevels values

/-- The levels of a case. -/
@[simp] def Clause.levels : Clause → Nat
  | ⟨_, pattern, body, _⟩ => max pattern.levels body.levels

/-- The levels of cases, with the one that each of them opens. -/
@[simp] def Clause.listLevels : List Clause → Nat
  | [] => 0
  | branch :: others => max (branch.levels + 1) (Clause.listLevels others)

/-- The levels of an entry of an object literal; a computed key opens one. -/
@[simp] def Entry.levels : Entry → Nat
  | ⟨key, true, _, value⟩ => max (key.opens + key.levels + 1) (Node.optionLevels value)
  | ⟨_, false, _, some value⟩ => value.opens + value.levels
  | ⟨value, false, _, none⟩ => value.opens + value.levels

/-- The levels of entries of an object literal. -/
@[simp] def Entry.listLevels : List Entry → Nat
  | [] => 0
  | entry :: entries => max entry.levels (Entry.listLevels entries)

end

/-- The first value of a case and the others open their levels one by one. -/
theorem Pattern.levels_ofValues (first : Node) (others : List Node) :
    (ofValues first others).levels =
      max (first.opens + first.levels) (Node.valueLevels others) := by
  cases others with
  | nil => simp [ofValues]
  | cons second others => simp [ofValues]

/-- Cases open the levels that statements open. -/
theorem Clause.listLevels_eq (clauses : List Clause) :
    Clause.listLevels clauses = Node.statementLevels (clauses.map Node.clause) := by
  induction clauses with
  | nil => rfl
  | cons branch clauses ih =>
    rw [Clause.listLevels, ih, List.map_cons, Node.statementLevels, Node.levels]

/-- A value of a list opens no more levels than the list. -/
theorem Node.le_valueLevels {node : Node} {nodes : List Node} (member : node ∈ nodes) :
    node.opens + node.levels ≤ Node.valueLevels nodes := by
  induction nodes with
  | nil => cases member
  | cons first nodes ih =>
    rw [Node.valueLevels]
    rcases List.mem_cons.mp member with rfl | member
    · exact Nat.le_max_left ..
    · exact Nat.le_trans (ih member) (Nat.le_max_right ..)

/-- An entry of a list opens no more levels than the list. -/
theorem Entry.le_listLevels {entry : Entry} {entries : List Entry} (member : entry ∈ entries) :
    entry.levels ≤ Entry.listLevels entries := by
  induction entries with
  | nil => cases member
  | cons first entries ih =>
    rw [Entry.listLevels]
    rcases List.mem_cons.mp member with rfl | member
    · exact Nat.le_max_left ..
    · exact Nat.le_trans (ih member) (Nat.le_max_right ..)

/-- What is behind a name with indices is not deeper than the name. -/
theorem Node.reach_le_levels (node : Node) : node.reach ≤ node.levels := by
  cases node with
  | access target index location => rw [Node.reach, Node.levels]; omega
  | call callee arguments location => rw [Node.reach, Node.levels]; omega
  | _ => exact Nat.zero_le _

/-- The parentheses of a value open a level. -/
theorem Node.one_le_opens (node : Node) : 1 ≤ node.opens := by
  cases node with
  | lambda parameters body location => exact Nat.le_succ 1
  | _ => exact Nat.le_refl 1

/-- The places in a tree. -/
inductive Role where
  /-- A value. -/
  | value
  /-- A name and what it leads. -/
  | named
  /-- What has a member: a name, an element or a call. -/
  | owner
  /-- What is called or indexed: a name or an element. -/
  | head
  /-- The name of a function. -/
  | title
  /-- A statement. -/
  | statement
  /-- An `if`. -/
  | conditional
  /-- A case of a switch. -/
  | clause
  /-- A body. -/
  | body

/-- Whether the fields of an entry go together: it is that of an array exactly if it has no value,
and a key of a value that is not computed is a name. -/
def Entry.agrees (entry : Entry) : Bool :=
  entry.isArrayStyle == entry.value.isNone &&
    (entry.isComputed || entry.isArrayStyle || entry.key.isIdentifier)

/-- If its fields go together, an entry is a computed key, a name with its value, or a value. -/
theorem Entry.forms {entry : Entry} (agrees : entry.agrees = true) :
    (∃ key value, entry = .keyed key value) ∨
      (∃ name value, name.isIdentifier = true ∧ entry = .named name value) ∨
      ∃ value, entry = .item value := by
  obtain ⟨key, isComputed, isArrayStyle, value⟩ := entry
  obtain ⟨array, named⟩ := Bool.and_eq_true_iff.mp agrees
  obtain rfl : isArrayStyle = value.isNone := beq_iff_eq.mp array
  cases isComputed with
  | true => exact .inl ⟨key, value, rfl⟩
  | false =>
    cases value with
    | none => exact .inr (.inr ⟨key, rfl⟩)
    | some value =>
      obtain ⟨name, found⟩ := Option.isSome_iff_exists.mp named
      obtain ⟨leaf, nameKind⟩ := Option.filter_eq_some_iff.mp found
      cases key with
      | leaf token =>
        cases leaf
        exact .inr (.inl ⟨name, value, nameKind, rfl⟩)
      | _ => cases leaf

/-- Whether the node is the end of a function without a result. -/
def Node.isBareReturn : Node → Bool
  | .returns none _ => true
  | _ => false

/-- The tree can stand in the place: its parts are such as the grammar reads there, all its bodies
are blocks, and cases stand in switches only. -/
inductive Shaped : Role → Node → Prop
  /-- A name can be called or indexed. -/
  | name {token : Token} (nameKind : token.isIdentifier = true) : Shaped .head (.leaf token)
  /-- An element can be called or indexed. -/
  | access {node second : Node} {location : Location}
      (target : Shaped .head node) (index : Shaped .value second) :
      Shaped .head (.access node second location)
  /-- What can be called can have members. -/
  | ownerHead {node : Node} (head : Shaped .head node) : Shaped .owner node
  /-- A call can have members. -/
  | ownerCall {node : Node} {values : List Node} {location : Location} (callee : Shaped .head node)
      (arguments : ∀ argument ∈ values, Shaped .value argument) :
      Shaped .owner (.call node values location)
  /-- What can be called can be the name of a function. -/
  | titleHead {node : Node} (head : Shaped .head node) : Shaped .title node
  /-- A chain of members can be the name of a function. -/
  | titleMember {node second : Node} {separator : MemberSeparator} {location : Location}
      (object : Shaped .owner node) (property : Shaped .title second) :
      Shaped .title (.member node second separator location)
  /-- What can have members is a name and what it leads. -/
  | namedOwner {node : Node} (owner : Shaped .owner node) : Shaped .named node
  /-- A name that changes by one. -/
  | update {token : Token} {operator : UpdateOperator} {location : Location}
      (nameKind : token.isIdentifier = true) :
      Shaped .named (.update token operator location)
  /-- A name that gets a value. -/
  | assignment {token : Token} {node : Node} {operator : AssignmentOperator} {location : Location}
      (nameKind : token.isIdentifier = true) (value : Shaped .value node) :
      Shaped .named (.assignment token operator node location)
  /-- An element that gets a value. -/
  | elementAssignment {node second last : Node} {location : Location}
      (target : Shaped .head node) (index : Shaped .value second)
      (value : Shaped .value last) :
      Shaped .named (.elementAssignment node second last location)
  /-- A member, which may lead on. -/
  | member {node second : Node} {separator : MemberSeparator} {location : Location}
      (object : Shaped .owner node) (property : Shaped .named second) :
      Shaped .named (.member node second separator location)
  /-- A name and what it leads is a value. -/
  | valueNamed {node : Node} (named : Shaped .named node) : Shaped .value node
  /-- A token that stands for itself. -/
  | literal {token : Token} (operand : token.isOperand = true) : Shaped .value (.leaf token)
  /-- Two values with an operator between them. -/
  | binary {first second : Node} {operator : Operator} {location : Location}
      (left : Shaped .value first) (right : Shaped .value second) :
      Shaped .value (.binary operator first second location)
  /-- The negation of a value. -/
  | negation {node : Node} {location : Location}
      (operand : Shaped .value node) : Shaped .value (.negation node location)
  /-- A list of values. -/
  | array {values : List Node} {location : Location}
      (elements : ∀ element ∈ values, Shaped .value element) :
      Shaped .value (.array values location)
  /-- Entries whose fields go together and whose nodes are values. -/
  | object {entries : List Entry} {location : Location}
      (forms : ∀ entry ∈ entries, entry.agrees = true)
      (parts : ∀ entry ∈ entries, ∀ part ∈ entry.nodes, Shaped .value part) :
      Shaped .value (.object entries location)
  /-- An empty pair of parentheses. -/
  | unit {location : Location} : Shaped .value (.unit location)
  /-- A function without a name is a value. -/
  | valueLambda {parameters : List Token} {node : Node} {location : Location}
      (names : ∀ parameter ∈ parameters, parameter.isIdentifier = true)
      (body : Shaped .body node) : Shaped .value (.lambda parameters node location)
  /-- A name and what it leads is a statement. -/
  | statementNamed {node : Node} (named : Shaped .named node) : Shaped .statement node
  /-- A comment is a statement. -/
  | comment {token : Token} (comment : token.isComment = true) : Shaped .statement (.leaf token)
  /-- A new variable. -/
  | declaration {token : Token} {initial : Option Node} {location : Location}
      (nameKind : token.isIdentifier = true)
      (value : ∀ node, initial = some node → Shaped .value node) :
      Shaped .statement (.declaration token initial location)
  /-- An `if` is a statement. -/
  | statementConditional {node : Node}
      (conditional : Shaped .conditional node) : Shaped .statement node
  /-- A loop that tests before each round. -/
  | whileLoop {node last : Node} {location : Location}
      (test : Shaped .value node) (body : Shaped .body last) :
      Shaped .statement (.whileLoop node last location)
  /-- A loop that tests after each round. -/
  | doWhileLoop {node last : Node} {location : Location}
      (test : Shaped .value node) (body : Shaped .body last) :
      Shaped .statement (.doWhileLoop node last location)
  /-- A loop whose start and step are no `return` without a result. -/
  | forLoop {first node second last : Node} {location : Location}
      (initial : Shaped .statement first) (test : Shaped .value node)
      (update : Shaped .statement second) (body : Shaped .body last)
      (initialGiven : first.isBareReturn = false) (updateGiven : second.isBareReturn = false) :
      Shaped .statement (.forLoop first node second last location)
  /-- A choice among cases. -/
  | switch {node : Node} {branches : List Clause} {location : Location}
      (subject : Shaped .value node)
      (clauses : ∀ branch ∈ branches, Shaped .clause (.clause branch)) :
      Shaped .statement (.switch node branches location)
  /-- A function with a name. -/
  | function {node last : Node} {parameters : List Token} {location : Location}
      (title : Shaped .title node)
      (names : ∀ parameter ∈ parameters, parameter.isIdentifier = true)
      (body : Shaped .body last) :
      Shaped .statement (.function node parameters last location)
  /-- A function without a name is a statement. -/
  | statementLambda {parameters : List Token} {node : Node} {location : Location}
      (names : ∀ parameter ∈ parameters, parameter.isIdentifier = true)
      (body : Shaped .body node) : Shaped .statement (.lambda parameters node location)
  /-- The end of a function. -/
  | returns {result : Option Node} {location : Location}
      (value : ∀ node, result = some node → Shaped .value node) :
      Shaped .statement (.returns result location)
  /-- A test, and nothing is done if it fails. -/
  | conditionalOnly {node last : Node} {location : Location}
      (test : Shaped .value node) (consequent : Shaped .body last) :
      Shaped .conditional (.conditional node last none location)
  /-- A test, and a block if it fails. -/
  | conditionalElse {node last other : Node} {location : Location}
      (test : Shaped .value node) (consequent : Shaped .body last)
      (alternate : Shaped .body other) :
      Shaped .conditional (.conditional node last (some other) location)
  /-- A test, and another one if it fails. -/
  | conditionalElseif {node last other : Node} {location : Location}
      (test : Shaped .value node) (consequent : Shaped .body last)
      (alternate : Shaped .conditional other) :
      Shaped .conditional (.conditional node last (some other) location)
  /-- A case with values. -/
  | caseClause {node last : Node} {values : List Node} {location : Location}
      (value : Shaped .value node) (others : ∀ other ∈ values, Shaped .value other)
      (body : Shaped .body last) : Shaped .clause (.clause (.ofValues node values last location))
  /-- The default. -/
  | defaultClause {last : Node} {location : Location} (body : Shaped .body last) :
      Shaped .clause (.clause (.fallback last location))
  /-- Statements in braces. -/
  | body {nodes : List Node} {location : Location}
      (statements : ∀ statement ∈ nodes, Shaped .statement statement) :
      Shaped .body (.block nodes location)

/-- A tree begins with a name. -/
def Node.StartsWithName (node : Node) : Prop :=
  ∃ name tokens, node.print = name :: tokens ∧ name.isIdentifier = true

/-- What begins with a name goes on to begin with it. -/
theorem Node.StartsWithName.append {node : Node} (named : node.StartsWithName)
    (tokens : List Token) :
    ∃ name others, node.print ++ tokens = name :: others ∧ name.isIdentifier = true := by
  obtain ⟨name, others, same, nameKind⟩ := named
  exact ⟨name, others ++ tokens, by rw [same, List.cons_append], nameKind⟩

/-- Where a name is due, a tree begins with a name. -/
theorem Shaped.startsWithName {role : Role} {node : Node} (shaped : Shaped role node)
    (due : role = .head ∨ role = .owner ∨ role = .named ∨ role = .title) :
    node.StartsWithName := by
  induction shaped with
  | name nameKind | update nameKind => exact ⟨_, _, rfl, nameKind⟩
  | assignment nameKind => exact ⟨_, _, rfl, nameKind⟩
  | access _ _ target | elementAssignment _ _ _ target =>
    obtain ⟨name, others, same, nameKind⟩ := target (.inl rfl)
    exact ⟨name, _, by rw [Node.print, same]; rfl, nameKind⟩
  | ownerHead _ head | titleHead _ head => exact head (.inl rfl)
  | ownerCall _ _ callee =>
    obtain ⟨name, others, same, nameKind⟩ := callee (.inl rfl)
    exact ⟨name, _, by rw [Node.print, same]; rfl, nameKind⟩
  | titleMember _ _ object | member _ _ object =>
    obtain ⟨name, others, same, nameKind⟩ := object (.inr (.inl rfl))
    exact ⟨name, _, by rw [Node.print, same]; rfl, nameKind⟩
  | namedOwner _ owner => exact owner (.inr (.inl rfl))
  | _ => simp at due

/-- Whether a statement can begin with the token: it is no mark, no operator and no `else`. -/
def Token.opensStatement (token : Token) : Bool :=
  match token.kind with
  | .keyword .else | .keyword .elseif => false
  | .keyword _ | .identifier _ | .lineComment _ | .blockComment _ => true
  | _ => false

/-- Where a statement is due, a tree begins like one. -/
theorem Shaped.opens {role : Role} {node : Node} (shaped : Shaped role node)
    (due : role = .statement ∨ role = .conditional ∨ role = .clause) :
    ∃ token others, node.print = token :: others ∧ token.opensStatement = true := by
  rcases due with rfl | rfl | rfl
  · cases shaped with
    | statementNamed named =>
      obtain ⟨name, others, same, nameKind⟩ := named.startsWithName (by simp)
      obtain ⟨text, kind⟩ := Token.isIdentifier_iff.mp nameKind
      exact ⟨name, others, same, by simp [Token.opensStatement, kind]⟩
    | comment comment =>
      refine ⟨_, _, rfl, ?_⟩
      unfold Token.isComment at comment
      split at comment
      · rename_i kind
        simp [Token.opensStatement, Token.unplaced, kind]
      · rename_i kind
        simp [Token.opensStatement, Token.unplaced, kind]
      · contradiction
    | statementConditional conditional => cases conditional <;> exact ⟨_, _, rfl, rfl⟩
    | _ => exact ⟨_, _, rfl, rfl⟩
  · cases shaped <;> exact ⟨_, _, rfl, rfl⟩
  · cases shaped <;> exact ⟨_, _, rfl, rfl⟩

/-- No statement is a case, with or without places. -/
theorem Shaped.clause?_unplaced {node : Node} (shaped : Shaped .statement node) :
    node.unplaced.clause? = none := by
  cases node with
  | clause branch =>
    cases shaped with
    | statementNamed named =>
      cases named with
      | namedOwner owner =>
        cases owner with
        | ownerHead head => cases head
    | statementConditional conditional => cases conditional
  | _ => rfl

/-- The call that the name of a function and its parameters are read as. -/
def Node.calledWith (arguments : List Node) : Node → Node
  | .member owner property separator _ =>
    .member owner (property.calledWith arguments) separator {}
  | callee => .call callee arguments {}

/-- A name that is called has no place, like all that is written. -/
theorem Node.location_calledWith (arguments : List Node) (node : Node) :
    (node.calledWith arguments).location = {} := by
  cases node <;> rfl

/-- The name of a function without a member is called as it is. -/
theorem Shaped.calledWith_head {node : Node} (shaped : Shaped .head node)
    (arguments : List Node) :
    node.unplaced.calledWith arguments = .call node.unplaced arguments {} := by
  cases shaped <;> rfl

/-- What the name of a function is read as splits into the name and the parameters. -/
theorem Shaped.signature?_calledWith {node : Node} (shaped : Shaped .title node)
    (arguments : List Node) :
    (node.unplaced.calledWith arguments).signature? = some (node.unplaced, arguments) := by
  generalize place : Role.title = role at shaped
  induction shaped with
  | titleHead head =>
    rw [head.calledWith_head]
    rfl
  | titleMember _ _ _ property =>
    simp only [Node.unplaced, Node.calledWith, Node.signature?, property rfl]
    rw [Node.location_unplaced, Node.location_unplaced]
    rfl
  | _ => cases place

end Oreo
