import Oreo.Proofs.Parse.Completeness
import Oreo.Proofs.Parse.Spans

/-!
# Where cases stand

A case is read wherever a statement is read, and only afterwards is its place looked at: a switch
takes nothing but cases, and a program takes none. Nothing is asked of the cases between the two,
so one may stand in the block of a loop that is in no switch.

What is left to be said is that a case never gets into the place of a value. `Node.statements` and
`Node.nonStatements` divide the nodes that a node is made of, and a case is only found among the
former. By induction on readings: what is read as a value, a name or an alternative is no case.
-/

namespace Oreo

namespace Node

/-- The nodes that stand in the place of a statement: the entries of a block or of a switch, the
body of a loop, a function, a choice or a case, and the start and the step of a `for` loop. -/
def statements : Node → List Node
  | .block body _ => body
  | .conditional _ consequent _ _ => [consequent]
  | .whileLoop _ body _ | .doWhileLoop _ body _ => [body]
  | .forLoop initial _ step body _ => [initial, step, body]
  | .switch _ clauses _ => clauses.map .clause
  | .function _ _ body _ | .lambda _ body _ => [body]
  | .clause branch => [branch.body]
  | _ => []

/-- The nodes that do not stand in the place of a statement: values, names of functions, and what
follows `else`. -/
def nonStatements : Node → List Node
  | .declaration _ value _ | .returns value _ => value.toList
  | .conditional test _ alternate _ => test :: alternate.toList
  | .whileLoop test _ _ | .doWhileLoop test _ _ | .forLoop _ test _ _ _ => [test]
  | .switch subject _ _ => [subject]
  | .function name _ _ _ => [name]
  | .binary _ left right _ => [left, right]
  | .negation operand _ => [operand]
  | .assignment _ _ value _ => [value]
  | .call callee arguments _ => callee :: arguments
  | .access target index _ => [target, index]
  | .elementAssignment target index value _ => [target, index, value]
  | .member owner property _ _ => [owner, property]
  | .array elements _ => elements
  | .object entries _ => entries.flatMap Entry.nodes
  | .clause branch => branch.values
  | .block .. | .lambda .. | .update .. | .unit _ | .leaf _ => []

/-- The two kinds of places are all that a node has. -/
theorem mem_pieces_iff {node child : Node} :
    .node child ∈ node.pieces ↔ child ∈ node.nonStatements ∨ child ∈ node.statements := by
  cases node with
  | object entries location => simp [pieces, nonStatements, statements, Entry.pieces]
  | doWhileLoop test body location => simp [pieces, nonStatements, statements, or_comm]
  | conditional test consequent alternate location =>
    simp only [pieces, nonStatements, statements, List.mem_cons, List.mem_map, Piece.node.injEq,
      exists_eq_right, List.not_mem_nil, or_false]
    rw [or_assoc, or_comm (b := child = consequent)]
  | forLoop initial test step body location =>
    simp only [pieces, nonStatements, statements, List.mem_cons, Piece.node.injEq,
      List.not_mem_nil, or_false]
    exact or_left_comm
  | _ => simp [pieces, nonStatements, statements]

end Node

/-- In the node and in all nodes in it, cases stand in the place of a statement only. -/
inductive Node.Settled : Node → Prop where
  /-- The node holds no clause but among its statements, and its children are settled. -/
  | mk {node : Node} (apart : ∀ child ∈ node.nonStatements, child.clause? = none)
      (below : ∀ child, .node child ∈ node.pieces → child.Settled) : node.Settled

/-- The node is settled, and no case itself. -/
structure Node.Plain (node : Node) : Prop where
  /-- The node is no case. -/
  noCase : node.clause? = none
  /-- The nodes in it are settled. -/
  settled : node.Settled

/-- What a part is read as is settled, and only a statement or a body may be a case. A part that
goes on behind a node is told that the node is none. -/
@[simp] def Part.Settled : (part : Part) → part.Result → Prop
  | .program, nodes => ∀ node ∈ nodes, node.Settled
  | .block, (nodes, _) | .statements, (nodes, _) => ∀ node ∈ nodes, node.Settled
  | .alternatives, nodes => ∀ node ∈ nodes, node.Plain
  | .statement, node | .clauseBody, node | .body, node => node.Settled
  | .conditional, node | .lambda, node | .expression, node | .operand, node | .named _, node =>
    node.Plain
  | .climb left _, node => left.Plain → node.Plain
  | .members object, node => object.Plain → node.Plain
  | .call callee, node => callee.Plain → node.Plain
  | .indexed target, node => target.Plain → node.Plain
  | .accessed target index _, node => target.Plain → index.Plain → node.Plain
  | .entry, written => ∀ child ∈ written.nodes, child.Plain
  | .parameter, _ => True
  | .list _ item, (values, _) | .items _ item, (values, _) =>
    ∀ value ∈ values, item.Settled value

section

variable {node : Node}

/-- No child of a settled node in the place of a value, a name or an alternate is a clause. -/
theorem Node.Settled.apart (settled : node.Settled) :
    ∀ child ∈ node.nonStatements, child.clause? = none := by
  cases settled with
  | mk apart _ => exact apart

/-- The children of a settled node are settled. -/
theorem Node.Settled.child {child : Node} (settled : node.Settled)
    (held : .node child ∈ node.pieces) : child.Settled := by
  cases settled with
  | mk _ below => exact below child held

/-- A node is settled if its parts are, and those outside the places of statements are no cases. -/
theorem settled_of_parts (others : ∀ child ∈ node.nonStatements, child.Plain)
    (statements : ∀ child ∈ node.statements, child.Settled) : node.Settled := by
  refine .mk (fun child held => (others child held).noCase) fun child held => ?_
  rcases Node.mem_pieces_iff.mp held with among | among
  · exact (others child among).settled
  · exact statements child among

/-- A value is plain if its parts are. -/
theorem plain_of_parts (noCase : node.clause? = none) (noStatements : node.statements = [])
    (others : ∀ child ∈ node.nonStatements, child.Plain) : node.Plain :=
  ⟨noCase, settled_of_parts others (by simp [noStatements])⟩

/-- A leaf is plain. -/
theorem plain_leaf (token : Token) : (Node.leaf token).Plain :=
  plain_of_parts rfl rfl (by simp [Node.nonStatements])

/-- An update is plain. -/
theorem plain_update (target : Token) (operator : UpdateOperator) (location : Location) :
    (Node.update target operator location).Plain :=
  plain_of_parts rfl rfl (by simp [Node.nonStatements])

/-- An access to an element is plain if its parts are. -/
theorem plain_access {target index : Node} (targetPlain : target.Plain) (indexPlain : index.Plain)
    (location : Location) : (Node.access target index location).Plain :=
  plain_of_parts rfl rfl (by simpa [Node.nonStatements] using And.intro targetPlain indexPlain)

/-- An assignment to a name is plain if its value is. -/
theorem plain_assignment {value : Node} (valuePlain : value.Plain) (target : Token)
    (operator : AssignmentOperator) (location : Location) :
    (Node.assignment target operator value location).Plain :=
  plain_of_parts rfl rfl (by simpa [Node.nonStatements] using valuePlain)

/-- A block of settled statements is plain. -/
theorem plain_block {body : List Node} {location : Location}
    (statements : Part.Settled .block (body, location)) : (Node.block body location).Plain :=
  ⟨rfl, settled_of_parts (by simp [Node.nonStatements]) statements⟩

/-- What is left of a call, or of a chain of members that ends in one, is no case. -/
theorem plain_title {title : Node} {arguments : List Node}
    (split : node.signature? = some (title, arguments)) (plain : node.Plain) : title.Plain := by
  fun_induction Node.signature? node generalizing title arguments with
  | case1 callee given location =>
    cases split
    exact ⟨plain.settled.apart _ (by simp [Node.nonStatements]),
      plain.settled.child (by simp [Node.pieces])⟩
  | case2 owner property separator location name given inner ih =>
    cases split
    have ownerPlain : owner.Plain := ⟨plain.settled.apart _ (by simp [Node.nonStatements]),
      plain.settled.child (by simp [Node.pieces])⟩
    have propertyPlain : property.Plain := ⟨plain.settled.apart _ (by simp [Node.nonStatements]),
      plain.settled.child (by simp [Node.pieces])⟩
    have namePlain := ih inner propertyPlain
    exact plain_of_parts rfl rfl (by simpa [Node.nonStatements] using ⟨ownerPlain, namePlain⟩)
  | case3 => cases split
  | case4 => cases split

end

/-- What is read is settled. -/
theorem Reads.settled {part : Part} {room : Nat} {tokens rest : List Token} {value : part.Result}
    (reads : Reads part room tokens value rest) : part.Settled value := by
  induction reads with
  | programEnd => simp
  | programNext _ _ first others => simpa using And.intro first others
  | declared => exact settled_of_parts (by simp [Node.nonStatements]) (by simp [Node.statements])
  | initialized _ _ _ _ value =>
    exact settled_of_parts (by simpa [Node.nonStatements] using value) (by simp [Node.statements])
  | conditionalStatement _ _ conditional => exact conditional.settled
  | whileLoop _ _ _ test body =>
    exact settled_of_parts (by simpa [Node.nonStatements] using test)
      (by simpa [Node.statements] using body)
  | doWhileLoop _ _ _ _ _ body test =>
    exact settled_of_parts (by simpa [Node.nonStatements] using test)
      (by simpa [Node.statements] using body)
  | forLoop _ _ _ _ _ _ _ initial test update body =>
    exact settled_of_parts (by simpa [Node.nonStatements] using test)
      (by simpa [Node.statements] using And.intro initial ⟨update, body⟩)
  | forLoopByOne _ _ _ _ _ _ _ initial test body =>
    have step (name : Token) : (Node.update name .increment name.location).Settled :=
      (plain_update ..).settled
    exact settled_of_parts (by simpa [Node.nonStatements] using test)
      (by simpa [Node.statements, step] using And.intro initial body)
  | switch _ _ _ subject clauses =>
    exact settled_of_parts (by simpa [Node.nonStatements] using subject) clauses
  | caseClause _ _ _ _ value others body =>
    exact settled_of_parts (by simpa [Node.nonStatements] using And.intro value others)
      (by simpa [Node.statements] using body)
  | defaultClause _ _ body =>
    exact settled_of_parts (by simp [Node.nonStatements]) (by simpa [Node.statements] using body)
  | lambdaStatement _ _ lambda => exact lambda.settled
  | function _ _ _ split _ _ signature body =>
    have title := plain_title split signature
    exact settled_of_parts (by simpa [Node.nonStatements] using title)
      (by simpa [Node.statements] using body)
  | returnsNothing =>
    exact settled_of_parts (by simp [Node.nonStatements]) (by simp [Node.statements])
  | returnsValue _ _ _ _ _ value =>
    exact settled_of_parts (by simpa [Node.nonStatements] using value) (by simp [Node.statements])
  | namedStatement _ _ named => exact named.settled
  | comment => exact (plain_leaf _).settled
  | conditionalOnly _ _ _ _ _ test consequent =>
    exact ⟨rfl, settled_of_parts (by simpa [Node.nonStatements] using test)
      (by simpa [Node.statements] using consequent)⟩
  | conditionalElse _ _ _ _ _ _ test consequent block =>
    have alternate := plain_block block
    exact ⟨rfl, settled_of_parts (by simpa [Node.nonStatements] using And.intro test alternate)
      (by simpa [Node.statements] using consequent)⟩
  | conditionalElseif _ _ _ _ _ _ test consequent alternate =>
    exact ⟨rfl, settled_of_parts (by simpa [Node.nonStatements] using And.intro test alternate)
      (by simpa [Node.statements] using consequent)⟩
  | alternativesEnd => simp
  | alternativesNext _ _ _ value others => simpa using And.intro value others
  | clauseBlock _ block | bodyBlock _ block => exact (plain_block block).settled
  | clauseStatement _ _ statement | bodyStatement _ _ statement => exact statement
  | block _ _ body => exact body
  | statementsEnd => simp
  | statementsNext _ _ _ first others => simpa using And.intro first others
  | lambda _ _ _ _ _ body =>
    exact ⟨rfl, settled_of_parts (by simp [Node.nonStatements])
      (by simpa [Node.statements] using body)⟩
  | expressionOperand _ _ operand => exact operand
  | expressionBinary _ _ _ operand climb => exact climb operand
  | climbEnd => exact fun left => left
  | climbNext _ _ _ _ _ operand right climb =>
    intro left
    have both := And.intro left (right operand)
    exact climb (plain_of_parts rfl rfl (by simpa [Node.nonStatements] using both))
  | unit => exact plain_of_parts rfl rfl (by simp [Node.nonStatements])
  | parenthesized _ _ _ _ value => exact value
  | array _ _ elements => exact plain_of_parts rfl rfl elements
  | object _ _ entries =>
    refine plain_of_parts rfl rfl ?_
    intro child held
    obtain ⟨entry, listed, among⟩ := List.mem_flatMap.mp held
    exact entries entry listed child among
  | negation _ _ operand =>
    exact plain_of_parts rfl rfl (by simpa [Node.nonStatements] using operand)
  | lambdaOperand _ _ lambda => exact lambda
  | namedOperand _ _ named => exact named
  | literal | nameLast | nameAlone => exact plain_leaf _
  | assigned _ _ _ value => exact plain_assignment value _ _ _
  | combined _ _ _ _ _ value => exact plain_assignment value _ _ _
  | updated => exact plain_update _ _ _
  | called _ _ call => exact call (plain_leaf _)
  | owner _ _ _ members => exact members (plain_leaf _)
  | indexedName _ _ indexed => exact indexed (plain_leaf _)
  | membersEnd => exact fun object => object
  | member _ _ _ property =>
    intro object
    exact plain_of_parts rfl rfl (by simpa [Node.nonStatements] using And.intro object property)
  | call _ _ _ arguments members =>
    intro callee
    exact members (plain_of_parts rfl rfl (List.forall_mem_cons.mpr ⟨callee, arguments⟩))
  | indexed _ _ _ _ index accessed => exact fun target => accessed target index
  | elementAssigned _ _ value =>
    intro target index
    have all := And.intro target (And.intro index value)
    exact plain_of_parts rfl rfl (by simpa [Node.nonStatements] using all)
  | elementCalled _ call => exact fun target index => call (plain_access target index _)
  | elementIndexed _ indexed => exact fun target index => indexed (plain_access target index _)
  | element _ _ _ _ members => exact fun target index => members (plain_access target index _)
  | keyedValue _ _ _ _ _ key value => simpa using And.intro key value
  | keyed _ _ _ _ key => simpa using key
  | namedEntry _ _ _ value => simpa using And.intro (plain_leaf _) value
  | item _ _ _ value => simpa using value
  | parameter => trivial
  | listEmpty => simp
  | listItems _ _ items => exact items
  | itemsEnd _ _ _ first => simpa using first
  | itemsNext _ _ _ _ _ first others => simpa using And.intro first others

/-- Every node of a program of settled statements is settled. -/
theorem Occurs.settled {program : List Node} {node : Node} (occurs : Occurs program node)
    (statements : ∀ statement ∈ program, statement.Settled) : node.Settled := by
  induction occurs with
  | statement listed => exact statements _ listed
  | piece _ held ih => exact ih.child held

/-- A case among the statements of a program is a fault, and the first one is reported. -/
theorem parseTokens_of_case {options : Options} {tokens : List Token} {statements : List Node}
    {branch : Clause} (reads : Reads .program options.maxDepth tokens statements [])
    (first : statements.findSome? Node.clause? = some branch) :
    (parseTokens options tokens).outcome =
      .error ⟨.caseOutsideSwitch branch.summary, branch.location⟩ := by
  have read : (Grammar.full.statements tokens.length).Yields (Scope.ofTokens options tokens) tokens
      statements [] :=
    (Grammar.covers_full _).statements (Nat.le_refl _) (Nat.le_refl _) reads
  rcases answer : Grammar.full.statements tokens.length (Scope.ofTokens options tokens) tokens with
    ⟨outcome, rest, events⟩
  rw [Parser.Yields, answer] at read
  obtain ⟨rfl, rfl⟩ := read
  have passed : Parser.left (Scope.ofTokens options tokens) tokens =
      ⟨.ok tokens.length, tokens, []⟩ := rfl
  rw [parseTokens, Parser.program, Grammar.program, Parser.bind_of_ok passed,
    Parser.bind_of_ok answer, first]
  rfl

/-- A program has no case among its statements, and a case in a tree stands in the place of a
statement. For every source: if it is parsed, with any number of levels of nesting, none of the
statements of the program is a case; no node, however deep, has a case in the place of a value, of
the name of a function or of what follows `else`; and every case that is a piece of a node is an
entry of a switch or of a block, the body of a loop, a function, a choice or another case, or the
start or the step of a `for` loop. If all statements of a source can be read and a case is among
them, the first such case is reported as an error. -/
theorem cases_of_parse (options : Options) (source : String) :
    (∀ program, parse options source = .ok program →
      (∀ node ∈ program, node.clause? = none) ∧
      ∀ parent, Occurs program parent →
        (∀ child ∈ parent.nonStatements, child.clause? = none) ∧
        ∀ branch, .node (.clause branch) ∈ parent.pieces → .clause branch ∈ parent.statements) ∧
    ∀ tokens statements branch, tokenize source = .ok tokens →
      Reads .program options.maxDepth tokens statements [] →
      statements.findSome? Node.clause? = some branch →
      parse options source =
        .error ⟨.parse (.caseOutsideSwitch branch.summary), branch.location⟩ := by
  refine ⟨fun program parsed => ?_, fun tokens statements branch scanned reads first => ?_⟩
  · obtain ⟨tokens, scanned, reads, outside⟩ := reads_of_parse parsed
    refine ⟨List.findSome?_eq_none_iff.mp outside, fun parent occurs => ?_⟩
    have settled : parent.Settled := occurs.settled reads.settled
    refine ⟨settled.apart, fun branch held => ?_⟩
    rcases Node.mem_pieces_iff.mp held with among | among
    · exact absurd (settled.apart _ among) (by simp [Node.clause?])
    · exact among
  · simp only [parse, scanned, parseTokens_of_case reads first]

/-- In a switch a default may be the body of another; outside of all switches a default is
reported. -/
theorem cases_of_parse_default :
    let program : List Node :=
      [.switch (.leaf ⟨.identifier "a", ⟨7, 8, 1, 8⟩⟩)
        [.fallback (.clause (.fallback (.returns none ⟨28, 34, 1, 29⟩) ⟨19, 34, 1, 20⟩))
          ⟨10, 34, 1, 11⟩]
        ⟨0, 35, 1, 1⟩]
    parse {} "switch a \x7bdefault: default: return\x7d" = .ok program ∧
      ((∀ node ∈ program, node.clause? = none) ∧
        ∀ parent, Occurs program parent →
          (∀ child ∈ parent.nonStatements, child.clause? = none) ∧
          ∀ branch, .node (.clause branch) ∈ parent.pieces → .clause branch ∈ parent.statements) ∧
      parse {} "default: return" =
        .error ⟨.parse (.caseOutsideSwitch "default"), ⟨0, 15, 1, 1⟩⟩ := by
  intro program
  let tokens : List Token :=
    [⟨.keyword .switch, ⟨0, 6, 1, 1⟩⟩, ⟨.identifier "a", ⟨7, 8, 1, 8⟩⟩,
      ⟨.punctuation .openBrace, ⟨9, 10, 1, 10⟩⟩, ⟨.keyword .default, ⟨10, 17, 1, 11⟩⟩,
      ⟨.punctuation .colon, ⟨17, 18, 1, 18⟩⟩, ⟨.keyword .default, ⟨19, 26, 1, 20⟩⟩,
      ⟨.punctuation .colon, ⟨26, 27, 1, 27⟩⟩, ⟨.keyword .return, ⟨28, 34, 1, 29⟩⟩,
      ⟨.punctuation .closeBrace, ⟨34, 35, 1, 35⟩⟩]
  have scanned : tokenize "switch a \x7bdefault: default: return\x7d" = .ok tokens := by rfl
  have name : Reads .expression 255 tokens.tail (.leaf ⟨.identifier "a", ⟨7, 8, 1, 8⟩⟩)
      tokens.tail.tail :=
    .expressionOperand (.namedOperand rfl (.nameAlone rfl (List.cons_ne_nil _ _) rfl)) rfl
  let within : Clause := .fallback (.returns none ⟨28, 34, 1, 29⟩) ⟨19, 34, 1, 20⟩
  let around : Clause := .fallback (.clause within) ⟨10, 34, 1, 11⟩
  have inner : Reads .statement 253 (tokens.drop 5) (.clause within) (tokens.drop 8) :=
    .defaultClause rfl (.clauseStatement rfl (.returnsNothing rfl (.inr (.inr rfl))))
  have outer : Reads .statement 254 (tokens.drop 3) (.clause around) (tokens.drop 8) :=
    .defaultClause rfl (.clauseStatement rfl inner)
  have entries : Reads .block 255 (tokens.drop 2) ([around].map .clause, ⟨9, 35, 1, 10⟩) [] :=
    .block rfl (.statementsNext rfl outer (.statementsEnd rfl))
  have reads : Reads .program 256 tokens program [] :=
    .programNext (.switch rfl name entries) .programEnd
  have parsed : parse {} "switch a \x7bdefault: default: return\x7d" = .ok program := by
    have outcome : (parseTokens {} tokens).outcome = .ok program :=
      parseTokens_eq_ok_iff.mpr ⟨reads, rfl⟩
    simp only [parse, scanned, outcome]
  have stray : tokenize "default: return" = .ok
      [⟨.keyword .default, ⟨0, 7, 1, 1⟩⟩, ⟨.punctuation .colon, ⟨7, 8, 1, 8⟩⟩,
        ⟨.keyword .return, ⟨9, 15, 1, 10⟩⟩] := by rfl
  have lone : Reads .program 256
      [⟨.keyword .default, ⟨0, 7, 1, 1⟩⟩, ⟨.punctuation .colon, ⟨7, 8, 1, 8⟩⟩,
        ⟨.keyword .return, ⟨9, 15, 1, 10⟩⟩]
      [.clause (.fallback (.returns none ⟨9, 15, 1, 10⟩) ⟨0, 15, 1, 1⟩)] [] :=
    .programNext (.defaultClause rfl (.clauseStatement rfl (.returnsNothing rfl (.inl rfl))))
      .programEnd
  exact ⟨parsed, (cases_of_parse {} _).1 program parsed,
    (cases_of_parse {} _).2 _ _ _ stray lone rfl⟩

/-- A case in the block of a loop is taken too, though no switch is around it. -/
theorem case_in_loop :
    ∃ program, parse {} "while a \x7bcase b: return\x7d" = .ok program ∧
      ¬ ∀ parent branch, Occurs program parent → .node (.clause branch) ∈ parent.pieces →
        ∃ subject clauses location, parent = .switch subject clauses location := by
  have scanned : tokenize "while a \x7bcase b: return\x7d" = .ok
      [⟨.keyword .while, ⟨0, 5, 1, 1⟩⟩, ⟨.identifier "a", ⟨6, 7, 1, 7⟩⟩,
        ⟨.punctuation .openBrace, ⟨8, 9, 1, 9⟩⟩, ⟨.keyword .case, ⟨9, 13, 1, 10⟩⟩,
        ⟨.identifier "b", ⟨14, 15, 1, 15⟩⟩, ⟨.punctuation .colon, ⟨15, 16, 1, 16⟩⟩,
        ⟨.keyword .return, ⟨17, 23, 1, 18⟩⟩, ⟨.punctuation .closeBrace, ⟨23, 24, 1, 24⟩⟩] := by
    rfl
  refine ⟨[.whileLoop (.leaf ⟨.identifier "a", ⟨6, 7, 1, 7⟩⟩)
    (.block [.clause ⟨.case, .single (.leaf ⟨.identifier "b", ⟨14, 15, 1, 15⟩⟩),
      .returns none ⟨17, 23, 1, 18⟩, ⟨9, 23, 1, 10⟩⟩] ⟨8, 24, 1, 9⟩) ⟨0, 24, 1, 1⟩],
    by rw [parse, scanned]; rfl, ?_⟩
  intro inSwitch
  obtain ⟨subject, clauses, location, same⟩ := inSwitch (.block _ _) _
    (.piece (.statement List.mem_cons_self) (.tail _ (.head _))) (.head _)
  cases same

end Oreo
