import Oreo.Proofs.Parse.Cases
import Oreo.Proofs.Parse.Concatenation
import Oreo.Proofs.Parse.Print

/-!
# An `else` belongs to the innermost `if`

A body may be a single statement, and where several statements end at the same token, an `else` that
comes next could belong to any `if` among them. It belongs to the innermost. The reason is that
every one of these statements leaves the same tokens: an `if` that has found no `else` looked at
what it leaves, so no `else` is there for those around it either (`Reads.closed`). An optional
semicolon before the `else` makes no difference, since it is put back unless the `else` is taken.

`Node.EndsIn` goes from a statement to those that end where it ends, and `Node.tail` is the last of
them that is no block.
-/

namespace Oreo

namespace Node

/-- Whether the node is an `if` without an alternate. -/
def lacksElse : Node → Bool
  | .conditional _ _ none _ => true
  | _ => false

/-- Whether the node is a block. -/
def isBlock : Node → Bool
  | .block .. => true
  | _ => false

/-- The statement with which a statement ends: its body, or the alternate of an `if` that has
one. -/
def ending? : Node → Option Node
  | .conditional _ consequent alternate _ => some (alternate.getD consequent)
  | .whileLoop _ body _ | .forLoop _ _ _ body _ | .function _ _ body _ | .lambda _ body _ =>
    some body
  | .clause branch => some branch.body
  | _ => none

/-- The statement that ends another one is smaller than it. -/
theorem sizeOf_lt_of_ending {node child : Node} (ends : node.ending? = some child) :
    sizeOf child < sizeOf node := by
  cases node with
  | conditional test consequent alternate location =>
    cases alternate <;> cases ends <;> simp <;> omega
  | whileLoop | forLoop | function | lambda =>
    cases ends
    simp
    omega
  | clause branch =>
    cases branch
    cases ends
    simp
    omega
  | _ => cases ends

/-- The innermost statement with which a statement ends, outside of all blocks. -/
def tail (node : Node) : Node :=
  match ends : node.ending? with
  | some child =>
    have : sizeOf child < sizeOf node := sizeOf_lt_of_ending ends
    if child.isBlock then node else child.tail
  | none => node
termination_by sizeOf node

/-- The first statement ends with the second, which may be itself. -/
inductive EndsIn : Node → Node → Prop where
  /-- A node ends in itself. -/
  | self {node : Node} : EndsIn node node
  /-- A node ends in what its last part ends in. -/
  | inside {node child last : Node} (ends : node.ending? = some child)
      (within : child.EndsIn last) : EndsIn node last

/-- Every node ends in its tail. -/
theorem endsIn_tail (node : Node) : node.EndsIn node.tail := by
  fun_induction Node.tail node with
  | case1 => exact .self
  | case2 node child ends smaller block ih => exact .inside ends ih
  | case3 => exact .self

/-- No statement with which the node ends is an `if` without an alternate. -/
def Closed (node : Node) : Prop := ∀ last, node.EndsIn last → last.lacksElse = false

section

variable {node child : Node}

/-- A node is closed if what ends it is closed and it is no `if` without an alternate. -/
theorem closed_of_ending (ends : node.ending? = some child) (alternate : node.lacksElse = false)
    (closed : child.Closed) : node.Closed := by
  intro last within
  cases within with
  | self => exact alternate
  | inside found within =>
    cases ends.symm.trans found
    exact closed last within

/-- A node that no other one ends is closed. -/
theorem closed_of_none (none : node.ending? = none) : node.Closed := by
  intro last within
  cases within with
  | self =>
    cases node with
    | conditional => cases none
    | _ => rfl
  | inside found => cases none.symm.trans found

end

end Node

/-- What a statement is read as is closed. A name and what it leads has no body to end with; a part
that goes on behind a node is told that the node has none. -/
def Part.Closed : (part : Part) → part.Result → Prop
  | .statement, node | .conditional, node | .clauseBody, node | .body, node | .lambda, node =>
    node.Closed
  | .named _, node => node.ending? = none
  | .members object, node => object.ending? = none → node.ending? = none
  | .call _, node | .indexed _, node | .accessed .., node => node.ending? = none
  | _, _ => True

/-- A statement that leaves an `else` does not end with an `if` that could take it. -/
theorem Reads.closed {part : Part} {room : Nat} {tokens rest : List Token} {value : part.Result}
    (reads : Reads part room tokens value rest)
    (ahead : startsAlternate (alternateAhead rest) = true) : part.Closed value := by
  -- A statement leaves what its body leaves, so the `else` is ahead of the body as well. An `if`
  -- that took none has looked for it there.
  induction reads with
  | conditionalOnly _ _ _ noElse noElseif =>
    rw [startsAlternate, noElse, noElseif] at ahead
    cases ahead
  | conditionalElse =>
    exact Node.closed_of_ending rfl rfl (Node.closed_of_none rfl)
  | conditionalElseif _ _ _ _ _ _ _ _ alternate =>
    exact Node.closed_of_ending rfl rfl (alternate ahead)
  | whileLoop _ _ _ _ body | forLoop _ _ _ _ _ _ _ _ _ _ body | forLoopByOne _ _ _ _ _ _ _ _ _ body
  | caseClause _ _ _ _ _ _ body | defaultClause _ _ body | function _ _ _ _ _ _ _ body
  | lambda _ _ _ _ _ body =>
    exact Node.closed_of_ending rfl rfl (body ahead)
  | conditionalStatement _ _ inner | lambdaStatement _ _ inner | clauseStatement _ _ inner
  | bodyStatement _ _ inner => exact inner ahead
  | declared | initialized | doWhileLoop | switch | returnsNothing | returnsValue | comment
  | clauseBlock | bodyBlock => exact Node.closed_of_none rfl
  | namedStatement _ _ named => exact Node.closed_of_none (named ahead)
  | nameLast | nameAlone | assigned | combined | updated | elementAssigned => rfl
  | called _ _ inner | indexedName _ _ inner | indexed _ _ _ _ _ inner | elementCalled _ inner
  | elementIndexed _ inner => exact inner ahead
  | owner _ _ _ members | call _ _ _ _ members | element _ _ _ _ members => exact members ahead rfl
  | membersEnd => exact fun object => object
  | member => exact fun _ => rfl
  | _ => trivial

/-- The property holds of the node and of all nodes in it. -/
inductive Node.Everywhere (property : Node → Prop) : Node → Prop where
  /-- The property holds of the node and everywhere in its children. -/
  | mk {node : Node} (holds : property node)
      (below : ∀ child, .node child ∈ node.pieces → child.Everywhere property) :
      node.Everywhere property

/-- The property holds everywhere in what a part is read as. A part that goes on behind a node is
told that it holds everywhere in the node. -/
@[simp] def Part.Everywhere (property : Node → Prop) : (part : Part) → part.Result → Prop
  | .program, nodes | .alternatives, nodes => ∀ node ∈ nodes, node.Everywhere property
  | .block, (nodes, _) | .statements, (nodes, _) => ∀ node ∈ nodes, node.Everywhere property
  | .statement, node | .conditional, node | .clauseBody, node | .body, node | .lambda, node
  | .expression, node | .operand, node | .named _, node => node.Everywhere property
  | .climb left _, node => left.Everywhere property → node.Everywhere property
  | .members object, node => object.Everywhere property → node.Everywhere property
  | .call callee, node => callee.Everywhere property → node.Everywhere property
  | .indexed target, node => target.Everywhere property → node.Everywhere property
  | .accessed target index _, node =>
    target.Everywhere property → index.Everywhere property → node.Everywhere property
  | .entry, written => ∀ child ∈ written.nodes, child.Everywhere property
  | .parameter, _ => True
  | .list _ item, (values, _) | .items _ item, (values, _) =>
    ∀ value ∈ values, item.Everywhere property value

section

variable {property : Node → Prop} {node : Node}

/-- What holds everywhere in a node holds of the node. -/
theorem Node.Everywhere.holds (everywhere : node.Everywhere property) : property node := by
  cases everywhere with
  | mk holds _ => exact holds

/-- What holds everywhere in a node holds everywhere in its children. -/
theorem Node.Everywhere.child {child : Node} (everywhere : node.Everywhere property)
    (held : .node child ∈ node.pieces) : child.Everywhere property := by
  cases everywhere with
  | mk _ below => exact below child held

/-- What holds everywhere in the statements of a program holds everywhere in its nodes. -/
theorem Occurs.everywhere {program : List Node} (occurs : Occurs program node)
    (statements : ∀ statement ∈ program, statement.Everywhere property) :
    node.Everywhere property := by
  induction occurs with
  | statement listed => exact statements _ listed
  | piece _ held ih => exact ih.child held

/-- What holds of every node but an `if` holds everywhere in a block if it does in its statements.
-/
theorem everywhere_block {body : List Node} {location : Location}
    (others : ∀ node : Node, node.isConditional = false → property node)
    (statements : Part.Everywhere property .block (body, location)) :
    (Node.block body location).Everywhere property :=
  .mk (others _ rfl) (by simpa [Node.pieces] using statements)

/-- The name of a function, which is left of a call or of a chain of members that ends in one. -/
theorem everywhere_title {title : Node} {arguments : List Node}
    (others : ∀ node : Node, node.isConditional = false → property node)
    (split : node.signature? = some (title, arguments)) (everywhere : node.Everywhere property) :
    title.Everywhere property := by
  fun_induction Node.signature? node generalizing title arguments with
  | case1 callee given location =>
    cases split
    exact everywhere.child (by simp [Node.pieces])
  | case2 owner property separator location name given inner ih =>
    cases split
    have ownerPart : owner.Everywhere _ := everywhere.child (by simp [Node.pieces])
    have namePart := ih inner (everywhere.child (by simp [Node.pieces]))
    exact .mk (others _ rfl) (by simpa [Node.pieces] using ⟨ownerPart, namePart⟩)
  | case3 => cases split
  | case4 => cases split

/-- A property that every `if` has when it is read, and every other node has anyway, holds
everywhere in what is read. -/
theorem Reads.everywhere {part : Part} {room : Nat} {tokens rest : List Token}
    {value : part.Result} (others : ∀ node : Node, node.isConditional = false → property node)
    (choices : ∀ {room tokens node rest}, Reads .conditional room tokens node rest → property node)
    (reads : Reads part room tokens value rest) : part.Everywhere property value := by
  induction reads with
  | programEnd | alternativesEnd | statementsEnd | listEmpty => simp
  | programNext _ _ first more | statementsNext _ _ _ first more
  | alternativesNext _ _ _ first more | itemsNext _ _ _ _ _ first more =>
    simpa using And.intro first more
  | itemsEnd _ _ _ first => simpa using first
  | declared | returnsNothing | comment | unit | literal | nameLast | nameAlone | updated =>
    exact .mk (others _ rfl) (by simp [Node.pieces])
  | initialized _ _ _ _ value | returnsValue _ _ _ _ _ value | negation _ _ value
  | assigned _ _ _ value | combined _ _ _ _ _ value | lambda _ _ _ _ _ value
  | defaultClause _ _ value =>
    exact .mk (others _ rfl) (by simpa [Node.pieces] using value)
  | whileLoop _ _ _ test body =>
    exact .mk (others _ rfl) (by simpa [Node.pieces] using And.intro test body)
  | doWhileLoop _ _ _ _ _ body test =>
    exact .mk (others _ rfl) (by simpa [Node.pieces] using And.intro body test)
  | forLoop _ _ _ _ _ _ _ initial test update body =>
    exact .mk (others _ rfl) (by simpa [Node.pieces] using ⟨initial, test, update, body⟩)
  | forLoopByOne _ _ _ _ _ _ _ initial test body =>
    have step (name : Token) : (Node.update name .increment name.location).Everywhere property :=
      .mk (others _ rfl) (by simp [Node.pieces])
    exact .mk (others _ rfl) (by simpa [Node.pieces] using ⟨initial, test, step _, body⟩)
  | switch _ _ _ subject clauses =>
    refine .mk (others _ rfl) ?_
    simpa [Node.pieces] using And.intro subject (by simpa using clauses)
  | caseClause _ _ _ _ value more body =>
    refine .mk (others _ rfl) fun child held => ?_
    rcases Node.mem_pieces_iff.mp held with among | among
    · rw [Node.nonStatements, Clause.values_ofValues] at among
      exact List.forall_mem_cons.mpr ⟨value, more⟩ child among
    · exact List.forall_mem_singleton.mpr body child among
  | function _ _ _ split _ _ signature body =>
    have title := everywhere_title others split signature
    exact .mk (others _ rfl) (by simpa [Node.pieces] using And.intro title body)
  | conditionalOnly keyword testRead bodyRead noElse noElseif test body =>
    have read := choices (.conditionalOnly keyword testRead bodyRead noElse noElseif)
    exact .mk read (by simpa [Node.pieces] using And.intro test body)
  | conditionalElse keyword testRead bodyRead ahead kind blockRead test body block =>
    have read := choices (.conditionalElse keyword testRead bodyRead ahead kind blockRead)
    have alternate := everywhere_block others block
    exact .mk read (by simpa [Node.pieces] using ⟨test, body, alternate⟩)
  | conditionalElseif keyword testRead bodyRead ahead kind read test body alternate =>
    have read := choices (.conditionalElseif keyword testRead bodyRead ahead kind read)
    exact .mk read (by simpa [Node.pieces] using ⟨test, body, alternate⟩)
  | clauseBlock _ body | bodyBlock _ body => exact everywhere_block others body
  | array _ _ elements => exact .mk (others _ rfl) (by simpa [Node.pieces] using elements)
  | object _ _ entries =>
    refine .mk (others _ rfl) fun child held => ?_
    rcases Node.mem_pieces_iff.mp held with among | among
    · obtain ⟨entry, listed, among⟩ := List.mem_flatMap.mp among
      exact entries entry listed child among
    · cases among
  | conditionalStatement _ _ inner | lambdaStatement _ _ inner | namedStatement _ _ inner
  | clauseStatement _ _ inner | bodyStatement _ _ inner | block _ _ inner
  | expressionOperand _ _ inner | parenthesized _ _ _ _ inner | lambdaOperand _ _ inner
  | namedOperand _ _ inner | listItems _ _ inner => exact inner
  | expressionBinary _ _ _ operand climb => exact climb operand
  | climbEnd | membersEnd => exact fun behind => behind
  | climbNext _ _ _ _ _ operand right climb =>
    intro left
    exact climb (.mk (others _ rfl) (by simpa [Node.pieces] using And.intro left (right operand)))
  | called _ _ inner | owner _ _ _ inner | indexedName _ _ inner =>
    exact inner (.mk (others _ rfl) (by simp [Node.pieces]))
  | member _ _ _ property =>
    intro object
    exact .mk (others _ rfl) (by simpa [Node.pieces] using And.intro object property)
  | call _ _ _ arguments members =>
    intro callee
    exact members (.mk (others _ rfl) (by simpa [Node.pieces] using And.intro callee arguments))
  | indexed _ _ _ _ index accessed => exact fun target => accessed target index
  | elementAssigned _ _ value =>
    intro target index
    exact .mk (others _ rfl) (by simpa [Node.pieces] using ⟨target, index, value⟩)
  | elementCalled _ inner | elementIndexed _ inner | element _ _ _ _ inner =>
    intro target index
    exact inner (.mk (others _ rfl) (by simpa [Node.pieces] using And.intro target index))
  | keyedValue _ _ _ _ _ key value => simpa using And.intro key value
  | keyed _ _ _ _ value | item _ _ _ value => simpa using value
  | namedEntry _ _ _ value =>
    simpa using And.intro (.mk (others _ rfl) (by simp [Node.pieces])) value
  | parameter => trivial

end

/-- The consequent of an `if` that has an alternate is closed. -/
def Node.TakesInnermost (node : Node) : Prop :=
  ∀ test consequent alternate location,
    node = .conditional test consequent (some alternate) location → consequent.Closed

/-- An `if` is read with an alternate only behind a consequent that is closed. -/
theorem Reads.takesInnermost {room : Nat} {tokens rest : List Token} {node : Node}
    (reads : Reads .conditional room tokens node rest) : node.TakesInnermost := by
  intro test consequent alternate location same
  cases reads with
  | conditionalOnly => cases same
  | conditionalElse _ _ bodyRead ahead kind =>
    cases same
    exact bodyRead.closed (by simp [startsAlternate, ahead, kind])
  | conditionalElseif _ _ bodyRead ahead kind =>
    cases same
    exact bodyRead.closed (by simp [startsAlternate, ahead, kind])

/-- A dangling `else` belongs to the innermost `if`. For every source that is parsed, with any
number of levels of nesting, and every `if` in the program that has an alternate, however deep: no
statement with which its consequent ends, outside of all blocks, is an `if` without an alternate.
In particular the tail of the consequent is none. -/
theorem consequents_of_parse {options : Options} {source : String} {program : List Node}
    {test consequent alternate : Node} {location : Location}
    (parsed : parse options source = .ok program)
    (occurs : Occurs program (.conditional test consequent (some alternate) location)) :
    consequent.tail.lacksElse = false ∧
      ∀ last, consequent.EndsIn last → last.lacksElse = false := by
  obtain ⟨tokens, -, reads, -⟩ := reads_of_parse parsed
  have others (node : Node) (other : node.isConditional = false) : node.TakesInnermost := by
    rintro test consequent alternate location rfl
    cases other
  have statements : ∀ statement ∈ program, statement.Everywhere Node.TakesInnermost :=
    reads.everywhere others Reads.takesInnermost
  have closed : consequent.Closed := (occurs.everywhere statements).holds _ _ _ _ rfl
  exact ⟨closed _ consequent.endsIn_tail, closed⟩

/-- In `if a while b if c x; else {} else {}` the first `else` belongs to the second `if`, which is
the tail of the loop, and only then is there one for the first. -/
theorem consequents_of_parse_loop :
    let inner : Node := .conditional (.leaf ⟨.identifier "c", ⟨16, 17, 1, 17⟩⟩)
      (.leaf ⟨.identifier "x", ⟨18, 19, 1, 19⟩⟩) (some (.block [] ⟨26, 28, 1, 27⟩))
      ⟨13, 28, 1, 14⟩
    let consequent : Node :=
      .whileLoop (.leaf ⟨.identifier "b", ⟨11, 12, 1, 12⟩⟩) inner ⟨5, 28, 1, 6⟩
    let program : List Node := [.conditional (.leaf ⟨.identifier "a", ⟨3, 4, 1, 4⟩⟩) consequent
      (some (.block [] ⟨34, 36, 1, 35⟩)) ⟨0, 36, 1, 1⟩]
    parse {} "if a while b if c x; else \x7b\x7d else \x7b\x7d" = .ok program ∧
      consequent.tail = inner ∧ consequent.tail.lacksElse = false ∧
      ∀ last, consequent.EndsIn last → last.lacksElse = false := by
  intro inner consequent program
  let tokens : List Token :=
    [⟨.keyword .if, ⟨0, 2, 1, 1⟩⟩, ⟨.identifier "a", ⟨3, 4, 1, 4⟩⟩,
      ⟨.keyword .while, ⟨5, 10, 1, 6⟩⟩, ⟨.identifier "b", ⟨11, 12, 1, 12⟩⟩,
      ⟨.keyword .if, ⟨13, 15, 1, 14⟩⟩, ⟨.identifier "c", ⟨16, 17, 1, 17⟩⟩,
      ⟨.identifier "x", ⟨18, 19, 1, 19⟩⟩, ⟨.punctuation .semicolon, ⟨19, 20, 1, 20⟩⟩,
      ⟨.keyword .else, ⟨21, 25, 1, 22⟩⟩, ⟨.punctuation .openBrace, ⟨26, 27, 1, 27⟩⟩,
      ⟨.punctuation .closeBrace, ⟨27, 28, 1, 28⟩⟩, ⟨.keyword .else, ⟨29, 33, 1, 30⟩⟩,
      ⟨.punctuation .openBrace, ⟨34, 35, 1, 35⟩⟩, ⟨.punctuation .closeBrace, ⟨35, 36, 1, 36⟩⟩]
  have scanned : tokenize "if a while b if c x; else \x7b\x7d else \x7b\x7d" = .ok tokens := by
    rfl
  have name {room : Nat} {name follower : Token} {rest : List Token}
      (named : name.isIdentifier = true) (alone : leadsOn (follower :: rest) = false)
      (ends : startsBinary (follower :: rest) = false) :
      Reads .expression room (name :: follower :: rest) (.leaf name) (follower :: rest) :=
    .expressionOperand (.namedOperand named (.nameAlone named (List.cons_ne_nil _ _) alone)) ends
  have innerRead : Reads .conditional 253 (tokens.drop 4) inner (tokens.drop 11) :=
    .conditionalElse (.inl rfl) (name rfl rfl rfl)
      (.bodyStatement rfl (.namedStatement rfl (.nameAlone rfl (List.cons_ne_nil _ _) rfl)))
      rfl rfl (.block rfl (.statementsEnd rfl))
  have loopRead : Reads .statement 255 (tokens.drop 2) consequent (tokens.drop 11) :=
    .whileLoop rfl (name rfl rfl rfl) (.bodyStatement rfl (.conditionalStatement rfl innerRead))
  have reads : Reads .program 256 tokens program [] :=
    .programNext (.conditionalStatement rfl (.conditionalElse (.inl rfl) (name rfl rfl rfl)
      (.bodyStatement rfl loopRead) rfl rfl (.block rfl (.statementsEnd rfl)))) .programEnd
  have parsed : parse {} "if a while b if c x; else \x7b\x7d else \x7b\x7d" = .ok program := by
    have outcome : (parseTokens {} tokens).outcome = .ok program :=
      parseTokens_eq_ok_iff.mpr ⟨reads, rfl⟩
    simp only [parse, scanned, outcome]
  have tail : consequent.tail = inner := by
    simp [consequent, inner, Node.tail, Node.ending?, Node.isBlock]
  exact ⟨parsed, tail, consequents_of_parse parsed (.statement List.mem_cons_self)⟩

end Oreo
