import Oreo.Proofs.Parse.Soundness
import Oreo.Proofs.Token.Tiling

/-!
# A tree holds the tokens it was read from

Names, numbers, texts, truth values and comments are the content of a source; keywords, operators
and marks only shape the tree. `Node.tokens` lists the tokens that a tree holds in the order in
which the source has them. Reading neither loses, nor doubles, nor moves a token of the content.

A source is read from left to right, and `Kept` says what holds on the way: the content of the
source is that of what is held so far and that of what is left. Each token that is passed and each
part that is read keeps this.

One token of a tree is not in the source: a `for` loop without a step gets one for its variable,
placed where the name of the variable stands. It is told from a step that was written by that
place, for a written step reaches behind the name.
-/

namespace Oreo

/-- Whether the token is a name, a number, a text, a truth value or a comment. -/
def Token.isContent (token : Token) : Bool :=
  match token.kind with
  | .identifier _ | .number _ | .string .. | .boolean _ | .lineComment _ | .blockComment _ => true
  | .keyword _ | .operator _ | .punctuation _ | .otherOperator .. | .otherMark .. => false

/-- The tokens of the content, in order. -/
def content (tokens : List Token) : List Token := tokens.filter Token.isContent

/-- Whether the node is an update that was not written: it is placed at its name alone. -/
def Node.isImplied : Node → Bool
  | .update target _ location => location == target.location
  | _ => false

mutual

/-- The tokens that a tree holds, in the order of the source. An implied step of a loop holds
none. -/
@[simp] def Node.tokens : Node → List Token
  | .block body _ => Node.listTokens body
  | .declaration name value _ => name :: Node.optionTokens value
  | .conditional test consequent alternate _ =>
    test.tokens ++ consequent.tokens ++ Node.optionTokens alternate
  | .whileLoop test body _ => test.tokens ++ body.tokens
  | .doWhileLoop test body _ => body.tokens ++ test.tokens
  | .forLoop initial test update body _ =>
    initial.tokens ++ test.tokens ++ (if update.isImplied then [] else update.tokens) ++
      body.tokens
  | .switch subject clauses _ => subject.tokens ++ Clause.listTokens clauses
  | .function name parameters body _ => name.tokens ++ parameters ++ body.tokens
  | .lambda parameters body _ => parameters ++ body.tokens
  | .returns value _ => Node.optionTokens value
  | .binary _ left right _ => left.tokens ++ right.tokens
  | .negation operand _ => operand.tokens
  | .update target _ _ => [target]
  | .assignment target _ value _ => target :: value.tokens
  | .call callee arguments _ => callee.tokens ++ Node.listTokens arguments
  | .access target index _ => target.tokens ++ index.tokens
  | .elementAssignment target index value _ => target.tokens ++ index.tokens ++ value.tokens
  | .member object property _ _ => object.tokens ++ property.tokens
  | .array elements _ => Node.listTokens elements
  | .object entries _ => Entry.listTokens entries
  | .unit _ => []
  | .clause branch => branch.tokens
  | .leaf token => [token]

/-- The tokens of nodes, in order. -/
@[simp] def Node.listTokens : List Node → List Token
  | [] => []
  | node :: nodes => node.tokens ++ Node.listTokens nodes

/-- The tokens of a part that may be missing. -/
@[simp] def Node.optionTokens : Option Node → List Token
  | none => []
  | some node => node.tokens

/-- The tokens of the values of a case. -/
@[simp] def Pattern.tokens : Pattern → List Token
  | .none => []
  | .single value => value.tokens
  | .alternatives values => Node.listTokens values

/-- The tokens of a case: its values, then its body. -/
@[simp] def Clause.tokens : Clause → List Token
  | ⟨_, pattern, body, _⟩ => pattern.tokens ++ body.tokens

/-- The tokens of cases, in order. -/
def Clause.listTokens : List Clause → List Token
  | [] => []
  | branch :: others => branch.tokens ++ Clause.listTokens others

/-- The tokens of an entry of an object literal. -/
@[simp] def Entry.tokens : Entry → List Token
  | ⟨key, _, _, value⟩ => key.tokens ++ Node.optionTokens value

/-- The tokens of entries, in order. -/
def Entry.listTokens : List Entry → List Token
  | [] => []
  | entry :: entries => entry.tokens ++ Entry.listTokens entries

end

/-- The tokens of what a part is read as. -/
@[simp] def Part.tokens : (part : Part) → part.Result → List Token
  | .program, nodes => Node.listTokens nodes
  | .alternatives, nodes => Node.listTokens nodes
  | .block, (nodes, _) => Node.listTokens nodes
  | .statements, (nodes, _) => Node.listTokens nodes
  | .entry, written => written.tokens
  | .parameter, name => [name]
  | .list _ item, (values, _) => values.flatMap item.tokens
  | .items _ item, (values, _) => values.flatMap item.tokens
  | .statement, node | .conditional, node | .clauseBody, node | .body, node | .lambda, node
  | .expression, node | .climb .., node | .operand, node | .named _, node | .members _, node
  | .call _, node | .indexed _, node | .accessed .., node => node.tokens

/-- What is held before a part is read: a part that goes on behind a node holds the node already. -/
@[simp] def Part.held (front : List Token) : Part → List Token
  | .climb left _ => front ++ left.tokens
  | .members object => front ++ object.tokens
  | .call callee => front ++ callee.tokens
  | .indexed target => front ++ target.tokens
  | .accessed target index _ => front ++ target.tokens ++ index.tokens
  | _ => front

/-- The content of nothing is empty. -/
@[simp] theorem content_nil : content [] = [] := rfl

/-- The content of tokens in a row is that of the parts in a row. -/
@[simp] theorem content_append (first second : List Token) :
    content (first ++ second) = content first ++ content second :=
  List.filter_append ..

/-- A token that is no content adds nothing. -/
theorem content_cons {token : Token} (other : token.isContent = false) (tokens : List Token) :
    content (token :: tokens) = content tokens :=
  List.filter_cons_of_neg (by simp [other])

/-- A keyword is no content. -/
theorem isContent_of_keyword {token : Token} {keyword : Keyword}
    (kind : token.kind = .keyword keyword) : token.isContent = false := by
  simp [Token.isContent, kind]

/-- An operator is no content. -/
theorem isContent_of_operator {token : Token} {operator : Operator}
    (kind : token.kind = .operator operator) : token.isContent = false := by
  simp [Token.isContent, kind]

/-- A mark is no content. -/
theorem isContent_of_mark {token : Token} {mark : Punctuation}
    (kind : token.kind = .punctuation mark) : token.isContent = false := by
  simp [Token.isContent, kind]

/-- A separator is no content. -/
theorem isContent_of_separator {token : Token} {separator : MemberSeparator}
    (kind : token.separator? = some separator) : token.isContent = false := by
  unfold Token.separator? at kind
  split at kind
  · rename_i mark markKind
    exact isContent_of_mark markKind
  · contradiction

/-- The tokens of nodes are those of each node in a row. -/
theorem Node.listTokens_eq (nodes : List Node) :
    Node.listTokens nodes = nodes.flatMap Node.tokens := by
  induction nodes with
  | nil => rfl
  | cons node nodes ih => rw [Node.listTokens, ih, List.flatMap_cons]

/-- The tokens of entries are those of each entry in a row. -/
theorem Entry.listTokens_eq (entries : List Entry) :
    Entry.listTokens entries = entries.flatMap Entry.tokens := by
  induction entries with
  | nil => rfl
  | cons entry entries ih => rw [Entry.listTokens, ih, List.flatMap_cons]

/-- The values of a case hold the tokens of the first and of the others. -/
theorem Pattern.tokens_ofValues (first : Node) (others : List Node) :
    (ofValues first others).tokens = first.tokens ++ Node.listTokens others := by
  cases others with
  | nil => simp [ofValues]
  | cons second others => simp [ofValues]

/-- Cases hold what they hold as statements. -/
theorem Clause.listTokens_eq (clauses : List Clause) :
    Clause.listTokens clauses = Node.listTokens (clauses.map Node.clause) := by
  induction clauses with
  | nil => rfl
  | cons branch clauses ih =>
    rw [Clause.listTokens, ih, List.map_cons, Node.listTokens, Node.tokens]

/-- Leaves hold their tokens and nothing else. -/
theorem Node.listTokens_leaves (tokens : List Token) :
    Node.listTokens (tokens.map Node.leaf) = tokens := by
  induction tokens with
  | nil => rfl
  | cons token tokens ih =>
    rw [List.map_cons, Node.listTokens, ih, Node.tokens, List.singleton_append]

/-- The name and the arguments of a signature hold what the signature holds. -/
theorem Node.tokens_signature {node title : Node} {arguments : List Node}
    (split : node.signature? = some (title, arguments)) :
    node.tokens = title.tokens ++ Node.listTokens arguments := by
  fun_induction Node.signature? node generalizing title arguments with
  | case1 callee given location =>
    cases split
    rw [Node.tokens]
  | case2 owner property separator location name given inner ih =>
    cases split
    rw [Node.tokens, Node.tokens, ih inner, List.append_assoc]
  | case3 => cases split
  | case4 => cases split

/-- A semicolon that is passed is no content. -/
theorem content_passSemicolon (tokens : List Token) :
    content (passSemicolon tokens) = content tokens := by
  unfold passSemicolon
  split
  · rename_i ahead
    obtain ⟨mark, rest, rfl, kind⟩ := startsWith_iff.mp ahead
    exact (content_cons (isContent_of_mark kind) rest).symm
  · rfl

/-- A semicolon that is passed before a keyword is no content. -/
theorem content_passSemicolonBefore (keywords : List Keyword) (tokens : List Token) :
    content (passSemicolonBefore keywords tokens) = content tokens := by
  unfold passSemicolonBefore
  split
  · rename_i ahead
    obtain ⟨mark, rest, rfl, kind⟩ := startsWith_iff.mp ahead.1
    exact (content_cons (isContent_of_mark kind) rest).symm
  · rfl

/-- A back part of tokens in order is in order. -/
theorem Ascending.of_suffix {tokens rest : List Token} (ascending : Ascending tokens)
    (suffix : rest <:+ tokens) : Ascending rest where
  start_lt_stop token found := ascending.start_lt_stop token (suffix.subset found)
  pairwise := ascending.pairwise.sublist suffix.sublist

/-- What is behind the first of tokens in order is in order. -/
theorem Ascending.tail {token : Token} {tokens : List Token}
    (ascending : Ascending (token :: tokens)) : Ascending tokens :=
  ascending.of_suffix (List.suffix_cons ..)

/-- Whether a part that is read as an update was written as one. What may follow an object is the
object itself if nothing does. -/
def Part.Written : (part : Part) → part.Result → Prop
  | .statement, node | .conditional, node | .lambda, node | .named _, node | .call _, node
  | .indexed _, node | .accessed .., node => node.isImplied = false
  | .members object, node => object.isImplied = false → node.isImplied = false
  | _, _ => True

/-- An update with its operator behind it reaches behind its name. -/
theorem Ascending.through_ne {name symbol second : Token} {rest : List Token}
    (ascending : Ascending (name :: symbol :: second :: rest)) :
    name.location.through second.location ≠ name.location := by
  intro same
  have before : name.location.stop ≤ second.location.start :=
    List.rel_of_pairwise_cons ascending.pairwise (by simp)
  have spans := ascending.start_lt_stop second (by simp)
  have reach := congrArg Location.stop same
  rw [Location.stop_through] at reach
  omega

/-- An update that is read where tokens are in order was written: it is a name with an operator
behind it, and all else is read as another node. -/
theorem Reads.written {part : Part} {room : Nat} {tokens rest : List Token} {value : part.Result}
    (reads : Reads part room tokens value rest) (ascending : Ascending tokens) :
    part.Written value := by
  induction reads with
  | updated => exact beq_false_of_ne ascending.through_ne
  | conditionalStatement _ _ part | lambdaStatement _ _ part | namedStatement _ _ part
  | elementCalled _ part | elementIndexed _ part => exact part ascending
  | called _ _ part | indexedName _ _ part => exact part ascending.tail
  | owner _ _ _ members => exact members ascending.tail rfl
  | membersEnd => exact fun written => written
  | call _ argumentsRead _ _ members =>
    exact members (ascending.tail.of_suffix argumentsRead.suffix) rfl
  | indexed _ indexRead _ _ _ accessed =>
    exact accessed (ascending.tail.of_suffix indexRead.suffix).tail
  | element _ _ _ _ members => exact members ascending rfl
  | member => exact fun _ => rfl
  | _ => trivial

/-- On the way through a source the tokens are left, and what is held so far has the content of
those before them. -/
structure Kept (source held tokens : List Token) : Prop where
  /-- The tokens are the back part of the source. -/
  within : tokens <:+ source
  /-- The content is that of what is held and that of what is left. -/
  same : content source = content held ++ content tokens

namespace Kept

variable {source held tokens rest : List Token} {token : Token}

/-- Before anything is read, all is left. -/
theorem start (source : List Token) : Kept source [] source :=
  ⟨List.suffix_refl source, rfl⟩

/-- What is left may be replaced by a back part with the same content. -/
theorem forward (kept : Kept source held tokens) (suffix : rest <:+ tokens)
    (same : content rest = content tokens) : Kept source held rest :=
  ⟨suffix.trans kept.within, by rw [kept.same, same]⟩

/-- A token that is no content is passed. -/
theorem pass (kept : Kept source held (token :: tokens)) (other : token.isContent = false) :
    Kept source held tokens :=
  kept.forward (List.suffix_cons ..) (content_cons other tokens).symm

/-- A keyword is passed. -/
theorem keyword {keyword : Keyword} (kept : Kept source held (token :: tokens))
    (kind : token.kind = .keyword keyword) : Kept source held tokens :=
  kept.pass (isContent_of_keyword kind)

/-- One of two keywords is passed. -/
theorem either {first second : Keyword} (kept : Kept source held (token :: tokens))
    (kind : token.kind = .keyword first ∨ token.kind = .keyword second) :
    Kept source held tokens :=
  kind.elim kept.keyword kept.keyword

/-- A mark is passed. -/
theorem mark {mark : Punctuation} (kept : Kept source held (token :: tokens))
    (kind : token.kind = .punctuation mark) : Kept source held tokens :=
  kept.pass (isContent_of_mark kind)

/-- An optional semicolon is passed. -/
theorem semicolon (kept : Kept source held tokens) : Kept source held (passSemicolon tokens) :=
  kept.forward (passSemicolon_suffix tokens) (content_passSemicolon tokens)

/-- An optional semicolon is passed before what follows it. -/
theorem ahead {keywords : List Keyword} (kept : Kept source held tokens)
    (ahead : passSemicolonBefore keywords tokens = token :: rest) :
    Kept source held (token :: rest) :=
  ahead ▸ kept.forward (passSemicolonBefore_suffix keywords tokens)
    (content_passSemicolonBefore keywords tokens)

/-- A token becomes part of what is held. -/
theorem hold (kept : Kept source held (token :: tokens)) :
    Kept source (held ++ [token]) tokens := by
  refine ⟨within_tail kept.within, ?_⟩
  rw [content_append, List.append_assoc, ← content_append [token] tokens]
  exact kept.same

end Kept

/-- Whether the items of a list go on behind nothing. -/
def Part.Proper : Part → Prop
  | .list _ item | .items _ item => (∀ front, item.held front = front) ∧ item.Proper
  | _ => True

/-- What a part is read as is held behind what was held before. All that is passed besides its parts
is no content. -/
theorem Reads.kept {source : List Token} {part : Part} {room : Nat} {tokens rest front : List Token}
    {value : part.Result} (ascending : Ascending source)
    (reads : Reads part room tokens value rest) (proper : part.Proper)
    (kept : Kept source (part.held front) tokens) :
    Kept source (front ++ part.tokens value) rest := by
  induction reads generalizing front with
  | programEnd | alternativesEnd => simpa using kept
  | climbEnd | membersEnd => exact kept
  | programNext _ _ first others | statementsNext _ _ _ first others =>
    simpa using others trivial (first trivial kept).semicolon
  | declared keyword => simpa using (kept.either keyword).hold
  | initialized keyword _ equals _ value =>
    simpa using value trivial ((kept.either keyword).hold.mark equals)
  | conditionalStatement _ _ part | lambdaStatement _ _ part | namedStatement _ _ part
  | lambdaOperand _ _ part | namedOperand _ _ part | bodyStatement _ _ part
  | expressionOperand _ _ part => exact part trivial kept
  | whileLoop keyword _ _ test body =>
    simpa using body trivial (test trivial (kept.keyword keyword))
  | doWhileLoop keyword _ ahead follower _ body test =>
    have behind := (body trivial (kept.keyword keyword)).ahead ahead
    simpa using test trivial (behind.keyword follower)
  | forLoop keyword _ comma _ second updateRead _ initial test update body =>
    have initial := (initial trivial (kept.keyword keyword)).mark comma
    have test := (test trivial initial).mark second
    have written : _ = false := updateRead.written (ascending.of_suffix test.within)
    simpa [written] using body trivial (update trivial test)
  | forLoopByOne keyword _ comma _ _ _ _ initial test body =>
    have initial := (initial trivial (kept.keyword keyword)).mark comma
    simpa [Node.isImplied] using body trivial (test trivial initial)
  | switch keyword _ _ subject clauses =>
    simpa [Clause.listTokens_eq] using clauses trivial (subject trivial (kept.keyword keyword))
  | caseClause keyword _ _ _ value others body =>
    have values := others trivial (value trivial (kept.keyword keyword))
    simpa [Clause.ofValues, Pattern.tokens_ofValues] using body trivial values
  | defaultClause keyword _ body =>
    simpa [Clause.fallback] using body trivial (kept.keyword keyword)
  | function keyword _ _ split _ _ signature body =>
    have held := Node.tokens_signature split
    rw [Node.listTokens_leaves] at held
    simpa [held] using body trivial (signature trivial (kept.keyword keyword))
  | returnsNothing keyword => simpa using kept.keyword keyword
  | returnsValue keyword _ _ _ _ value => simpa using value trivial (kept.keyword keyword)
  | comment | literal | nameLast | nameAlone | parameter => simpa using kept.hold
  | conditionalOnly keyword _ _ _ _ test consequent =>
    simpa using consequent trivial (test trivial (kept.either keyword))
  | conditionalElse keyword _ _ ahead follower _ test consequent block =>
    have behind := (consequent trivial (test trivial (kept.either keyword))).ahead ahead
    simpa using block trivial (behind.keyword follower)
  | conditionalElseif keyword _ _ ahead _ _ test consequent alternate =>
    have behind := (consequent trivial (test trivial (kept.either keyword))).ahead ahead
    simpa using alternate trivial behind
  | alternativesNext bar _ _ value others =>
    simpa using others trivial (value trivial (kept.mark bar))
  | clauseBlock _ part | bodyBlock _ part => simpa using part trivial kept
  | clauseStatement mark _ part => exact part trivial (kept.mark mark)
  | block mark _ part => exact part trivial (kept.mark mark)
  | statementsEnd mark => simpa using kept.mark mark
  | lambda keyword opened _ _ parameters body =>
    have parameters := parameters ⟨fun _ => rfl, trivial⟩ ((kept.keyword keyword).mark opened)
    simpa using body trivial parameters
  | expressionBinary _ _ _ operand climb => exact climb trivial (operand trivial kept)
  | climbNext symbol _ _ _ _ operand right climb =>
    have operand := operand trivial (kept.pass (isContent_of_operator symbol))
    exact climb trivial (by simpa using right trivial operand)
  | unit opened closed => simpa using (kept.mark opened).mark closed
  | parenthesized opened _ _ closed inner =>
    exact (inner trivial (kept.mark opened)).mark closed
  | array opened _ elements =>
    simpa [Node.listTokens_eq] using elements ⟨fun _ => rfl, trivial⟩ (kept.mark opened)
  | object opened _ entries =>
    simpa [Entry.listTokens_eq] using entries ⟨fun _ => rfl, trivial⟩ (kept.mark opened)
  | negation mark _ operand => simpa using operand trivial (kept.mark mark)
  | assigned _ equals _ value => simpa using value trivial (kept.hold.mark equals)
  | combined _ symbol equals _ _ value =>
    have equals := (kept.hold.pass (isContent_of_operator symbol)).mark equals
    simpa using value trivial equals
  | updated _ symbol second =>
    have symbols := kept.hold.pass (isContent_of_operator symbol)
    simpa using symbols.pass (isContent_of_operator second)
  | called _ _ part | indexedName _ _ part | owner _ _ _ part =>
    exact part trivial (by simpa using kept.hold)
  | member mark _ _ property =>
    simpa using property trivial (kept.pass (isContent_of_separator mark))
  | call opened _ _ arguments members =>
    have arguments := arguments ⟨fun _ => rfl, trivial⟩ (kept.mark opened)
    exact members trivial (by simpa [Node.listTokens_eq] using arguments)
  | indexed opened _ closed _ index accessed =>
    exact accessed trivial ((index trivial (kept.mark opened)).mark closed)
  | elementAssigned equals _ value =>
    simpa using value trivial (kept.mark equals)
  | elementCalled _ part | elementIndexed _ part | element _ _ _ _ part =>
    exact part trivial (by simpa using kept)
  | keyedValue opened _ closed equals _ key value =>
    have key := ((key trivial (kept.mark opened)).mark closed).mark equals
    simpa [Entry.keyed] using value trivial key
  | keyed opened _ closed _ key =>
    simpa [Entry.keyed] using (key trivial (kept.mark opened)).mark closed
  | namedEntry _ equals _ value =>
    simpa [Entry.named] using value trivial (kept.hold.mark equals)
  | item _ _ _ value => simpa [Entry.item] using value trivial kept
  | listEmpty closed => simpa using kept.mark closed
  | listItems _ _ items => exact items proper kept
  | itemsEnd _ _ closed first =>
    have first := first proper.2 (by rwa [proper.1])
    simpa using first.mark closed
  | itemsNext _ _ comma _ _ first others =>
    have first := first proper.2 (by rwa [proper.1])
    simpa using others proper (first.mark comma)

/-- No token of the content is lost, doubled or moved by parsing. For every source that is scanned
and parsed, with any number of levels of nesting, the content that the program holds, in the order
of the source, is the content of the tokens. -/
theorem content_of_parse {source : String} {tokens : List Token} {options : Options}
    {program : List Node} (scanned : tokenize source = .ok tokens)
    (parsed : (parseTokens options tokens).outcome = .ok program) :
    content (Node.listTokens program) = content tokens := by
  have ascending : Ascending tokens := (tiles_of_tokenize scanned).ascending
  have kept : Kept tokens ([] ++ Node.listTokens program) [] :=
    (reads_program parsed).1.kept ascending trivial (.start tokens)
  simpa using kept.same.symm

/-- A loop without a step around one that tests at its end: the step that is implied holds
nothing, and the test comes behind the body. -/
theorem content_of_parse_implied_step :
    let tokens : List Token :=
      [⟨.keyword .for, ⟨0, 3, 1, 1⟩⟩, ⟨.keyword .let, ⟨4, 7, 1, 5⟩⟩,
        ⟨.identifier "i", ⟨8, 9, 1, 9⟩⟩, ⟨.punctuation .comma, ⟨9, 10, 1, 10⟩⟩,
        ⟨.identifier "b", ⟨10, 11, 1, 11⟩⟩, ⟨.keyword .do, ⟨12, 14, 1, 13⟩⟩,
        ⟨.identifier "c", ⟨15, 16, 1, 16⟩⟩, ⟨.operator .add, ⟨16, 17, 1, 17⟩⟩,
        ⟨.operator .add, ⟨17, 18, 1, 18⟩⟩, ⟨.keyword .while, ⟨19, 24, 1, 20⟩⟩,
        ⟨.identifier "d", ⟨25, 26, 1, 26⟩⟩]
    let program : List Node :=
      [.forLoop (.declaration ⟨.identifier "i", ⟨8, 9, 1, 9⟩⟩ none ⟨4, 9, 1, 5⟩)
        (.leaf ⟨.identifier "b", ⟨10, 11, 1, 11⟩⟩)
        (.update ⟨.identifier "i", ⟨8, 9, 1, 9⟩⟩ .increment ⟨8, 9, 1, 9⟩)
        (.doWhileLoop (.leaf ⟨.identifier "d", ⟨25, 26, 1, 26⟩⟩)
          (.update ⟨.identifier "c", ⟨15, 16, 1, 16⟩⟩ .increment ⟨15, 18, 1, 16⟩)
          ⟨12, 26, 1, 13⟩)
        ⟨0, 26, 1, 1⟩]
    tokenize "for let i,b do c++ while d" = .ok tokens ∧
      (parseTokens {} tokens).outcome = .ok program ∧
      content (Node.listTokens program) = content tokens ∧
      (content tokens).map Token.text = ["i", "b", "c", "d"] := by
  dsimp only
  refine ⟨?scanned, ?parsed, content_of_parse ?scanned ?parsed, by rfl⟩
  · rfl
  · rfl

end Oreo
