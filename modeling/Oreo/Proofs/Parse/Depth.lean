import Mathlib.Algebra.Group.Nat.Defs
import Mathlib.Data.List.Chain
import Oreo.Proofs.Parse.Spans

/-!
# The limit on nesting bounds the depth of trees

However long a source is, the limit on nesting bounds how far its tree reaches down. Binary
operators are left out of the count: a chain of them nests on one level, as deep as it is long.

Most parts of a tree are read at a level of their own, and a level adds a node or two. An index
that is indexed again is another matter. `a[0][1][2]` grows around what was read before, when the
levels inside its brackets are closed again, so what is read there may use all of them once more.
Each further index takes a level from the rest of the chain, so that a chain adds as many nodes as
there are levels, on top of what one level less allows. This is why the bound is a square.
-/

namespace Oreo

/-- Whether the node is an operator between two operands. -/
def Node.isBinary : Node → Bool
  | .binary .. => true
  | _ => false

/-- One node hangs below another: it is one of its pieces. -/
def Node.Holds (node child : Node) : Prop := .node child ∈ node.pieces

/-- The number of nodes on a path that are no binary operators. -/
def nodesOn (path : List Node) : Nat := path.countP (!·.isBinary)

/-- No path down from the node has more than so many nodes, binary operators left out. -/
def Node.Within (bound : Nat) (node : Node) : Prop :=
  ∀ path, (node :: path).IsChain Node.Holds → nodesOn (node :: path) ≤ bound

/-- A node in front of a path counts as one more, unless it is an operator. -/
theorem nodesOn_cons (node : Node) (path : List Node) :
    nodesOn (node :: path) = nodesOn path + if node.isBinary then 0 else 1 := by
  cases binary : node.isBinary <;> simp [nodesOn, binary]

namespace Node.Within

variable {node : Node} {bound : Nat}

/-- A node within a bound is within every larger one. -/
theorem mono {larger : Nat} (within : node.Within bound) (le : bound ≤ larger) :
    node.Within larger :=
  fun path chain => Nat.le_trans (within path chain) le

/-- A node that is no operator counts on every path that begins with it. -/
theorem positive (within : node.Within bound) (plain : node.isBinary = false) : 0 < bound := by
  have counted := within [] (.singleton node)
  rw [nodesOn_cons, plain] at counted
  exact counted

/-- Below a node that is no operator, one node less is allowed. -/
theorem child {child : Node} (within : node.Within (bound + 1)) (plain : node.isBinary = false)
    (held : .node child ∈ node.pieces) : child.Within bound := by
  intro path chain
  have counted := within (child :: path) (.cons_cons held chain)
  rw [nodesOn_cons, plain] at counted
  exact Nat.le_of_succ_le_succ counted

end Node.Within

section

variable {node : Node} {bound : Nat}

/-- A path goes on below its first node, or ends there. -/
theorem nodesOn_below {path : List Node}
    (children : ∀ child, .node child ∈ node.pieces → child.Within bound)
    (chain : (node :: path).IsChain Node.Holds) : nodesOn path ≤ bound := by
  cases path with
  | nil => exact Nat.zero_le _
  | cons child path =>
    obtain ⟨held, follow⟩ := List.isChain_cons_cons.mp chain
    exact children child held path follow

/-- A node adds one to the paths down from its children. -/
theorem within_of_children (children : ∀ child, .node child ∈ node.pieces → child.Within bound) :
    node.Within (bound + 1) := by
  intro path chain
  have below := nodesOn_below children chain
  rw [nodesOn_cons]
  split <;> omega

/-- There is nothing below a leaf. -/
theorem within_leaf (token : Token) : (Node.leaf token).Within 1 := by
  apply within_of_children
  simp [Node.pieces]

/-- An operator adds nothing to its operands. -/
theorem within_binary {operator : Operator} {left right : Node} {location : Location}
    (first : left.Within bound) (second : right.Within bound) :
    (Node.binary operator left right location).Within bound := by
  intro path chain
  have below : nodesOn path ≤ bound := by
    refine nodesOn_below ?_ chain
    intro child held
    simp only [Node.pieces, List.mem_cons, Piece.node.injEq, List.not_mem_nil, or_false] at held
    rcases held with rfl | rfl
    · exact first
    · exact second
  rw [nodesOn_cons]
  exact below

/-- The name of a function reaches no further down than the call that it is read from. -/
theorem within_title {title : Node} {arguments : List Node}
    (split : node.signature? = some (title, arguments)) (within : node.Within bound) :
    title.Within bound := by
  fun_induction Node.signature? node generalizing title arguments bound with
  | case1 callee given location =>
    cases split
    obtain ⟨less, rfl⟩ := Nat.exists_eq_succ_of_ne_zero (within.positive rfl).ne'
    exact (within.child rfl (by simp [Node.pieces])).mono (Nat.le_succ less)
  | case2 owner property separator location name given inner ih =>
    cases split
    obtain ⟨less, rfl⟩ := Nat.exists_eq_succ_of_ne_zero (within.positive rfl).ne'
    have ownerWithin : owner.Within less := within.child rfl (by simp [Node.pieces])
    have nameWithin : name.Within less := ih inner (within.child rfl (by simp [Node.pieces]))
    apply within_of_children
    intro child held
    simp only [Node.pieces, List.mem_cons, Piece.node.injEq, List.not_mem_nil, or_false] at held
    rcases held with rfl | rfl
    · exact ownerWithin
    · exact nameWithin
  | case3 => cases split
  | case4 => cases split

end

/-- How many nodes a path may have if it is read where fewer than so many levels of nesting may be
opened. -/
def pathBound (levels : Nat) : Nat := (levels + 1) ^ 2

/-- One more level adds an odd number to the bound. -/
theorem pathBound_succ (levels : Nat) :
    pathBound (levels + 1) = pathBound levels + (2 * levels + 3) := by
  unfold pathBound
  grind

/-- One more level leaves the bound no smaller. -/
theorem pathBound_le_succ (levels : Nat) : pathBound levels ≤ pathBound (levels + 1) := by
  rw [pathBound_succ]
  omega

/-- No bound is zero. -/
theorem pathBound_pos (levels : Nat) : 0 < pathBound levels := Nat.pow_pos (Nat.succ_pos levels)

/-- How far what a part is read as may reach down, where so many levels of nesting may be opened. A
part that goes on behind something that was read before adds a number of nodes to it. -/
@[simp] def Part.Low (room : Nat) : (part : Part) → part.Result → Prop
  | .program, nodes | .alternatives, nodes => ∀ node ∈ nodes, node.Within (pathBound (room + 1))
  | .block, (nodes, _) => ∀ node ∈ nodes, node.Within (pathBound room)
  | .statements, (nodes, _) => ∀ node ∈ nodes, node.Within (pathBound (room + 1))
  | .conditional, node | .lambda, node => node.Within (pathBound (room + 1) + 1)
  | .climb left _, node =>
    left.Within (pathBound (room + 1)) → node.Within (pathBound (room + 1))
  | .members object, node =>
    ∀ bound, pathBound room ≤ bound → object.Within bound → node.Within (bound + 1)
  | .call callee, node =>
    ∀ bound, pathBound room ≤ bound → callee.Within bound → node.Within (bound + 2)
  | .indexed target, node =>
    ∀ bound, pathBound room ≤ bound → target.Within bound → node.Within (bound + room + 3)
  | .accessed target index _, node =>
    ∀ bound, pathBound room ≤ bound → target.Within bound → index.Within bound →
      node.Within (bound + room + 3)
  | .entry, written =>
    ∀ child, .node child ∈ written.pieces → child.Within (pathBound (room + 1))
  | .parameter, _ => True
  | .list _ item, (values, _) | .items _ item, (values, _) => ∀ value ∈ values, item.Low room value
  | .statement, node | .clauseBody, node | .body, node | .expression, node | .operand, node
  | .named _, node => node.Within (pathBound (room + 1))

/-- One level of nesting more allows for one node more, and for others. -/
theorem Node.Within.deeper {node : Node} {levels : Nat}
    (within : node.Within (pathBound levels + 1)) : node.Within (pathBound (levels + 1)) :=
  within.mono (by rw [pathBound_succ]; omega)

/-- A node may be put above pieces that were read one level deeper. -/
theorem within_of_nested {node : Node} {levels : Nat}
    (pieces : ∀ child, .node child ∈ node.pieces → child.Within (pathBound levels)) :
    node.Within (pathBound (levels + 1)) :=
  (within_of_children pieces).deeper

/-- A block is put above statements that were read one level deeper. -/
theorem within_block {body : List Node} {location : Location} {room : Nat}
    (low : Part.Low room .block (body, location)) :
    (Node.block body location).Within (pathBound (room + 1)) :=
  within_of_nested (by simpa [Node.pieces] using low)

/-- An update is within the bound of any level but the lowest. -/
theorem within_update (target : Token) (operator : UpdateOperator) (location : Location)
    (levels : Nat) : (Node.update target operator location).Within (pathBound (levels + 1)) :=
  within_of_nested (by simp [Node.pieces])

/-- An access adds a node to its target and its index. -/
theorem within_access {target index : Node} {bound : Nat} (targetLow : target.Within bound)
    (indexLow : index.Within bound) (location : Location) :
    (Node.access target index location).Within (bound + 1) := by
  refine within_of_children ?_
  simpa [Node.pieces] using And.intro targetLow indexLow

/-- A name is within the bound of any level. -/
theorem within_name (token : Token) (levels : Nat) : (Node.leaf token).Within (pathBound levels) :=
  (within_leaf token).mono (pathBound_pos levels)

/-- What is read reaches no further down than its part allows. -/
theorem Reads.low {part : Part} {room : Nat} {tokens rest : List Token} {value : part.Result}
    (reads : Reads part room tokens value rest) : part.Low room value := by
  induction reads with
  | programEnd => simp
  | programNext _ _ firstLow othersLow => simpa using And.intro firstLow othersLow
  | declared => exact within_of_nested (by simp [Node.pieces])
  | initialized _ _ _ _ valueLow => exact within_of_nested (by simpa [Node.pieces] using valueLow)
  | conditionalStatement _ _ conditionalLow => exact Node.Within.deeper conditionalLow
  | whileLoop _ _ _ testLow bodyLow =>
    exact within_of_nested (by simpa [Node.pieces] using And.intro testLow bodyLow)
  | doWhileLoop _ _ _ _ _ bodyLow testLow =>
    exact within_of_nested (by simpa [Node.pieces] using And.intro bodyLow testLow)
  | forLoop _ _ _ _ _ _ _ initialLow testLow updateLow bodyLow =>
    refine within_of_nested ?_
    simpa [Node.pieces] using And.intro initialLow ⟨testLow, updateLow, bodyLow⟩
  | forLoopByOne _ _ _ _ _ _ _ initialLow testLow bodyLow =>
    refine within_of_nested ?_
    simpa [Node.pieces] using And.intro initialLow ⟨testLow, within_update _ _ _ _, bodyLow⟩
  | switch _ _ _ subjectLow clausesLow =>
    have clausesLow := fun node listed => (clausesLow node listed).mono (pathBound_le_succ _)
    refine within_of_nested ?_
    simpa [Node.pieces] using And.intro subjectLow (by simpa using clausesLow)
  | caseClause _ _ _ _ valueLow othersLow bodyLow =>
    refine within_of_nested ?_
    simp only [Part.Low] at valueLow othersLow bodyLow
    simp only [Node.pieces, Clause.values_ofValues, List.mem_append, List.mem_map,
      List.mem_singleton]
    rintro child (⟨value, listed, same⟩ | same)
    · cases same
      rcases List.mem_cons.mp listed with rfl | listed
      · exact valueLow
      · exact othersLow _ listed
    · cases same
      exact bodyLow
  | defaultClause _ _ bodyLow => exact within_of_nested (by simpa [Node.pieces] using bodyLow)
  | lambdaStatement _ _ lambdaLow => exact Node.Within.deeper lambdaLow
  | function _ _ _ split _ _ signatureLow bodyLow =>
    have titleLow := within_title split signatureLow
    exact within_of_nested (by simpa [Node.pieces] using And.intro titleLow bodyLow)
  | returnsNothing => exact within_of_nested (by simp [Node.pieces])
  | returnsValue _ _ _ _ _ valueLow =>
    exact within_of_nested (by simpa [Node.pieces] using valueLow)
  | namedStatement _ _ namedLow => exact namedLow.mono (pathBound_le_succ _)
  | comment => exact within_name _ _
  | conditionalOnly _ _ _ _ _ testLow consequentLow =>
    refine within_of_children ?_
    simpa [Node.pieces] using And.intro testLow consequentLow
  | conditionalElse _ _ _ _ _ _ testLow consequentLow blockLow =>
    refine within_of_children ?_
    simpa [Node.pieces] using And.intro testLow ⟨consequentLow, within_block blockLow⟩
  | conditionalElseif _ _ _ _ _ _ testLow consequentLow alternateLow =>
    refine within_of_children ?_
    simpa [Node.pieces] using
      And.intro testLow ⟨consequentLow, Node.Within.deeper alternateLow⟩
  | alternativesEnd => simp
  | alternativesNext _ _ _ valueLow othersLow => simpa using And.intro valueLow othersLow
  | clauseBlock _ blockLow => exact within_block blockLow
  | clauseStatement _ _ statementLow => exact statementLow
  | bodyBlock _ blockLow => exact within_block blockLow
  | bodyStatement _ _ statementLow => exact statementLow
  | block _ _ bodyLow => exact bodyLow
  | statementsEnd => simp
  | statementsNext _ _ _ firstLow othersLow => simpa using And.intro firstLow othersLow
  | lambda _ _ _ _ _ bodyLow =>
    exact within_of_children (by simpa [Node.pieces] using bodyLow)
  | expressionOperand _ _ operandLow => exact operandLow
  | expressionBinary _ _ _ operandLow climbLow => exact climbLow operandLow
  | climbEnd => exact fun leftLow => leftLow
  | climbNext _ _ _ _ _ operandLow rightLow climbLow =>
    exact fun leftLow => climbLow (within_binary leftLow (rightLow operandLow))
  | unit => exact within_of_nested (by simp [Node.pieces])
  | parenthesized _ _ _ _ innerLow => exact innerLow.mono (pathBound_le_succ _)
  | array _ _ elementsLow => exact within_of_nested (by simpa [Node.pieces] using elementsLow)
  | object _ _ entriesLow =>
    refine within_of_nested ?_
    simp only [Node.pieces, List.mem_flatMap]
    rintro child ⟨written, listed, held⟩
    exact entriesLow written listed child held
  | negation _ _ operandLow => exact within_of_nested (by simpa [Node.pieces] using operandLow)
  | lambdaOperand _ _ lambdaLow => exact Node.Within.deeper lambdaLow
  | namedOperand _ _ namedLow => exact namedLow
  | literal => exact within_name _ _
  | nameLast => exact within_name _ _
  | nameAlone => exact within_name _ _
  | assigned _ _ _ valueLow => exact within_of_nested (by simpa [Node.pieces] using valueLow)
  | combined _ _ _ _ _ valueLow => exact within_of_nested (by simpa [Node.pieces] using valueLow)
  | updated => exact within_update _ _ _ _
  | called _ _ callLow =>
    refine (callLow _ (Nat.le_refl _) (within_name _ _)).mono ?_
    rw [pathBound_succ]
    omega
  | owner _ _ _ membersLow =>
    exact Node.Within.deeper (membersLow _ (Nat.le_refl _) (within_name _ _))
  | indexedName _ _ indexedLow =>
    -- This is the case for which the bound is a square.
    refine (indexedLow _ (Nat.le_refl _) (within_name _ _)).mono ?_
    rw [pathBound_succ]
    omega
  | membersEnd => exact fun bound _ objectLow => objectLow.mono (Nat.le_succ bound)
  | member _ _ _ propertyLow =>
    intro bound enough objectLow
    refine within_of_children ?_
    simpa [Node.pieces] using And.intro objectLow (propertyLow.mono enough)
  | call _ _ _ argumentsLow membersLow =>
    intro bound enough calleeLow
    refine membersLow (bound + 1) (Nat.le_succ_of_le enough) ?_
    refine within_of_children ?_
    have argumentsLow := fun node listed => (argumentsLow node listed).mono enough
    simpa [Node.pieces] using And.intro calleeLow argumentsLow
  | indexed _ _ _ _ indexLow accessedLow =>
    intro bound enough targetLow
    exact accessedLow bound enough targetLow (indexLow.mono enough)
  | elementAssigned _ _ valueLow =>
    intro bound enough targetLow indexLow
    have parts := And.intro targetLow (And.intro indexLow (valueLow.mono enough))
    have low (location : Location) :
        (Node.elementAssignment _ _ _ location).Within (bound + 1) :=
      within_of_children (by simpa [Node.pieces] using parts)
    exact (low _).mono (by omega)
  | elementCalled _ callLow =>
    intro bound enough targetLow indexLow
    have accessLow := within_access targetLow indexLow
    exact (callLow (bound + 1) (Nat.le_succ_of_le enough) (accessLow _)).mono (by omega)
  | elementIndexed _ indexedLow =>
    intro bound enough targetLow indexLow
    have accessLow := within_access targetLow indexLow
    have less := Nat.le_trans (pathBound_le_succ _) enough
    exact (indexedLow (bound + 1) (Nat.le_succ_of_le less) (accessLow _)).mono (by omega)
  | element _ _ _ _ membersLow =>
    intro bound enough targetLow indexLow
    have accessLow := within_access targetLow indexLow
    exact (membersLow (bound + 1) (Nat.le_succ_of_le enough) (accessLow _)).mono (by omega)
  | keyedValue _ _ _ _ _ keyLow valueLow =>
    have keyLow := keyLow.mono (pathBound_le_succ _)
    simpa [Entry.pieces] using And.intro keyLow valueLow
  | keyed _ _ _ _ keyLow =>
    have keyLow := keyLow.mono (pathBound_le_succ _)
    simpa [Entry.pieces] using keyLow
  | namedEntry _ _ _ valueLow => simpa [Entry.pieces] using And.intro (within_name _ _) valueLow
  | item _ _ _ valueLow => simpa [Entry.pieces] using valueLow
  | parameter => trivial
  | listEmpty => simp
  | listItems _ _ itemsLow => exact itemsLow
  | itemsEnd _ _ _ firstLow => simpa using firstLow
  | itemsNext _ _ _ _ _ firstLow othersLow => simpa using And.intro firstLow othersLow

/-- The limit on nesting bounds the depth of trees. For every source that is parsed, however long,
no path from a statement of the program down through its tree has more nodes, binary operators
left out, than the square of the limit and two. -/
theorem nodesOn_of_parse {options : Options} {source : String} {program : List Node}
    (parsed : parse options source = .ok program) {root : Node} {path : List Node}
    (listed : root ∈ program) (chain : (root :: path).IsChain Node.Holds) :
    nodesOn (root :: path) ≤ (options.maxDepth + 2) ^ 2 := by
  unfold parse at parsed
  split at parsed
  · contradiction
  rename_i tokens scanned
  split at parsed
  · contradiction
  rename_i outcome
  cases parsed
  have low : Part.Low options.maxDepth .program program := (reads_program outcome).1.low
  exact low root listed path chain

/-- Below the operator in `x = d + a[b][c]` the chain of indices leads down to its first name. The
operator does not count. -/
theorem nodesOn_of_parse_chain :
    let inner : Node := .access (.leaf ⟨.identifier "a", ⟨8, 9, 1, 9⟩⟩)
      (.leaf ⟨.identifier "b", ⟨10, 11, 1, 11⟩⟩) ⟨8, 12, 1, 9⟩
    let outer : Node := .access inner (.leaf ⟨.identifier "c", ⟨13, 14, 1, 14⟩⟩) ⟨8, 15, 1, 9⟩
    let sum : Node := .binary .add (.leaf ⟨.identifier "d", ⟨4, 5, 1, 5⟩⟩) outer ⟨4, 15, 1, 5⟩
    let root : Node := .assignment ⟨.identifier "x", ⟨0, 1, 1, 1⟩⟩ .assign sum ⟨0, 15, 1, 1⟩
    let path : List Node := [sum, outer, inner, .leaf ⟨.identifier "a", ⟨8, 9, 1, 9⟩⟩]
    parse { maxDepth := 4 } "x = d + a[b][c]" = .ok [root] ∧
      (root :: path).IsChain Node.Holds ∧ nodesOn (root :: path) = 4 ∧
      nodesOn (root :: path) ≤ (4 + 2) ^ 2 := by
  intro inner outer sum root path
  have scanned : tokenize "x = d + a[b][c]" = .ok
      [⟨.identifier "x", ⟨0, 1, 1, 1⟩⟩, ⟨.punctuation .equals, ⟨2, 3, 1, 3⟩⟩,
        ⟨.identifier "d", ⟨4, 5, 1, 5⟩⟩, ⟨.operator .add, ⟨6, 7, 1, 7⟩⟩,
        ⟨.identifier "a", ⟨8, 9, 1, 9⟩⟩, ⟨.punctuation .openBracket, ⟨9, 10, 1, 10⟩⟩,
        ⟨.identifier "b", ⟨10, 11, 1, 11⟩⟩, ⟨.punctuation .closeBracket, ⟨11, 12, 1, 12⟩⟩,
        ⟨.punctuation .openBracket, ⟨12, 13, 1, 13⟩⟩, ⟨.identifier "c", ⟨13, 14, 1, 14⟩⟩,
        ⟨.punctuation .closeBracket, ⟨14, 15, 1, 15⟩⟩] := by rfl
  have parsed : parse { maxDepth := 4 } "x = d + a[b][c]" = .ok [root] := by
    rw [parse, scanned]
    rfl
  have chain : (root :: path).IsChain Node.Holds := by
    refine .cons_cons ?_ (.cons_cons ?_ (.cons_cons ?_ (.cons_cons ?_ (.singleton _))))
    all_goals simp [Node.Holds, root, sum, outer, inner, Node.pieces]
  exact ⟨parsed, chain, rfl, nodesOn_of_parse parsed List.mem_cons_self chain⟩

end Oreo
