import Oreo.Proofs.Parse.Completeness
import Oreo.Proofs.Parse.Legible

/-!
# What is written is read back

Statements, cases and bodies are read back if their parts are, so every shaped tree is, by
induction on its shape. A program is read up to the end of its tokens, and that a program which can
be read is parsed is completeness of the parser.
-/

namespace Oreo

section Statements

/-- A name and what it leads is read as a statement. -/
theorem legible_statement {node : Node} (named : node.StartsWithName)
    (legible : Legible .named node) : Legible .statement node := by
  intro room rest enough ended _
  obtain ⟨room, rfl⟩ := Nat.exists_eq_add_of_le' (show 1 ≤ room by omega)
  have read : Reads (.named true) room (node.print ++ rest) node.unplaced rest :=
    legible (by omega) ended
  obtain ⟨name, others, same, nameKind⟩ := named.append rest
  rw [same] at read ⊢
  exact .namedStatement nameKind read

/-- A comment is read as a statement. -/
theorem legible_comment {token : Token} (comment : token.isComment = true) :
    Legible .statement (.leaf token) := by
  intro room rest enough _ _
  obtain ⟨room, rfl⟩ := Nat.exists_eq_add_of_le' (show 1 ≤ room by omega)
  exact .comment comment

/-- A new variable is read as what it is. -/
theorem legible_declaration {token : Token} {initial : Option Node} {location : Location}
    (nameKind : token.isIdentifier = true)
    (legible : ∀ node, initial = some node → Legible .value node) :
    Legible .statement (.declaration token initial location) := by
  intro room rest enough ended _
  rw [Node.levels] at enough
  obtain ⟨room, rfl⟩ := Nat.exists_eq_add_of_le' (show 1 ≤ room by omega)
  cases initial with
  | none =>
    exact .declared (.inl rfl) nameKind (startsWith_of_ends ended (by decide))
  | some node =>
    rw [Node.optionLevels] at enough
    have place : (Token.ofKeyword .let).location.through node.unplaced.location = {} :=
      node.through_unplaced rfl
    simp only [Node.print, Node.printAssigned, Node.unplaced, Node.optionUnplaced,
      List.cons_append]
    rw [← place]
    exact .initialized (.inl rfl) nameKind rfl
      (reads_value (legible node rfl) (by omega) (startsBinary_of_ends ended))

/-- The brace of a body ends what stands before it. -/
theorem ends_of_body {node : Node} {rest : List Token} (legible : Legible .body node) :
    ends (node.print ++ rest) = true := by
  obtain ⟨nodes, location, rfl, _⟩ := legible
  rfl

/-- A loop that tests before each round is read as what it is. -/
theorem legible_whileLoop {test body : Node} {location : Location}
    (testLegible : Legible .value test) (bodyLegible : Legible .body body) :
    Legible .statement (.whileLoop test body location) := by
  intro room rest enough _ _
  rw [Node.levels] at enough
  obtain ⟨room, rfl⟩ := Nat.exists_eq_add_of_le' (show 1 ≤ room by omega)
  have place : (Token.ofKeyword .while).location.through body.unplaced.location = {} :=
    body.through_unplaced rfl
  simp only [Node.print, Node.unplaced, List.cons_append, List.append_assoc]
  rw [← place]
  exact .whileLoop rfl
    (reads_value testLegible (by omega) (startsBinary_of_ends (ends_of_body bodyLegible)))
    (reads_body bodyLegible (by omega))

/-- A loop that tests after each round is read as what it is. -/
theorem legible_doWhileLoop {test body : Node} {location : Location}
    (testLegible : Legible .value test) (bodyLegible : Legible .body body) :
    Legible .statement (.doWhileLoop test body location) := by
  intro room rest enough ended _
  rw [Node.levels] at enough
  obtain ⟨room, rfl⟩ := Nat.exists_eq_add_of_le' (show 1 ≤ room by omega)
  have place : (Token.ofKeyword .do).location.through test.unplaced.location = {} :=
    test.through_unplaced rfl
  simp only [Node.print, Node.unplaced, List.cons_append, List.append_assoc]
  rw [← place]
  exact .doWhileLoop rfl (reads_body bodyLegible (by omega)) rfl rfl
    (reads_value testLegible (by omega) (startsBinary_of_ends ended))

/-- A loop with a start, a test and a step is read as what it is. -/
theorem legible_forLoop {initial test update body : Node} {location : Location}
    (initialLegible : Legible .statement initial) (testLegible : Legible .value test)
    (updateLegible : Legible .statement update) (bodyLegible : Legible .body body)
    (initialGiven : initial.isBareReturn = false) (updateGiven : update.isBareReturn = false) :
    Legible .statement (.forLoop initial test update body location) := by
  intro room rest enough _ _
  rw [Node.levels] at enough
  obtain ⟨room, rfl⟩ := Nat.exists_eq_add_of_le' (show 1 ≤ room by omega)
  have place : (Token.ofKeyword .for).location.through body.unplaced.location = {} :=
    body.through_unplaced rfl
  have opened : ends (body.print ++ rest) = true := ends_of_body bodyLegible
  simp only [Node.print, Node.unplaced, List.cons_append, List.append_assoc]
  rw [← place]
  exact .forLoop rfl (initialLegible (by omega) rfl (by simp [initialGiven])) rfl
    (reads_value testLegible (by omega) (startsBinary_of_mark rfl)) rfl
    (updateLegible (by omega) opened (by simp [updateGiven])) (reads_body bodyLegible (by omega))

/-- A function with a name is read as what it is. -/
theorem legible_function {title body : Node} {parameters : List Token} {location : Location}
    (shaped : Shaped .title title) (titleLegible : Legible .title title)
    (names : ∀ parameter ∈ parameters, parameter.isIdentifier = true)
    (bodyLegible : Legible .body body) :
    Legible .statement (.function title parameters body location) := by
  intro room rest enough _ _
  rw [Node.levels] at enough
  obtain ⟨room, rfl⟩ := Nat.exists_eq_add_of_le' (show 1 ≤ room by omega)
  have place : (Token.ofKeyword .fn).location.through body.unplaced.location = {} :=
    body.through_unplaced rfl
  have opened : ends (body.print ++ rest) = true := ends_of_body bodyLegible
  have split := shaped.signature?_calledWith ((parameters.map Token.unplaced).map Node.leaf)
  have unplacedNames : ∀ name ∈ parameters.map Token.unplaced, name.isIdentifier = true := by
    intro name member
    obtain ⟨parameter, listed, rfl⟩ := List.mem_map.mp member
    exact names parameter listed
  have signatureRead := titleLegible (show title.titleLevels ≤ room by omega) names opened
  obtain ⟨name, others, same, nameKind⟩ :=
    (shaped.startsWithName (by simp)).append (printParameters parameters ++ (body.print ++ rest))
  simp only [Node.print, Node.unplaced, List.cons_append, List.append_assoc]
  rw [same] at signatureRead ⊢
  rw [← place]
  exact .function rfl nameKind signatureRead split unplacedNames
    (reads_body bodyLegible (by omega))

/-- A function without a name is read as a statement. -/
theorem legible_statementLambda {parameters : List Token} {node : Node} {location : Location}
    (names : ∀ parameter ∈ parameters, parameter.isIdentifier = true)
    (legible : Legible .body node) : Legible .statement (.lambda parameters node location) := by
  intro room rest enough _ _
  rw [Node.levels] at enough
  obtain ⟨room, rfl⟩ := Nat.exists_eq_add_of_le' (show 1 ≤ room by omega)
  exact .lambdaStatement rfl (reads_lambda names legible (by omega))

/-- The end of a function is read as what it is. -/
theorem legible_returns {result : Option Node} {location : Location}
    (legible : ∀ node, result = some node → Legible .value node) :
    Legible .statement (.returns result location) := by
  intro room rest enough ended bare
  rw [Node.levels] at enough
  obtain ⟨room, rfl⟩ := Nat.exists_eq_add_of_le' (show 1 ≤ room by omega)
  cases result with
  | none => exact .returnsNothing rfl (.inr (.inl (bare rfl)))
  | some node =>
    rw [Node.optionLevels] at enough
    have place : (Token.ofKeyword .return).location.through node.unplaced.location = {} :=
      node.through_unplaced rfl
    simp only [Node.print, Node.printValue, Node.unplaced, Node.optionUnplaced, List.cons_append]
    rw [← place]
    exact .returnsValue rfl (by simp [enclosed]) rfl rfl
      (reads_value (legible node rfl) (by omega) (startsBinary_of_ends ended))

/-- A test with nothing to do otherwise is read as what it is. -/
theorem legible_conditionalOnly {test consequent : Node} {location : Location}
    (testLegible : Legible .value test) (bodyLegible : Legible .body consequent) :
    Legible .conditional (.conditional test consequent none location) := by
  refine ⟨rfl, ?_⟩
  intro keyword room rest placed kind enough ended
  rw [Node.levels] at enough
  have place : keyword.location.through consequent.unplaced.location = {} :=
    consequent.through_unplaced placed
  simp only [Node.print, Node.printAlternate, Node.unplaced, Node.optionUnplaced,
    List.cons_append, List.tail_cons, List.append_assoc, List.nil_append]
  rw [← place]
  exact .conditionalOnly kind
    (reads_value testLegible (by omega) (startsBinary_of_ends (ends_of_body bodyLegible)))
    (reads_body bodyLegible (by omega)) (alternateAhead_of_ends ended).1
    (alternateAhead_of_ends ended).2

/-- A test with a block behind `else` is read as what it is. -/
theorem legible_conditionalElse {test consequent alternate : Node} {location : Location}
    (testLegible : Legible .value test) (bodyLegible : Legible .body consequent)
    (alternateLegible : Legible .body alternate) :
    Legible .conditional (.conditional test consequent (some alternate) location) := by
  refine ⟨rfl, ?_⟩
  intro keyword room rest placed kind enough ended
  obtain ⟨nodes, place, rfl, blockRead⟩ := alternateLegible
  have other : ¬ (Node.block nodes place).isConditional = true := Bool.false_ne_true
  rw [Node.levels, Node.alternateLevels, if_neg other] at enough
  rw [Node.print, Node.printAlternate, if_neg other]
  simp only [List.cons_append, List.tail_cons, List.append_assoc]
  have blockRead : Reads .block room ((Node.block nodes place).print ++ rest)
      (Node.listUnplaced nodes, {}) rest := blockRead (by omega)
  have ahead : alternateAhead (.ofKeyword .else :: ((Node.block nodes place).print ++ rest)) =
      .ofKeyword .else :: ((Node.block nodes place).print ++ rest) := rfl
  have read := Reads.conditionalElse kind
    (reads_value testLegible (by omega) (startsBinary_of_ends (ends_of_body bodyLegible)))
    (reads_body bodyLegible (by omega)) ahead rfl blockRead
  rw [placed] at read
  exact read

/-- A test with another behind `elseif` is read as what it is. -/
theorem legible_conditionalElseif {test consequent alternate : Node} {location : Location}
    (testLegible : Legible .value test) (bodyLegible : Legible .body consequent)
    (alternateLegible : Legible .conditional alternate) :
    Legible .conditional (.conditional test consequent (some alternate) location) := by
  refine ⟨rfl, ?_⟩
  intro keyword room rest placed kind enough ended
  obtain ⟨other, alternateRead⟩ := alternateLegible
  rw [Node.levels, Node.alternateLevels, if_pos other] at enough
  obtain ⟨room, rfl⟩ := Nat.exists_eq_add_of_le' (show 1 ≤ room by omega)
  have place : keyword.location.through alternate.unplaced.location = {} :=
    alternate.through_unplaced placed
  simp only [Node.print, Node.printAlternate, other, ↓reduceIte, Node.unplaced,
    Node.optionUnplaced, List.cons_append, List.tail_cons, List.append_assoc]
  rw [← place]
  exact .conditionalElseif kind
    (reads_value testLegible (by omega) (startsBinary_of_ends (ends_of_body bodyLegible)))
    (reads_body bodyLegible (by omega)) rfl rfl
    (alternateRead rfl (.inr rfl) (by omega) ended)

/-- A test is read as a statement. -/
theorem legible_conditionalStatement {node : Node} (legible : Legible .conditional node) :
    Legible .statement node := by
  intro room rest enough ended _
  obtain ⟨other, read⟩ := legible
  obtain ⟨room, rfl⟩ := Nat.exists_eq_add_of_le' (show 1 ≤ room by omega)
  cases node with
  | conditional test consequent alternate location =>
    exact .conditionalStatement rfl (read rfl (.inl rfl) (by omega) ended)
  | _ => cases other

/-- Further values of a case are read before its body. -/
theorem reads_others {nodes : List Node} {body : Node} {room : Nat} {rest : List Token}
    (legible : ∀ node ∈ nodes, Legible .value node) (bodyLegible : Legible .body body)
    (enough : Node.valueLevels nodes ≤ room) :
    Reads .alternatives room (Node.printOthers nodes ++ (body.print ++ rest))
        (Node.listUnplaced nodes) (body.print ++ rest) ∧
      startsBinary (Node.printOthers nodes ++ (body.print ++ rest)) = false := by
  induction nodes with
  | nil =>
    obtain ⟨nodes, location, rfl, _⟩ := bodyLegible
    exact ⟨.alternativesEnd rfl, startsBinary_of_mark rfl⟩
  | cons node nodes ih =>
    rw [Node.valueLevels] at enough
    obtain ⟨first, others⟩ := List.forall_mem_cons.mp legible
    obtain ⟨behind, ahead⟩ := ih others (by omega)
    simp only [Node.printOthers, Node.listUnplaced, List.cons_append, List.append_assoc]
    exact ⟨.alternativesNext rfl (reads_value first (by omega) ahead) behind,
      startsBinary_of_mark rfl⟩

/-- The body of a case is read behind its values. -/
theorem reads_clauseBody {body : Node} {room : Nat} {rest : List Token}
    (legible : Legible .body body) (enough : body.levels ≤ room) :
    Reads .clauseBody room (body.print ++ rest) body.unplaced rest := by
  obtain ⟨nodes, location, rfl, read⟩ := legible
  exact .clauseBlock (read enough)

/-- The default is read as a statement, whatever stands behind it. -/
theorem legible_fallback {body : Node} {location : Location} (legible : Legible .body body) :
    Legible .clause (.clause (.fallback body location)) := by
  intro room rest enough
  rw [Node.levels, Clause.fallback, Clause.levels] at enough
  obtain ⟨room, rfl⟩ := Nat.exists_eq_add_of_le' (show 1 ≤ room by omega)
  have place : (Token.ofKeyword .default).location.through body.unplaced.location = {} :=
    body.through_unplaced rfl
  simp only [Node.print, Clause.fallback, Clause.print, Pattern.print, Node.unplaced,
    Clause.unplaced, Pattern.unplaced, List.cons_append]
  rw [← place]
  exact .defaultClause rfl (reads_clauseBody legible (by omega))

/-- A case with values is read as a statement, whatever stands behind it. -/
theorem legible_ofValues {first body : Node} {others : List Node} {location : Location}
    (firstLegible : Legible .value first) (legible : ∀ value ∈ others, Legible .value value)
    (bodyLegible : Legible .body body) :
    Legible .clause (.clause (.ofValues first others body location)) := by
  intro room rest enough
  rw [Node.levels, Clause.ofValues, Clause.levels, Pattern.levels_ofValues] at enough
  obtain ⟨room, rfl⟩ := Nat.exists_eq_add_of_le' (show 1 ≤ room by omega)
  have place : (Token.ofKeyword .case).location.through body.unplaced.location = {} :=
    body.through_unplaced rfl
  have fits : Node.valueLevels others ≤ room := by omega
  obtain ⟨othersRead, ahead⟩ := reads_others legible bodyLegible fits
  simp only [Node.print, Clause.ofValues, Clause.print, Pattern.print_ofValues, Node.unplaced,
    Clause.unplaced, Pattern.unplaced_ofValues, List.cons_append, List.append_assoc]
  rw [← place]
  exact .caseClause rfl (reads_value firstLegible (by omega) ahead) othersRead
    (reads_clauseBody bodyLegible (by omega))

/-- The tree is a statement of a block, a switch or a program: it begins like one, and is read
before the semicolon that stands behind it. -/
structure Node.Separable (node : Node) : Prop where
  /-- The printed tokens begin a statement. -/
  opens : ∃ token others, node.print = token :: others ∧ token.opensStatement = true
  /-- The printed tokens are read back where they end a statement. -/
  reads : ∀ {room rest}, node.levels + 1 ≤ room → ends (.ofMark .semicolon :: rest) = true →
    Reads .statement room (node.print ++ .ofMark .semicolon :: rest) node.unplaced
      (.ofMark .semicolon :: rest)

/-- A statement of a block does not begin with the brace that closes the block. -/
theorem Node.Separable.noBrace {node : Node} (separable : node.Separable) (rest : List Token) :
    startsWith .closeBrace (node.print ++ rest) = false := by
  obtain ⟨token, others, same, opens⟩ := separable.opens
  have other : ¬ token.kind = .punctuation .closeBrace := by
    intro kind
    simp [Token.opensStatement, kind] at opens
  simpa [same] using other

/-- A statement does not begin with `else` or `elseif`. -/
theorem Node.Separable.noElse {node : Node} (separable : node.Separable) (rest : List Token) :
    startsWithKeyword .else (node.print ++ rest) = false ∧
      startsWithKeyword .elseif (node.print ++ rest) = false := by
  obtain ⟨token, others, same, opens⟩ := separable.opens
  have other : ¬ token.kind = .keyword .else ∧ ¬ token.kind = .keyword .elseif := by
    constructor <;> intro kind <;> simp [Token.opensStatement, kind] at opens
  simpa [same] using other

/-- Behind the semicolon of a statement stands no `else`. -/
theorem ends_printBody {nodes : List Node} {rest : List Token}
    (separable : ∀ node ∈ nodes, node.Separable)
    (noElse : startsWithKeyword .else rest = false)
    (noElseif : startsWithKeyword .elseif rest = false) :
    ends (.ofMark .semicolon :: (Node.printBody nodes ++ rest)) = true := by
  have settled : startsWithKeyword .else (Node.printBody nodes ++ rest) = false ∧
      startsWithKeyword .elseif (Node.printBody nodes ++ rest) = false := by
    cases nodes with
    | nil => exact ⟨noElse, noElseif⟩
    | cons node nodes =>
      have first := separable node (by simp)
      simp only [Node.printBody, List.append_assoc]
      exact first.noElse _
  simp [ends, Token.ofMark, settled]

/-- Statements with a semicolon behind each are read up to a closing brace. -/
theorem reads_statements {nodes : List Node} {room : Nat} {rest : List Token}
    (separable : ∀ node ∈ nodes, node.Separable)
    (enough : Node.statementLevels nodes ≤ room) :
    Reads .statements room (Node.printBody nodes ++ .ofMark .closeBrace :: rest)
      (Node.listUnplaced nodes, {}) rest := by
  induction nodes with
  | nil => exact .statementsEnd rfl
  | cons node nodes ih =>
    rw [Node.statementLevels] at enough
    obtain ⟨first, others⟩ := List.forall_mem_cons.mp separable
    simp only [Node.printBody, Node.listUnplaced, List.append_assoc, List.cons_append]
    exact .statementsNext (first.noBrace _)
      (first.reads (by omega) (ends_printBody others rfl rfl)) (ih others (by omega))

/-- Statements with a semicolon behind each are read up to the end of the source. -/
theorem reads_printBody {nodes : List Node} {room : Nat}
    (separable : ∀ node ∈ nodes, node.Separable)
    (enough : Node.statementLevels nodes ≤ room) :
    Reads .program room (Node.printBody nodes) (Node.listUnplaced nodes) [] := by
  induction nodes with
  | nil => exact .programEnd
  | cons node nodes ih =>
    rw [Node.statementLevels] at enough
    obtain ⟨first, others⟩ := List.forall_mem_cons.mp separable
    have ended := ends_printBody others (rfl : startsWithKeyword .else [] = false) rfl
    rw [List.append_nil] at ended
    exact .programNext (first.reads (by omega) ended) (ih others (by omega))

/-- Statements in braces are read as a body. -/
theorem legible_body {nodes : List Node} {location : Location}
    (separable : ∀ node ∈ nodes, node.Separable) : Legible .body (.block nodes location) := by
  refine ⟨nodes, location, rfl, ?_⟩
  intro room rest enough
  rw [Node.levels] at enough
  obtain ⟨room, rfl⟩ := Nat.exists_eq_add_of_le' (show 1 ≤ room by omega)
  simp only [Node.print, List.cons_append, List.append_assoc, List.nil_append]
  exact .block rfl (reads_statements separable (by omega))

/-- A choice among cases is read as what it is. -/
theorem legible_switch {subject : Node} {branches : List Clause} {location : Location}
    (legible : Legible .value subject)
    (separable : ∀ branch ∈ branches, (Node.clause branch).Separable) :
    Legible .statement (.switch subject branches location) := by
  intro room rest enough _ _
  rw [Node.levels, Clause.listLevels_eq] at enough
  obtain ⟨room, rfl⟩ := Nat.exists_eq_add_of_le' (show 1 ≤ room by omega)
  have separable : ∀ node ∈ branches.map Node.clause, node.Separable := by
    intro node member
    obtain ⟨branch, listed, rfl⟩ := List.mem_map.mp member
    exact separable branch listed
  have clausesRead : Reads .block room
      (.ofMark .openBrace :: (Clause.printBody branches ++ .ofMark .closeBrace :: rest))
      ((Clause.listUnplaced branches).map Node.clause, {}) rest := by
    rw [Clause.printBody_eq, Clause.listUnplaced_eq]
    obtain ⟨room, rfl⟩ := Nat.exists_eq_add_of_le' (show 1 ≤ room by omega)
    exact .block rfl (reads_statements separable (by omega))
  simp only [Node.print, Node.unplaced, List.cons_append, List.append_assoc, List.nil_append]
  exact .switch rfl (reads_value legible (by omega) (startsBinary_of_mark rfl)) clausesRead

end Statements

/-- A statement of a block or a program can be followed by a semicolon. -/
theorem Shaped.separable {node : Node} (shaped : Shaped .statement node)
    (legible : Legible .statement node) : node.Separable where
  opens := shaped.opens (.inl rfl)
  reads enough ended := legible enough ended fun _ => rfl

/-- A case of a switch can be followed by a semicolon. -/
theorem Shaped.separableClause {node : Node} (shaped : Shaped .clause node)
    (legible : Legible .clause node) : node.Separable where
  opens := shaped.opens (.inr (.inr rfl))
  reads enough _ := legible enough

/-- Every shaped tree is read back in its place. -/
theorem Shaped.legible {role : Role} {node : Node} (shaped : Shaped role node) :
    Legible role node := by
  induction shaped with
  | name nameKind => exact leads_name nameKind
  | access _ _ target index => exact leads_access target index
  | ownerHead _ head => exact head.members
  | ownerCall _ _ callee arguments => exact legible_call callee arguments
  | titleHead shaped head => exact legible_title shaped head
  | titleMember _ shaped object property =>
    exact legible_titleMember object (shaped.startsWithName (by simp)) property
  | namedOwner _ owner => exact legible_owner owner
  | update nameKind => exact legible_update nameKind
  | assignment nameKind _ value => exact legible_assignment nameKind value
  | elementAssignment _ _ _ target index value =>
    exact legible_elementAssignment target index value
  | member _ shaped object property =>
    exact legible_member object (shaped.startsWithName (by simp)) property
  | valueNamed shaped named => exact legible_named (shaped.startsWithName (by simp)) named
  | literal operand => exact legible_literal operand
  | binary _ _ left right => exact legible_binary left right
  | negation _ operand => exact legible_negation operand
  | array _ elements => exact legible_array elements
  | object names _ parts => exact legible_object names parts
  | unit => exact legible_unit
  | valueLambda names _ body => exact legible_lambda names body
  | statementNamed shaped named => exact legible_statement (shaped.startsWithName (by simp)) named
  | comment comment => exact legible_comment comment
  | declaration nameKind _ value => exact legible_declaration nameKind value
  | statementConditional _ conditional => exact legible_conditionalStatement conditional
  | whileLoop _ _ test body => exact legible_whileLoop test body
  | doWhileLoop _ _ test body => exact legible_doWhileLoop test body
  | forLoop _ _ _ _ initialGiven updateGiven initial test update body =>
    exact legible_forLoop initial test update body initialGiven updateGiven
  | switch _ shaped subject clauses =>
    exact legible_switch subject fun branch member =>
      (shaped branch member).separableClause (clauses branch member)
  | function shaped names _ title body => exact legible_function shaped title names body
  | statementLambda names _ body => exact legible_statementLambda names body
  | returns _ value => exact legible_returns value
  | conditionalOnly _ _ test consequent => exact legible_conditionalOnly test consequent
  | conditionalElse _ _ _ test consequent alternate =>
    exact legible_conditionalElse test consequent alternate
  | conditionalElseif _ _ _ test consequent alternate =>
    exact legible_conditionalElseif test consequent alternate
  | caseClause _ _ _ value others body => exact legible_ofValues value others body
  | defaultClause _ body => exact legible_fallback body
  | body shaped statements =>
    exact legible_body fun statement member =>
      (shaped statement member).separable (statements statement member)

/-- What is written is read back: the tokens of a program whose statements are shaped are parsed,
if the options accept the levels of nesting that it opens, and the result is the program without
its places. -/
theorem parse_print {program : List Node} {options : Options}
    (shaped : ∀ statement ∈ program, Shaped .statement statement)
    (enough : Node.statementLevels program ≤ options.maxDepth) :
    (parseTokens options (Node.printBody program)).outcome = .ok (Node.listUnplaced program) := by
  have separable : ∀ statement ∈ program, statement.Separable := fun statement member =>
    (shaped statement member).separable (shaped statement member).legible
  have inside : (Node.listUnplaced program).findSome? Node.clause? = none := by
    rw [Node.listUnplaced_eq, List.findSome?_eq_none_iff]
    intro node member
    obtain ⟨statement, listed, rfl⟩ := List.mem_map.mp member
    exact (shaped statement listed).clause?_unplaced
  exact parseTokens_eq_ok_iff.mpr ⟨reads_printBody separable enough, inside⟩

/-- A function whose name is a member, with a test and another test behind it in its body, and a
call in the body of the second. -/
theorem parse_print_method :
    (parseTokens { maxDepth := 8 } (Node.printBody
      [.function (.member (.leaf ⟨.identifier "o", ⟨3, 4, 1, 4⟩⟩) (.leaf ⟨.identifier "m", {}⟩)
          .colon {}) [⟨.identifier "p", {}⟩]
        (.block [.conditional (.leaf ⟨.boolean true, {}⟩) (.block [] {})
          (some (.conditional (.leaf ⟨.identifier "p", {}⟩)
            (.block [.call (.leaf ⟨.identifier "p", {}⟩) [.leaf ⟨.identifier "p", {}⟩] {}] {})
            none {})) {}] {}) {}])).outcome = .ok
      [.function (.member (.leaf ⟨.identifier "o", {}⟩) (.leaf ⟨.identifier "m", {}⟩) .colon {})
        [⟨.identifier "p", {}⟩]
        (.block [.conditional (.leaf ⟨.boolean true, {}⟩) (.block [] {})
          (some (.conditional (.leaf ⟨.identifier "p", {}⟩)
            (.block [.call (.leaf ⟨.identifier "p", {}⟩) [.leaf ⟨.identifier "p", {}⟩] {}] {})
            none {})) {}] {}) {}] := by
  have value : Shaped .value (.leaf ⟨.identifier "p", {}⟩) :=
    .valueNamed (.namedOwner (.ownerHead (.name rfl)))
  have call : Shaped .statement (.call (.leaf ⟨.identifier "p", {}⟩)
      [.leaf ⟨.identifier "p", {}⟩] {}) :=
    .statementNamed (.namedOwner (.ownerCall (.name rfl) (by simpa using value)))
  refine parse_print ?_ (by decide)
  simp only [List.mem_singleton, forall_eq]
  refine .function (.titleMember (.ownerHead (.name rfl)) (.titleHead (.name rfl)))
    (by simp [Token.isIdentifier]) (.body ?_)
  simp only [List.mem_singleton, forall_eq]
  exact .statementConditional (.conditionalElseif (.literal rfl) (.body (by simp))
    (.conditionalOnly value (.body (by simpa using call))))

end Oreo
