import Oreo.Proofs.Parse.Soundness

/-!
# Whatever can be read is parsed

A grammar covers a number of tokens if each of its parsers finds every reading of fewer tokens
than that. A rule passes a token before it asks the grammar for a part, so a rule whose grammar
covers a number of tokens finds the readings of that many tokens itself; the grammar for any
number of tokens covers it, by induction on the number. The loops inside the rules are bounded by
the number of tokens in front of them, and each round takes at least one.

With soundness, the parser succeeds exactly with the readings of its tokens.
-/

namespace Oreo

open Oreo.Parser

variable {limit room bound : Nat} {last : Option Token} {tokens rest : List Token} {node : Node}
  {token : Token}

namespace Grammar

/-- Each parser of the grammar finds the readings of fewer tokens than the bound. -/
structure Covers (parse : Grammar) (bound : Nat) : Prop where
  statement : ∀ {limit room last tokens node rest}, tokens.length < bound →
    Reads .statement room tokens node rest →
    (parse .statement).Yields ⟨limit, room, last⟩ tokens node rest
  expression : ∀ {limit room last tokens node rest}, tokens.length < bound →
    Reads .expression room tokens node rest →
    (parse .expression).Yields ⟨limit, room, last⟩ tokens node rest
  named : ∀ {limit room last tokens node rest}, tokens.length < bound →
    Reads (.named false) room tokens node rest →
    (parse .named).Yields ⟨limit, room, last⟩ tokens node rest
  indexed : ∀ {limit room last target tokens node rest}, tokens.length < bound →
    Reads (.indexed target) room tokens node rest →
    (parse (.indexed target)).Yields ⟨limit, room, last⟩ tokens node rest
  conditional : ∀ {limit room last tokens node rest}, tokens.length < bound →
    Reads .conditional room tokens node rest →
    (parse .conditional).Yields ⟨limit, room, last⟩ tokens node rest

end Grammar

/-- Items that can be read are found one by one. -/
theorem yields_separated {bracket : Bracket} {context : Construct} {opened place : Location}
    {part : Part} {item : Parser part.Result} {values : List part.Result} {budget : Nat}
    (takes : part.cost = 1)
    (complete : ∀ {tokens value rest}, tokens.length < bound → Reads part room tokens value rest →
      item.Yields ⟨limit, room, last⟩ tokens value rest)
    (covered : tokens.length < bound) (enough : tokens.length ≤ budget)
    (reads : Reads (.items bracket part) room tokens (values, place) rest) :
    (separated bracket context opened item budget).Yields ⟨limit, room, last⟩ tokens
      (values, place) rest := by
  induction budget generalizing tokens values with
  | zero =>
    have taken := reads.cost_le
    simp only [Part.cost] at taken
    omega
  | succ budget ih =>
    cases tokens with
    | nil =>
      have taken := reads.cost_le
      simp [Part.cost] at taken
    | cons token tokens =>
      have noComma : ¬ token.isMark .comma = true := by
        cases reads with
        | itemsEnd ahead _ _ | itemsNext ahead _ _ _ _ => simpa using ahead
      rw [separated, yields_peek_bind, List.head?_cons]
      simp only [noComma, Bool.false_eq_true, ↓reduceIte]
      cases reads with
      | itemsEnd ahead firstRead closedKind =>
        rw [(complete covered firstRead).bind_iff,
          yields_eat_absent (by cases bracket <;> simp [closedKind, Bracket.closer]),
          yields_expectClosing_bind closedKind]
        exact yields_pure.mpr ⟨rfl, rfl⟩
      | itemsNext ahead firstRead commaKind more othersRead =>
        have taken := firstRead.cost_le
        simp only [List.length_cons, takes] at taken covered enough
        rw [(complete (by simpa using covered) firstRead).bind_iff, yields_eat_present commaKind,
          yields_sees_bind, more]
        have others := ih (by omega) (by omega) othersRead
        rw [if_neg Bool.false_ne_true, others.bind_iff]
        exact yields_pure.mpr ⟨rfl, rfl⟩

/-- A list that can be read is found. -/
theorem yields_delimited {bracket : Bracket} {context : Construct} {opened place : Location}
    {part : Part} {item : Parser part.Result} {values : List part.Result}
    (takes : part.cost = 1)
    (complete : ∀ {tokens value rest}, tokens.length < bound → Reads part room tokens value rest →
      item.Yields ⟨limit, room, last⟩ tokens value rest)
    (covered : tokens.length < bound)
    (reads : Reads (.list bracket part) room tokens (values, place) rest) :
    (delimited bracket context opened item).Yields ⟨limit, room, last⟩ tokens (values, place)
      rest := by
  rw [delimited]
  cases reads with
  | listEmpty closedKind =>
    rw [yields_eat_present closedKind]
    exact yields_pure.mpr ⟨rfl, rfl⟩
  | listItems ahead itemsRead =>
    rw [yields_eat_absent ahead, yields_left_bind]
    exact yields_separated takes complete covered (Nat.le_refl _) itemsRead

/-- A parameter that can be read is found. -/
theorem yields_of_parameter {context : Construct} {name : Token}
    (reads : Reads .parameter room tokens name rest) :
    (expectIdentifier context).Yields ⟨limit, room, last⟩ tokens name rest := by
  cases reads with
  | parameter nameKind => exact yields_expectIdentifier.mpr ⟨rfl, nameKind⟩

/-- A block begins with a brace. -/
theorem startsWith_of_block {body : List Node} {location : Location}
    (reads : Reads .block room tokens (body, location) rest) :
    startsWith .openBrace tokens = true := by
  cases reads with
  | block openedKind bodyRead => simp [openedKind]

/-- Arguments begin with a parenthesis. -/
theorem startsWith_of_call {callee : Node} (reads : Reads (.call callee) room tokens node rest) :
    startsWith .openParen tokens = true := by
  cases reads with
  | call openedKind argumentsRead membersRead => simp [openedKind]

/-- An index begins with a bracket. -/
theorem startsWith_of_indexed {target : Node}
    (reads : Reads (.indexed target) room tokens node rest) :
    startsWith .openBracket tokens = true := by
  cases reads with
  | indexed openedKind indexRead closedKind accessedRead => simp [openedKind]

namespace Grammar.Covers

variable {parse : Grammar} (covers : parse.Covers bound)
include covers

/-- Statements up to a closing brace. -/
theorem blockBody {opened place : Location} {budget : Nat} {body : List Node}
    (covered : tokens.length < bound) (enough : tokens.length ≤ budget)
    (reads : Reads .statements room tokens (body, place) rest) :
    (parse.blockBody opened budget).Yields ⟨limit, room, last⟩ tokens (body, place) rest := by
  induction budget generalizing tokens body with
  | zero =>
    have taken := reads.cost_le
    simp only [Part.cost] at taken
    omega
  | succ budget ih =>
    rw [Grammar.blockBody]
    cases reads with
    | statementsEnd closedKind =>
      rw [yields_eat_present closedKind]
      exact yields_pure.mpr ⟨rfl, rfl⟩
    | statementsNext ahead statementRead othersRead =>
      rename_i middle first others
      have taken := statementRead.cost_le
      have fewer := (passSemicolon_suffix middle).length_le
      simp only [Part.cost] at taken
      have more : tokens.isEmpty = false := by
        cases tokens with
        | nil => simp at taken
        | cons token tokens => rfl
      rw [yields_eat_absent ahead, yields_atEnd_bind, more, if_neg Bool.false_ne_true,
        (covers.statement covered statementRead).bind_iff, yields_eat_semicolon]
      have others := ih (by omega) (by omega) othersRead
      rw [others.bind_iff]
      exact yields_pure.mpr ⟨rfl, rfl⟩

/-- Statements in braces. -/
theorem blockParts {body : List Node} {location : Location} (covered : tokens.length ≤ bound)
    (reads : Reads .block room tokens (body, location) rest) :
    parse.blockParts.Yields ⟨limit, room, last⟩ tokens (body, location) rest := by
  rw [Grammar.blockParts, yields_sees_bind, if_pos (startsWith_of_block reads)]
  cases reads with
  | block openedKind bodyRead =>
    rw [yields_nested_succ, yields_take_bind, List.drop_succ_cons, List.drop_zero,
      yields_left_bind]
    rw [(covers.blockBody covered (Nat.le_refl _) bodyRead).bind_iff]
    exact yields_pure.mpr ⟨rfl, rfl⟩

/-- Statements in braces, as a node. -/
theorem block {body : List Node} {location : Location} (covered : tokens.length ≤ bound)
    (reads : Reads .block room tokens (body, location) rest) :
    parse.block.Yields ⟨limit, room, last⟩ tokens (.block body location) rest := by
  rw [Grammar.block, (covers.blockParts covered reads).bind_iff]
  exact yields_pure.mpr ⟨rfl, rfl⟩

/-- A body, with or without braces. -/
theorem body (covered : tokens.length < bound) (reads : Reads .body room tokens node rest) :
    parse.body.Yields ⟨limit, room, last⟩ tokens node rest := by
  rw [Grammar.body, yields_sees_bind]
  cases reads with
  | bodyBlock blockRead =>
    rw [if_pos (startsWith_of_block blockRead)]
    exact covers.block (Nat.le_of_lt covered) blockRead
  | bodyStatement ahead statementRead =>
    rw [ahead, if_neg Bool.false_ne_true]
    exact covers.statement covered statementRead

/-- What may follow an object. -/
theorem members {object : Node} (covered : tokens.length ≤ bound)
    (reads : Reads (.members object) room tokens node rest) :
    (parse.members object).Yields ⟨limit, room, last⟩ tokens node rest := by
  rw [Grammar.members, yields_peek_bind]
  cases reads with
  | membersEnd ahead =>
    cases separator : tokens.head?.bind Token.separator? with
    | none => exact yields_pure.mpr ⟨rfl, rfl⟩
    | some mark =>
      have noName : ¬ tokens.tail.head?.any Token.isIdentifier = true := by
        simpa [startsMember, separator] using ahead
      simp only [yields_peekSecond_bind, if_neg noName]
      exact yields_pure.mpr ⟨rfl, rfl⟩
  | member markKind nameKind propertyRead =>
    simp only [List.head?_cons, Option.bind_some, markKind, yields_peekSecond_bind, List.tail_cons,
      Option.any_some, nameKind, ↓reduceIte, yields_skip_bind, List.drop_succ_cons, List.drop_zero]
    rw [(yields_nested_succ.mpr (covers.named covered propertyRead)).bind_iff]
    exact yields_pure.mpr ⟨rfl, rfl⟩

/-- Arguments behind a value. -/
theorem call {callee : Node} (covered : tokens.length ≤ bound)
    (reads : Reads (.call callee) room tokens node rest) :
    (parse.call callee).Yields ⟨limit, room, last⟩ tokens node rest := by
  cases reads with
  | call openedKind argumentsRead membersRead =>
    have fewer := argumentsRead.suffix.length_le
    rw [List.length_cons] at covered
    rw [Grammar.call, yields_take_bind, List.drop_succ_cons, List.drop_zero,
      (yields_nested_succ.mpr
        (yields_delimited rfl covers.expression covered argumentsRead)).bind_iff]
    exact covers.members (by omega) membersRead

/-- An index behind a value. -/
theorem indexedRule {target : Node} (covered : tokens.length ≤ bound)
    (reads : Reads (.indexed target) room tokens node rest) :
    (parse.indexed target).Yields ⟨limit, room, last⟩ tokens node rest := by
  cases reads with
  | indexed openedKind indexRead closedKind accessedRead =>
    have fewer := indexRead.suffix.length_le
    simp only [List.length_cons] at covered fewer
    rw [Grammar.indexed, yields_take_bind, List.drop_succ_cons, List.drop_zero,
      (yields_nested_succ.mpr (covers.expression covered indexRead)).bind_iff,
      yields_expectClosing_bind closedKind]
    cases accessedRead with
    | elementAssigned equalsKind valueRead =>
      rw [List.length_cons] at fewer
      rw [yields_eat_present equalsKind,
        (yields_nested_succ.mpr (covers.expression (by omega) valueRead)).bind_iff]
      exact yields_pure.mpr ⟨rfl, rfl⟩
    | elementCalled callRead =>
      have paren := startsWith_of_call callRead
      rw [yields_eat_absent (startsWith_ne paren (by decide)), yields_sees_bind, if_pos paren]
      exact covers.call (by omega) callRead
    | elementIndexed indexedRead =>
      have bracket := startsWith_of_indexed indexedRead
      have noParen : startsWith .openParen _ = false := startsWith_ne bracket (by decide)
      rw [yields_eat_absent (startsWith_ne bracket (by decide)), yields_sees_bind, noParen,
        if_neg Bool.false_ne_true, yields_sees_bind, if_pos bracket, yields_nested_succ]
      exact covers.indexed (by omega) indexedRead
    | element noEquals noParen noBracket membersRead =>
      rw [yields_eat_absent noEquals, yields_sees_bind, noParen, if_neg Bool.false_ne_true,
        yields_sees_bind, noBracket, if_neg Bool.false_ne_true]
      exact covers.members (by omega) membersRead

/-- The value that a variable gets. -/
theorem assignedRule {name : Token} {operator : AssignmentOperator} {value : Node}
    (covered : tokens.length < bound) (reads : Reads .expression room tokens value rest) :
    (parse.assigned name operator).Yields ⟨limit, room + 1, last⟩ tokens
      (.assignment name operator value (name.location.through value.location)) rest := by
  rw [Grammar.assigned, (yields_nested_succ.mpr (covers.expression covered reads)).bind_iff]
  exact yields_pure.mpr ⟨rfl, rfl⟩

omit covers in
/-- Before an operator that leads on to nothing, a name stands alone. -/
theorem namedOperator_alone {name : Token} {operator : Operator}
    (symbolKind : token.kind = .operator operator) (ahead : leadsOn (token :: tokens) = false) :
    (parse.namedOperator name operator).Yields ⟨limit, room, last⟩ (token :: tokens)
      (.leaf name) (token :: tokens) := by
  have alone : (pure (Node.leaf name) : Parser Node).Yields ⟨limit, room, last⟩ (token :: tokens)
      (.leaf name) (token :: tokens) := yields_pure.mpr ⟨rfl, rfl⟩
  rw [Grammar.namedOperator, yields_peekSecond_bind, List.tail_cons]
  cases tokens with
  | nil => exact alone
  | cons second tokens =>
    simp only [leadsOn, symbolKind, startsWith_cons, List.head?_cons, Option.bind_some,
      Bool.or_eq_false_iff, Bool.and_eq_false_iff] at ahead
    simp only [List.head?_cons]
    by_cases equal : second.isMark .equals = true
    · have noCompound := ahead.1.resolve_left (by simpa using equal)
      rw [Option.isSome_eq_false_iff, Option.isNone_iff_eq_none] at noCompound
      rw [if_pos equal, noCompound]
      exact alone
    · rw [if_neg equal]
      by_cases same : second.operator? = some operator
      · have noDouble := ahead.2.resolve_left (by simp [same])
        rw [Option.isSome_eq_false_iff, Option.isNone_iff_eq_none] at noDouble
        rw [if_pos same, noDouble]
        exact alone
      · rw [if_neg same]
        exact alone

omit covers in
/-- The token behind a name tells what the name leads. -/
theorem yields_named {scope : Scope} {due : Bool} {name follower : Token} :
    (parse.named due).Yields scope (name :: follower :: tokens) node rest ↔
      Yields (match follower.kind with
        | .operator operator => parse.namedOperator name operator
        | .punctuation .equals => skip 1 >>= fun _ => parse.assigned name .assign
        | .punctuation .openParen => parse.call (.leaf name)
        | .punctuation .dot => parse.members (.leaf name)
        | .punctuation .colon => parse.members (.leaf name)
        | .punctuation .openBracket => parse.indexed (.leaf name)
        | _ => pure (.leaf name)) scope (follower :: tokens) node rest :=
  Iff.rfl

omit covers in
/-- A name that leads on to nothing stands alone. -/
theorem named_alone {due : Bool} {name : Token} (more : tokens ≠ [])
    (ahead : leadsOn tokens = false) :
    (parse.named due).Yields ⟨limit, room, last⟩ (name :: tokens) (.leaf name) tokens := by
  cases tokens with
  | nil => contradiction
  | cons follower tokens =>
    rw [yields_named]
    split
    case h_1 operator symbolKind => exact namedOperator_alone symbolKind ahead
    case h_7 => exact yields_pure.mpr ⟨rfl, rfl⟩
    all_goals
      rename_i kind
      simp [leadsOn, kind] at ahead

/-- A name and all that it leads. -/
theorem namedRule {due : Bool} (covered : tokens.length ≤ bound)
    (reads : Reads (.named due) room tokens node rest) :
    (parse.named due).Yields ⟨limit, room, last⟩ tokens node rest := by
  cases reads with
  | nameLast nameKind => exact ⟨rfl, rfl⟩
  | nameAlone nameKind more ahead => exact named_alone more ahead
  | assigned nameKind equalsKind valueRead =>
    rw [yields_named, equalsKind]
    exact covers.assignedRule (Nat.lt_of_succ_lt covered) valueRead
  | combined nameKind symbolKind equalsKind compound valueRead =>
    rw [yields_named, symbolKind]
    simp only [Grammar.namedOperator, yields_peekSecond_bind, List.tail_cons, List.head?_cons]
    rw [if_pos (by simp [equalsKind]), compound]
    exact covers.assignedRule (Nat.lt_of_succ_lt (Nat.lt_of_succ_lt covered)) valueRead
  | updated nameKind symbolKind secondKind doubled =>
    rw [yields_named, symbolKind]
    simp only [Grammar.namedOperator, yields_peekSecond_bind, List.tail_cons, List.head?_cons]
    rw [if_neg (by simp [secondKind]), if_pos (by simp [Token.operator?, secondKind]), doubled]
    exact ⟨rfl, rfl⟩
  | called nameKind callRead =>
    obtain ⟨opened, others, rfl, openedKind⟩ := startsWith_iff.mp (startsWith_of_call callRead)
    rw [yields_named, openedKind]
    exact covers.call (Nat.le_of_succ_le covered) callRead
  | owner nameKind markKind membersRead =>
    rcases markKind with markKind | markKind
    · rw [yields_named, markKind]
      exact covers.members (Nat.le_of_succ_le covered) membersRead
    · rw [yields_named, markKind]
      exact covers.members (Nat.le_of_succ_le covered) membersRead
  | indexedName nameKind indexedRead =>
    obtain ⟨opened, others, rfl, openedKind⟩ :=
      startsWith_iff.mp (startsWith_of_indexed indexedRead)
    rw [yields_named, openedKind]
    exact covers.indexedRule (Nat.le_of_succ_le covered) indexedRead

/-- An entry of an object literal. -/
theorem entry {entry : Entry} (covered : tokens.length < bound)
    (reads : Reads .entry room tokens entry rest) :
    parse.entry.Yields ⟨limit, room, last⟩ tokens entry rest := by
  rw [Grammar.entry]
  cases reads with
  | keyedValue openedKind keyRead closedKind equalsKind valueRead =>
    have fewer := keyRead.suffix.length_le
    simp only [List.length_cons] at covered fewer
    rw [yields_eat_present openedKind,
      (yields_nested_succ.mpr (covers.expression (Nat.lt_of_succ_lt covered) keyRead)).bind_iff,
      yields_expectClosing_bind closedKind, yields_eat_present equalsKind,
      (covers.expression (by omega) valueRead).bind_iff]
    exact yields_pure.mpr ⟨rfl, rfl⟩
  | keyed openedKind keyRead closedKind ahead =>
    rw [yields_eat_present openedKind,
      (yields_nested_succ.mpr (covers.expression (Nat.lt_of_succ_lt covered) keyRead)).bind_iff,
      yields_expectClosing_bind closedKind, yields_eat_absent ahead]
    exact yields_pure.mpr ⟨rfl, rfl⟩
  | namedEntry nameKind equalsKind valueRead =>
    obtain ⟨text, kind⟩ := Token.isIdentifier_iff.mp nameKind
    rw [yields_eat_absent (by simp [kind]), yields_peek_bind, List.head?_cons, Option.filter_some,
      if_pos nameKind]
    simp only [yields_peekSecond_bind]
    rw [if_pos (by simp [equalsKind]), yields_skip_bind, List.drop_succ_cons,
      List.drop_succ_cons, List.drop_zero]
    rw [(covers.expression (Nat.lt_of_succ_lt (Nat.lt_of_succ_lt covered)) valueRead).bind_iff]
    exact yields_pure.mpr ⟨rfl, rfl⟩
  | item noBracket noName valueRead =>
    rename_i value
    have found : (parse .expression >>= fun value =>
        (pure (.item value) : Parser Entry)).Yields ⟨limit, room, last⟩ tokens (.item value)
          rest := by
      rw [(covers.expression covered valueRead).bind_iff]
      exact yields_pure.mpr ⟨rfl, rfl⟩
    rw [yields_eat_absent noBracket, yields_peek_bind]
    cases named : tokens.head?.filter Token.isIdentifier with
    | none => exact found
    | some name =>
      have other : ¬ (tokens.tail.head?.any (·.isMark .equals)) = true := by
        obtain ⟨same, nameKind⟩ := Option.filter_eq_some_iff.mp named
        simpa [startsNamedEntry, same, nameKind] using noName
      simp only [yields_peekSecond_bind]
      rw [if_neg other]
      exact found

/-- A function without a name. -/
theorem lambda (covered : tokens.length ≤ bound) (reads : Reads .lambda room tokens node rest) :
    parse.lambda.Yields ⟨limit, room, last⟩ tokens node rest := by
  cases reads with
  | lambda keywordKind openedKind parametersRead bodyRead =>
    have fewer := parametersRead.suffix.length_le
    simp only [List.length_cons] at covered
    rw [Grammar.lambda, yields_take_bind, List.drop_succ_cons, List.drop_zero,
      yields_eat_present openedKind,
      (yields_delimited rfl (fun _ => yields_of_parameter) (Nat.lt_of_succ_lt covered)
        parametersRead).bind_iff,
      (covers.body (by omega) bodyRead).bind_iff]
    exact yields_pure.mpr ⟨rfl, rfl⟩

/-- An operand. -/
theorem primary (covered : tokens.length ≤ bound) (reads : Reads .operand room tokens node rest) :
    parse.primary.Yields ⟨limit, room, last⟩ tokens node rest := by
  rw [Grammar.primary, yields_peek_bind]
  cases reads with
  | unit openedKind closedKind =>
    simp only [List.head?_cons, openedKind]
    rw [yields_nested_succ, Grammar.parenthesized, yields_take_bind, List.drop_succ_cons,
      List.drop_zero, yields_atEnd_bind, List.isEmpty_cons, if_neg Bool.false_ne_true,
      yields_eat_present closedKind]
    exact yields_pure.mpr ⟨rfl, rfl⟩
  | parenthesized openedKind ahead innerRead closedKind =>
    have taken := innerRead.cost_le
    simp only [List.head?_cons, openedKind]
    rw [yields_nested_succ, Grammar.parenthesized, yields_take_bind, List.drop_succ_cons,
      List.drop_zero, yields_atEnd_bind, if_neg ?nonempty, yields_eat_absent ahead,
      (covers.expression covered innerRead).bind_iff, yields_expectClosing_bind closedKind]
    · exact yields_pure.mpr ⟨rfl, rfl⟩
    case nonempty =>
      intro empty
      rw [List.isEmpty_iff] at empty
      simp [empty] at taken
  | array openedKind elementsRead =>
    simp only [List.head?_cons, openedKind]
    rw [yields_nested_succ, Grammar.array, yields_take_bind, List.drop_succ_cons, List.drop_zero,
      (yields_delimited rfl covers.expression covered elementsRead).bind_iff]
    exact yields_pure.mpr ⟨rfl, rfl⟩
  | object openedKind entriesRead =>
    simp only [List.head?_cons, openedKind]
    rw [yields_nested_succ, Grammar.object, yields_take_bind, List.drop_succ_cons, List.drop_zero,
      (yields_delimited rfl covers.entry covered entriesRead).bind_iff]
    exact yields_pure.mpr ⟨rfl, rfl⟩
  | negation markKind operandRead =>
    have taken := operandRead.cost_le
    simp only [List.head?_cons, markKind]
    rw [yields_nested_succ, Grammar.negation, yields_take_bind, List.drop_succ_cons,
      List.drop_zero, yields_atEnd_bind, if_neg ?nonempty,
      (covers.expression covered operandRead).bind_iff]
    · exact yields_pure.mpr ⟨rfl, rfl⟩
    case nonempty =>
      intro empty
      rw [List.isEmpty_iff] at empty
      simp [empty, Part.cost] at taken
  | lambdaOperand keywordKind lambdaRead =>
    simp only [List.head?_cons, keywordKind]
    rw [yields_nested_succ]
    exact covers.lambda covered lambdaRead
  | namedOperand nameKind namedRead =>
    obtain ⟨text, kind⟩ := Token.isIdentifier_iff.mp nameKind
    simp only [List.head?_cons, kind]
    exact covers.namedRule covered namedRead
  | @literal _ token _ operand =>
    obtain ⟨kind, location⟩ := token
    cases kind with
    | punctuation | otherMark | identifier => cases operand
    | keyword keyword =>
      cases keyword with
      | fn => cases operand
      | _ => exact ⟨rfl, rfl⟩
    | _ => exact ⟨rfl, rfl⟩

/-- Operators behind a left operand, and their operands. -/
theorem climb {budget strength : Nat} {left : Node} (covered : tokens.length ≤ bound)
    (enough : tokens.length ≤ budget) (reads : Reads (.climb left strength) room tokens node rest) :
    (parse.climb budget left strength).Yields ⟨limit, room, last⟩ tokens node rest := by
  induction budget generalizing tokens left strength node rest with
  | zero =>
    cases reads with
    | climbEnd ahead => exact yields_pure.mpr ⟨rfl, rfl⟩
    | climbNext symbolKind tighter operandRead rightRead climbRead => simp at enough
  | succ budget ih =>
    rw [Grammar.climb, yields_peek_bind]
    cases reads with
    | climbEnd ahead =>
      cases operatorAhead : tokens.head?.bind Token.operator? with
      | none => exact yields_pure.mpr ⟨rfl, rfl⟩
      | some operator =>
        simp only [if_pos (ahead operator operatorAhead)]
        exact yields_pure.mpr ⟨rfl, rfl⟩
    | climbNext symbolKind tighter operandRead rightRead climbRead =>
      have fewer := operandRead.suffix.length_le
      have fewest := rightRead.suffix.length_le
      simp only [List.length_cons] at covered enough
      simp only [List.head?_cons, Option.bind_some, Token.operator?, symbolKind,
        if_neg (Nat.not_le.mpr tighter), yields_skip_bind, List.drop_succ_cons, List.drop_zero]
      rw [(covers.primary (by omega) operandRead).bind_iff,
        (ih (by omega) (by omega) rightRead).bind_iff]
      exact ih (by omega) (by omega) climbRead

/-- A value. -/
theorem expressionRule (covered : tokens.length ≤ bound)
    (reads : Reads .expression room tokens node rest) :
    parse.expression.Yields ⟨limit, room, last⟩ tokens node rest := by
  rw [Grammar.expression]
  cases reads with
  | expressionOperand operandRead ahead =>
    rw [(covers.primary covered operandRead).bind_iff, yields_peek_bind]
    rcases Bool.and_eq_false_iff.mp ahead with first | second
    · rw [first, if_neg Bool.false_ne_true]
      exact yields_pure.mpr ⟨rfl, rfl⟩
    · rw [yields_ite, yields_peekSecond_bind, second, if_neg Bool.false_ne_true, ← yields_ite,
        ite_self]
      exact yields_pure.mpr ⟨rfl, rfl⟩
  | expressionBinary operandRead ahead climbRead =>
    have fewer := operandRead.suffix.length_le
    obtain ⟨first, second⟩ := Bool.and_eq_true_iff.mp ahead
    rw [(covers.primary covered operandRead).bind_iff, yields_peek_bind, if_pos first,
      yields_peekSecond_bind, if_pos second, yields_left_bind]
    exact covers.climb (by omega) (Nat.le_refl _) climbRead

omit covers in
/-- Without `else` and `elseif` there is nothing else to do. -/
theorem alternateNone (noElse : startsWithKeyword .else tokens = false)
    (noElseif : startsWithKeyword .elseif tokens = false) :
    parse.alternate.Yields ⟨limit, room, last⟩ tokens none tokens := by
  rw [Grammar.alternate, yields_seesKeyword_bind, noElse, if_neg Bool.false_ne_true,
    yields_seesKeyword_bind, noElseif, if_neg Bool.false_ne_true]
  exact yields_pure.mpr ⟨rfl, rfl⟩

/-- A block behind `else`. -/
theorem alternateElse {body : List Node} {location : Location} (covered : tokens.length ≤ bound)
    (followerKind : token.kind = .keyword .else)
    (reads : Reads .block room tokens (body, location) rest) :
    parse.alternate.Yields ⟨limit, room, last⟩ (token :: tokens) (some (.block body location))
      rest := by
  rw [Grammar.alternate, yields_seesKeyword_bind, if_pos (by simp [followerKind]),
    yields_skip_bind]
  exact yields_map.mpr ⟨_, covers.block covered reads, rfl⟩

/-- Another test behind `elseif`. -/
theorem alternateElseif (covered : tokens.length + 1 < bound)
    (followerKind : token.kind = .keyword .elseif)
    (reads : Reads .conditional room (token :: tokens) node rest) :
    parse.alternate.Yields ⟨limit, room + 1, last⟩ (token :: tokens) (some node) rest := by
  rw [Grammar.alternate, yields_seesKeyword_bind, if_neg (by simp [followerKind]),
    yields_seesKeyword_bind, if_pos (by simp [followerKind])]
  exact yields_map.mpr ⟨_, yields_nested_succ.mpr (covers.conditional covered reads), rfl⟩

/-- An `if`, from its keyword on. -/
theorem conditionalRule (covered : tokens.length ≤ bound)
    (reads : Reads .conditional room tokens node rest) :
    parse.conditional.Yields ⟨limit, room, last⟩ tokens node rest := by
  rw [Grammar.conditional, yields_take_bind]
  cases reads with
  | conditionalOnly keywordKind testRead consequentRead noElse noElseif =>
    have fewer := testRead.suffix.length_le
    rw [List.length_cons] at covered
    have stays : passSemicolonBefore [.else, .elseif] rest = rest :=
      passSemicolonBefore_eq_self (by simpa using ⟨noElse, noElseif⟩)
    rw [alternateAhead, stays] at noElse noElseif
    rw [List.drop_succ_cons, List.drop_zero, (covers.expression covered testRead).bind_iff,
      (covers.body (by omega) consequentRead).bind_iff, yields_eatSemicolonBefore_bind, stays,
      (alternateNone noElse noElseif).bind_iff]
    exact yields_pure.mpr ⟨rfl, rfl⟩
  | conditionalElse keywordKind testRead consequentRead ahead followerKind blockRead =>
    have fewer := testRead.suffix.length_le
    have fewest := consequentRead.suffix.length_le
    rw [alternateAhead] at ahead
    have behind := length_lt_of_passSemicolonBefore ahead
    rw [List.length_cons] at covered
    rw [List.drop_succ_cons, List.drop_zero, (covers.expression covered testRead).bind_iff,
      (covers.body (by omega) consequentRead).bind_iff, yields_eatSemicolonBefore_bind, ahead,
      (covers.alternateElse (by omega) followerKind blockRead).bind_iff]
    exact yields_pure.mpr ⟨rfl, rfl⟩
  | conditionalElseif keywordKind testRead consequentRead ahead followerKind alternateRead =>
    have fewer := testRead.suffix.length_le
    have fewest := consequentRead.suffix.length_le
    rw [alternateAhead] at ahead
    have behind := length_lt_of_passSemicolonBefore ahead
    rw [List.length_cons] at covered
    rw [List.drop_succ_cons, List.drop_zero, (covers.expression covered testRead).bind_iff,
      (covers.body (by omega) consequentRead).bind_iff, yields_eatSemicolonBefore_bind, ahead,
      (covers.alternateElseif (by omega) followerKind alternateRead).bind_iff]
    exact yields_pure.mpr ⟨rfl, rfl⟩

/-- The values of a case behind the first. -/
theorem alternatives {budget : Nat} {values : List Node} (covered : tokens.length ≤ bound)
    (enough : tokens.length ≤ budget) (reads : Reads .alternatives room tokens values rest) :
    (parse.alternatives budget).Yields ⟨limit, room, last⟩ tokens values rest := by
  induction budget generalizing tokens values with
  | zero =>
    cases reads with
    | alternativesEnd ahead => exact yields_pure.mpr ⟨rfl, rfl⟩
    | alternativesNext markKind valueRead othersRead => simp at enough
  | succ budget ih =>
    rw [Grammar.alternatives]
    cases reads with
    | alternativesEnd ahead =>
      rw [yields_eat_absent ahead]
      exact yields_pure.mpr ⟨rfl, rfl⟩
    | alternativesNext markKind valueRead othersRead =>
      have fewer := valueRead.suffix.length_le
      simp only [List.length_cons] at covered enough
      rw [yields_eat_present markKind, (covers.expression covered valueRead).bind_iff,
        (ih (by omega) (by omega) othersRead).bind_iff]
      exact yields_pure.mpr ⟨rfl, rfl⟩

/-- The keyword of a case and its values. -/
theorem caseHead {middle : List Token} {value : Node} {others : List Node}
    (covered : tokens.length < bound) (kind : token.kind = .keyword .case)
    (valueRead : Reads .expression room tokens value middle)
    (othersRead : Reads .alternatives room middle others rest) :
    parse.clauseHead.Yields ⟨limit, room, last⟩ (token :: tokens) (.case, .ofValues value others)
      rest := by
  have fewer := valueRead.suffix.length_le
  rw [Grammar.clauseHead, yields_seesKeyword_bind, if_neg (by simp [kind]), yields_skip_bind,
    List.drop_succ_cons, List.drop_zero, (covers.expression covered valueRead).bind_iff,
    yields_left_bind, (covers.alternatives (by omega) (Nat.le_refl _) othersRead).bind_iff]
  exact yields_pure.mpr ⟨rfl, rfl⟩

omit covers in
/-- The default has no values. -/
theorem defaultHead (kind : token.kind = .keyword .default) :
    parse.clauseHead.Yields ⟨limit, room, last⟩ (token :: tokens) (.default, .none) tokens := by
  rw [Grammar.clauseHead, yields_seesKeyword_bind, if_pos (by simp [kind]), yields_skip_bind]
  exact yields_pure.mpr ⟨rfl, rfl⟩

/-- The body of a case. -/
theorem clauseBody (covered : tokens.length ≤ bound)
    (reads : Reads .clauseBody room tokens node rest) :
    parse.clauseBody.Yields ⟨limit, room, last⟩ tokens node rest := by
  rw [Grammar.clauseBody, yields_sees_bind]
  cases reads with
  | clauseBlock blockRead =>
    rw [if_pos (startsWith_of_block blockRead)]
    exact covers.block covered blockRead
  | clauseStatement colonKind statementRead =>
    rw [if_neg (by simp [colonKind]), yields_eat_present colonKind]
    exact covers.statement covered statementRead

omit covers in
/-- Entries that are cases are found to be cases. -/
theorem clausesOf {shown : String} (clauses : List Clause) :
    (Grammar.clausesOf shown (clauses.map Node.clause)).Yields ⟨limit, room, last⟩ tokens clauses
      tokens := by
  induction clauses with
  | nil => exact yields_pure.mpr ⟨rfl, rfl⟩
  | cons branch clauses ih =>
    rw [List.map_cons, Grammar.clausesOf]
    simp only [Node.clause?]
    rw [ih.bind_iff]
    exact yields_pure.mpr ⟨rfl, rfl⟩

omit covers in
/-- Arguments that are names are found to be names. -/
theorem parametersOf {parameters : List Token}
    (names : ∀ parameter ∈ parameters, parameter.isIdentifier = true) :
    (Grammar.parametersOf (parameters.map Node.leaf)).Yields ⟨limit, room, last⟩ tokens parameters
      tokens := by
  induction parameters with
  | nil => exact yields_pure.mpr ⟨rfl, rfl⟩
  | cons parameter parameters ih =>
    obtain ⟨first, others⟩ := List.forall_mem_cons.mp names
    rw [List.map_cons, Grammar.parametersOf]
    simp only [Node.identifier?, Node.token?, Option.filter_some, first, ↓reduceIte]
    rw [(ih others).bind_iff]
    exact yields_pure.mpr ⟨rfl, rfl⟩

/-- The step of a loop, behind a comma. -/
theorem forUpdateGiven {initial update : Node} (covered : tokens.length < bound)
    (commaKind : token.kind = .punctuation .comma)
    (reads : Reads .statement room tokens update rest) :
    (parse.forUpdate initial).Yields ⟨limit, room, last⟩ (token :: tokens) update rest := by
  unfold Grammar.forUpdate
  rw [yields_eat_present commaKind]
  exact covers.statement covered reads

omit covers in
/-- The step of a loop that is left out. -/
theorem forUpdateImplied {name : Token} {value : Option Node} {place : Location}
    (ahead : startsWith .comma tokens = false) (more : tokens ≠ []) :
    (parse.forUpdate (.declaration name value place)).Yields ⟨limit, room, last⟩ tokens
      (.update name .increment name.location) tokens := by
  rw [Grammar.forUpdate, yields_eat_absent ahead]
  simp only
  rw [yields_atEnd_bind, if_neg (by simpa using more)]
  exact yields_pure.mpr ⟨rfl, rfl⟩

omit covers in
/-- The keyword of a statement tells which rule reads it. -/
theorem yields_statement {keyword : Keyword} (kind : token.kind = .keyword keyword) :
    parse.statement.Yields ⟨limit, room + 1, last⟩ (token :: tokens) node rest ↔
      (parse.keywordStatement ⟨keyword, token.location⟩).Yields ⟨limit, room, last⟩
        (token :: tokens) node rest := by
  rw [Grammar.statement, yields_nested_succ, yields_peek_bind]
  simp only [List.head?_cons, yields_record_bind, kind]

omit covers in
/-- Both keywords of a declaration lead to the same rule. -/
theorem yields_declaration
    (kind : token.kind = .keyword .let ∨ token.kind = .keyword .var) :
    parse.statement.Yields ⟨limit, room + 1, last⟩ (token :: tokens) node rest ↔
      parse.declaration.Yields ⟨limit, room, last⟩ (token :: tokens) node rest := by
  rcases kind with kind | kind
  · rw [yields_statement kind, Grammar.keywordStatement]
  · rw [yields_statement kind, Grammar.keywordStatement]

/-- A loop that tests after each round, from its keyword on. -/
theorem doWhileLoop {follower : Token} {middle later : List Token} {test body : Node}
    (covered : tokens.length < bound) (bodyRead : Reads .body room tokens body middle)
    (ahead : passSemicolonBefore [.while] middle = follower :: later)
    (followerKind : follower.kind = .keyword .while)
    (testRead : Reads .expression room later test rest) :
    parse.doWhileLoop.Yields ⟨limit, room, last⟩ (token :: tokens)
      (.doWhileLoop test body (token.location.through test.location)) rest := by
  have fewer := bodyRead.suffix.length_le
  have behind := length_lt_of_passSemicolonBefore ahead
  rw [Grammar.doWhileLoop, yields_take_bind, List.drop_succ_cons, List.drop_zero,
    (covers.body covered bodyRead).bind_iff, yields_eatSemicolonBefore_bind, ahead,
    yields_seesKeyword_bind, if_pos (by simp [followerKind]), yields_skip_bind,
    List.drop_succ_cons, List.drop_zero, (covers.expression (by omega) testRead).bind_iff]
  exact yields_pure.mpr ⟨rfl, rfl⟩

/-- A loop with a start, a test and a step, from its keyword on, however the step is read. -/
theorem forLoop {comma : Token} {middle later behind : List Token} {initial test update body : Node}
    (covered : tokens.length < bound)
    (initialRead : Reads .statement room tokens initial (comma :: middle))
    (commaKind : comma.kind = .punctuation .comma)
    (testRead : Reads .expression room middle test later)
    (updateYields : (parse.forUpdate initial).Yields ⟨limit, room, last⟩ later update behind)
    (updateSuffix : behind <:+ later) (bodyRead : Reads .body room behind body rest) :
    parse.forLoop.Yields ⟨limit, room, last⟩ (token :: tokens)
      (.forLoop initial test update body (token.location.through body.location)) rest := by
  have first := initialRead.suffix.length_le
  have second := testRead.suffix.length_le
  have third := updateSuffix.length_le
  rw [List.length_cons] at first
  rw [Grammar.forLoop, yields_take_bind, List.drop_succ_cons, List.drop_zero,
    (covers.statement covered initialRead).bind_iff, yields_eat_present commaKind,
    (covers.expression (by omega) testRead).bind_iff, updateYields.bind_iff,
    (covers.body (by omega) bodyRead).bind_iff]
  exact yields_pure.mpr ⟨rfl, rfl⟩

/-- A function with a name, from its keyword on. -/
theorem namedFunction {name : Token} {middle : List Token} {signature title body : Node}
    {parameters : List Token} (covered : tokens.length + 1 < bound)
    (nameKind : name.isIdentifier = true)
    (signatureRead : Reads (.named false) room (name :: tokens) signature middle)
    (split : signature.signature? = some (title, parameters.map Node.leaf))
    (parameterKinds : ∀ parameter ∈ parameters, parameter.isIdentifier = true)
    (bodyRead : Reads .body room middle body rest) :
    parse.namedFunction.Yields ⟨limit, room, last⟩ (token :: name :: tokens)
      (.function title parameters body (token.location.through body.location)) rest := by
  have fewer := signatureRead.suffix.length_le
  rw [List.length_cons] at fewer
  rw [Grammar.namedFunction, yields_take_bind, List.drop_succ_cons, List.drop_zero,
    yields_peek_bind, if_pos (by simpa using nameKind),
    (covers.namedRule (by simp only [List.length_cons]; omega) signatureRead).bind_iff]
  simp only [split]
  rw [(parametersOf parameterKinds).bind_iff, (covers.body (by omega) bodyRead).bind_iff]
  exact yields_pure.mpr ⟨rfl, rfl⟩

omit covers in
/-- The end of a function without a result. -/
theorem returnsNothing
    (ahead : rest = [] ∨ startsWith .semicolon rest = true ∨ startsWith .closeBrace rest = true) :
    parse.returns.Yields ⟨limit, room, last⟩ (token :: rest) (.returns none token.location)
      rest := by
  rw [Grammar.returns, yields_take_bind, List.drop_succ_cons, List.drop_zero, yields_peek_bind]
  rcases ahead with rfl | ahead
  · exact yields_pure.mpr ⟨rfl, rfl⟩
  · cases rest with
    | nil => simp at ahead
    | cons follower rest =>
      simp only [List.head?_cons]
      rw [if_pos (by simpa using ahead)]
      exact yields_pure.mpr ⟨rfl, rfl⟩

/-- The end of a function with a result. -/
theorem returnsValue {value : Node} (covered : tokens.length < bound) (more : tokens ≠ [])
    (semicolon : startsWith .semicolon tokens = false)
    (brace : startsWith .closeBrace tokens = false)
    (valueRead : Reads .expression room tokens value rest) :
    parse.returns.Yields ⟨limit, room, last⟩ (token :: tokens)
      (.returns (some value) (token.location.through value.location)) rest := by
  rw [Grammar.returns, yields_take_bind, List.drop_succ_cons, List.drop_zero, yields_peek_bind]
  cases tokens with
  | nil => contradiction
  | cons follower tokens =>
    rw [startsWith_cons, ← Token.isMark_eq] at semicolon brace
    simp only [List.head?_cons]
    rw [if_neg (by rw [semicolon, brace]; decide),
      (covers.expression covered valueRead).bind_iff]
    exact yields_pure.mpr ⟨rfl, rfl⟩

/-- A statement. -/
theorem statementRule (covered : tokens.length ≤ bound)
    (reads : Reads .statement room tokens node rest) :
    parse.statement.Yields ⟨limit, room, last⟩ tokens node rest := by
  cases reads with
  | declared kind nameKind ahead =>
    rw [yields_declaration kind, Grammar.declaration, yields_take_bind, List.drop_succ_cons,
      List.drop_zero, (yields_expectIdentifier.mpr ⟨rfl, nameKind⟩).bind_iff,
      yields_eat_absent ahead]
    exact yields_pure.mpr ⟨rfl, rfl⟩
  | initialized kind nameKind equalsKind valueRead =>
    simp only [List.length_cons] at covered
    rw [yields_declaration kind, Grammar.declaration, yields_take_bind, List.drop_succ_cons,
      List.drop_zero, (yields_expectIdentifier.mpr ⟨rfl, nameKind⟩).bind_iff,
      yields_eat_present equalsKind, (covers.expression (by omega) valueRead).bind_iff]
    exact yields_pure.mpr ⟨rfl, rfl⟩
  | conditionalStatement kind conditionalRead =>
    rw [yields_statement kind, Grammar.keywordStatement]
    exact covers.conditionalRule covered conditionalRead
  | whileLoop kind testRead bodyRead =>
    have fewer := testRead.suffix.length_le
    rw [List.length_cons] at covered
    rw [yields_statement kind, Grammar.keywordStatement, Grammar.whileLoop, yields_take_bind,
      List.drop_succ_cons, List.drop_zero, (covers.expression covered testRead).bind_iff,
      (covers.body (by omega) bodyRead).bind_iff]
    exact yields_pure.mpr ⟨rfl, rfl⟩
  | doWhileLoop kind bodyRead ahead followerKind testRead =>
    rw [yields_statement kind, Grammar.keywordStatement]
    exact covers.doWhileLoop covered bodyRead ahead followerKind testRead
  | forLoop kind initialRead commaKind testRead secondKind updateRead bodyRead =>
    have first := initialRead.suffix.length_le
    have second := testRead.suffix.length_le
    simp only [List.length_cons] at covered first second
    rw [yields_statement kind, Grammar.keywordStatement]
    exact covers.forLoop covered initialRead commaKind testRead
      (covers.forUpdateGiven (by omega) secondKind updateRead)
      (updateRead.suffix.trans (List.suffix_cons ..)) bodyRead
  | forLoopByOne kind initialRead commaKind testRead ahead more bodyRead =>
    rw [yields_statement kind, Grammar.keywordStatement]
    exact covers.forLoop covered initialRead commaKind testRead (forUpdateImplied ahead more)
      List.suffix_rfl bodyRead
  | switch kind subjectRead clausesRead =>
    have fewer := subjectRead.suffix.length_le
    rw [List.length_cons] at covered
    rw [yields_statement kind, Grammar.keywordStatement, Grammar.switch, yields_take_bind,
      List.drop_succ_cons, List.drop_zero, (covers.expression covered subjectRead).bind_iff,
      (covers.blockParts (by omega) clausesRead).bind_iff, (clausesOf _).bind_iff]
    exact yields_pure.mpr ⟨rfl, rfl⟩
  | caseClause kind valueRead othersRead bodyRead =>
    have first := valueRead.suffix.length_le
    have second := othersRead.suffix.length_le
    rw [List.length_cons] at covered
    rw [yields_statement kind, Grammar.keywordStatement, Grammar.clause, yields_here_bind,
      (covers.caseHead covered kind valueRead othersRead).bind_iff,
      (covers.clauseBody (by omega) bodyRead).bind_iff]
    exact yields_pure.mpr ⟨rfl, rfl⟩
  | defaultClause kind bodyRead =>
    rw [yields_statement kind, Grammar.keywordStatement, Grammar.clause, yields_here_bind,
      (defaultHead kind).bind_iff,
      (covers.clauseBody (Nat.le_of_succ_le covered) bodyRead).bind_iff]
    exact yields_pure.mpr ⟨rfl, rfl⟩
  | lambdaStatement kind lambdaRead =>
    rw [yields_statement kind, Grammar.keywordStatement, Grammar.function, yields_peekSecond_bind,
      if_pos ?paren]
    · exact covers.lambda covered lambdaRead
    case paren =>
      cases lambdaRead with
      | lambda _ openedKind _ _ => simp [openedKind]
  | function kind nameKind signatureRead split parameterKinds bodyRead =>
    obtain ⟨text, noMark⟩ := Token.isIdentifier_iff.mp nameKind
    rw [yields_statement kind, Grammar.keywordStatement, Grammar.function, yields_peekSecond_bind,
      if_neg (by simp [noMark])]
    exact covers.namedFunction covered nameKind signatureRead split parameterKinds bodyRead
  | returnsNothing kind ahead =>
    rw [yields_statement kind, Grammar.keywordStatement]
    exact returnsNothing ahead
  | returnsValue kind more semicolon brace valueRead =>
    rw [yields_statement kind, Grammar.keywordStatement]
    exact covers.returnsValue covered more semicolon brace valueRead
  | namedStatement nameKind namedRead =>
    obtain ⟨text, kind⟩ := Token.isIdentifier_iff.mp nameKind
    rw [Grammar.statement, yields_nested_succ, yields_peek_bind]
    simp only [List.head?_cons, yields_record_bind, kind]
    exact covers.namedRule covered namedRead
  | comment comment =>
    rw [Grammar.statement, yields_nested_succ, yields_peek_bind]
    simp only [List.head?_cons, yields_record_bind]
    unfold Token.isComment at comment
    split at comment
    · rename_i kind
      simp only [kind]
      exact ⟨rfl, rfl⟩
    · rename_i kind
      simp only [kind]
      exact ⟨rfl, rfl⟩
    · contradiction

/-- A grammar that reads its parts by one that covers a number of tokens covers one more. -/
theorem step : parse.step.Covers (bound + 1) where
  statement fewer := covers.statementRule (Nat.le_of_lt_succ fewer)
  expression fewer := covers.expressionRule (Nat.le_of_lt_succ fewer)
  named fewer := covers.namedRule (Nat.le_of_lt_succ fewer)
  indexed fewer := covers.indexedRule (Nat.le_of_lt_succ fewer)
  conditional fewer := covers.conditionalRule (Nat.le_of_lt_succ fewer)

/-- Statements up to the end of the source. -/
theorem statements {budget : Nat} {program : List Node} (covered : tokens.length ≤ bound)
    (enough : tokens.length ≤ budget) (reads : Reads .program room tokens program rest) :
    (parse.statements budget).Yields ⟨limit, room, last⟩ tokens program rest := by
  induction budget generalizing tokens program with
  | zero =>
    cases reads with
    | programEnd => exact yields_pure.mpr ⟨rfl, rfl⟩
    | programNext statementRead othersRead =>
      have taken := statementRead.cost_le
      simp only [Part.cost] at taken
      omega
  | succ budget ih =>
    rw [Grammar.statements, yields_atEnd_bind]
    cases reads with
    | programEnd => exact yields_pure.mpr ⟨rfl, rfl⟩
    | programNext statementRead othersRead =>
      rename_i middle first others
      have taken := statementRead.cost_le
      have fewer := (passSemicolon_suffix middle).length_le
      simp only [Part.cost] at taken
      have more : tokens.isEmpty = false := by
        cases tokens with
        | nil => simp at taken
        | cons token tokens => rfl
      rw [more, if_neg Bool.false_ne_true, (covers.statementRule covered statementRead).bind_iff,
        yields_eat_semicolon, (ih (by omega) (by omega) othersRead).bind_iff]
      exact yields_pure.mpr ⟨rfl, rfl⟩

end Grammar.Covers

namespace Grammar

/-- The grammar for fewer than a given number of tokens covers that number. -/
theorem covers_below (bound : Nat) : (below bound).Covers bound := by
  induction bound with
  | zero => constructor <;> intros <;> omega
  | succ bound ih => exact ih.step

/-- The grammar of the language covers any number of tokens. -/
theorem covers_full (bound : Nat) : full.Covers bound where
  statement _ reads := yields_full.mpr ((covers_below _).statement (Nat.lt_succ_self _) reads)
  expression _ reads := yields_full.mpr ((covers_below _).expression (Nat.lt_succ_self _) reads)
  named _ reads := yields_full.mpr ((covers_below _).named (Nat.lt_succ_self _) reads)
  indexed _ reads := yields_full.mpr ((covers_below _).indexed (Nat.lt_succ_self _) reads)
  conditional _ reads := yields_full.mpr ((covers_below _).conditional (Nat.lt_succ_self _) reads)

end Grammar

/-- The parser succeeds exactly with the readings of all tokens in which no case is left outside
all switches. -/
theorem parseTokens_eq_ok_iff {options : Options} {program : List Node} :
    (parseTokens options tokens).outcome = .ok program ↔
      Reads .program options.maxDepth tokens program [] ∧
        program.findSome? Node.clause? = none := by
  constructor
  · exact reads_program
  · rintro ⟨reads, inside⟩
    have found : Parser.program.Yields (Scope.ofTokens options tokens) tokens program [] := by
      rw [Parser.program, Grammar.program, yields_left_bind, Scope.ofTokens,
        ((Grammar.covers_full _).statements (Nat.le_refl _) (Nat.le_refl _) reads).bind_iff]
      simp only [inside]
      exact yields_pure.mpr ⟨rfl, rfl⟩
    exact found.1

end Oreo
