import Oreo.Proofs.Parse.Reading

/-!
# Whatever is parsed can be read

A grammar is sound if each of its parsers succeeds only with readings. Every rule keeps this: if
the grammar that it is given for its parts is sound, then what the rule yields is a reading. So
the grammar for any number of tokens is sound, by induction on that number, and with it the
parsers of the language.

A rule that begins by passing a token relies on its caller to have looked at it; the lemma about
the rule has the class of that token as a hypothesis.
-/

namespace Oreo

open Oreo.Parser

variable {scope : Scope} {tokens rest : List Token} {node : Node} {token : Token}

namespace Grammar

/-- Each parser of the grammar yields readings only. -/
structure Sound (parse : Grammar) : Prop where
  statement : ∀ {scope tokens node rest}, (parse .statement).Yields scope tokens node rest →
    Reads .statement scope.room tokens node rest
  expression : ∀ {scope tokens node rest}, (parse .expression).Yields scope tokens node rest →
    Reads .expression scope.room tokens node rest
  named : ∀ {scope name tokens node rest}, name.isIdentifier = true →
    (parse .named).Yields scope (name :: tokens) node rest →
    Reads (.named false) scope.room (name :: tokens) node rest
  indexed : ∀ {target scope opened tokens node rest}, opened.kind = .punctuation .openBracket →
    (parse (.indexed target)).Yields scope (opened :: tokens) node rest →
    Reads (.indexed target) scope.room (opened :: tokens) node rest
  conditional : ∀ {scope keyword tokens node rest},
    keyword.kind = .keyword .if ∨ keyword.kind = .keyword .elseif →
    (parse .conditional).Yields scope (keyword :: tokens) node rest →
    Reads .conditional scope.room (keyword :: tokens) node rest

end Grammar

/-- Items that are read one by one are read as a list. -/
theorem reads_items {bracket : Bracket} {context : Construct} {opened place : Location}
    (part : Part) {item : Parser part.Result} {values : List part.Result}
    (sound : ∀ {tokens value rest}, item.Yields scope tokens value rest →
      Reads part scope.room tokens value rest) {budget : Nat}
    (found : (separated bracket context opened item budget).Yields scope tokens
      (values, place) rest) :
    Reads (.items bracket part) scope.room tokens (values, place) rest := by
  induction budget generalizing tokens values with
  | zero => exact absurd found not_yields_fail
  | succ budget ih =>
    cases tokens with
    | nil => simp [separated] at found
    | cons token tokens =>
      simp only [separated, yields_peek_bind, List.head?_cons, yields_ite, not_yields_fail,
        and_false, false_or] at found
      obtain ⟨ahead, found⟩ := found
      have noComma : startsWith .comma (token :: tokens) = false := by simpa using ahead
      obtain ⟨first, middle, read, found⟩ := yields_bind.mp found
      rcases yields_eat_bind.mp found with ⟨comma, later, rfl, commaKind, found⟩ | ⟨_, found⟩
      · simp only [yields_sees_bind, yields_ite, not_yields_fail, and_false, false_or] at found
        obtain ⟨more, found⟩ := found
        obtain ⟨⟨others, closed⟩, left, follow, found⟩ := yields_bind.mp found
        obtain ⟨same, rfl⟩ := yields_pure.mp found
        cases same
        exact .itemsNext noComma (sound read) commaKind (by simpa using more) (ih follow)
      · obtain ⟨closed, left, follow, found⟩ := yields_bind.mp found
        obtain ⟨same, rfl⟩ := yields_pure.mp found
        cases same
        obtain ⟨mark, rfl, markKind, rfl⟩ := yields_expectClosing.mp follow
        exact .itemsEnd noComma (sound read) markKind

/-- A list up to its closing mark is read as a list. -/
theorem reads_list {bracket : Bracket} {context : Construct} {opened place : Location}
    (part : Part) {item : Parser part.Result} {values : List part.Result}
    (sound : ∀ {tokens value rest}, item.Yields scope tokens value rest →
      Reads part scope.room tokens value rest)
    (found : (delimited bracket context opened item).Yields scope tokens (values, place) rest) :
    Reads (.list bracket part) scope.room tokens (values, place) rest := by
  rcases yields_eat_bind.mp found with ⟨closed, later, rfl, closedKind, found⟩ | ⟨ahead, found⟩
  · obtain ⟨same, rfl⟩ := yields_pure.mp found
    cases same
    exact .listEmpty closedKind
  · exact .listItems ahead (reads_items part sound found)

namespace Grammar.Sound

variable {parse : Grammar} (sound : parse.Sound)
include sound

/-- Statements up to a closing brace. -/
theorem blockBody {opened place : Location} {budget : Nat} {body : List Node}
    (found : (parse.blockBody opened budget).Yields scope tokens (body, place) rest) :
    Reads .statements scope.room tokens (body, place) rest := by
  induction budget generalizing tokens body with
  | zero => exact absurd found not_yields_fail
  | succ budget ih =>
    rcases yields_eat_bind.mp found with ⟨closed, later, rfl, closedKind, found⟩ | ⟨ahead, found⟩
    · obtain ⟨same, rfl⟩ := yields_pure.mp found
      cases same
      exact .statementsEnd closedKind
    · simp only [yields_atEnd_bind, yields_ite, not_yields_fail, and_false, false_or] at found
      obtain ⟨_, found⟩ := found
      obtain ⟨first, middle, read, found⟩ := yields_bind.mp found
      obtain ⟨⟨others, closed⟩, left, follow, found⟩ :=
        yields_bind.mp (yields_eat_semicolon.mp found)
      obtain ⟨same, rfl⟩ := yields_pure.mp found
      cases same
      exact .statementsNext ahead (sound.statement read) (ih follow)

/-- Statements in braces. -/
theorem blockParts {body : List Node} {location : Location}
    (found : parse.blockParts.Yields scope tokens (body, location) rest) :
    Reads .block scope.room tokens (body, location) rest := by
  simp only [Grammar.blockParts, yields_sees_bind, yields_ite, not_yields_failHere, and_false,
    or_false, yields_nested] at found
  obtain ⟨ahead, room, enough, found⟩ := found
  obtain ⟨opened, tokens, rfl, openedKind⟩ := startsWith_iff.mp ahead
  simp only [yields_take_bind, yields_left_bind] at found
  obtain ⟨⟨body, closed⟩, left, follow, found⟩ := yields_bind.mp found
  obtain ⟨same, rfl⟩ := yields_pure.mp found
  cases same
  rw [enough]
  exact .block openedKind (sound.blockBody follow)

/-- Statements in braces, as a node. -/
theorem block (found : parse.block.Yields scope tokens node rest) :
    ∃ body location, node = .block body location ∧
      Reads .block scope.room tokens (body, location) rest := by
  obtain ⟨⟨body, location⟩, left, follow, found⟩ := yields_bind.mp found
  obtain ⟨rfl, rfl⟩ := yields_pure.mp found
  exact ⟨body, location, rfl, sound.blockParts follow⟩

/-- A body, with or without braces. -/
theorem body (found : parse.body.Yields scope tokens node rest) :
    Reads .body scope.room tokens node rest := by
  simp only [Grammar.body, yields_sees_bind, yields_ite, Bool.not_eq_true] at found
  rcases found with ⟨_, found⟩ | ⟨ahead, found⟩
  · obtain ⟨body, location, rfl, read⟩ := sound.block found
    exact .bodyBlock read
  · exact .bodyStatement ahead (sound.statement found)

/-- What may follow an object. -/
theorem members {object : Node} (found : (parse.members object).Yields scope tokens node rest) :
    Reads (.members object) scope.room tokens node rest := by
  simp only [Grammar.members, yields_peek_bind] at found
  cases tokens with
  | nil =>
    obtain ⟨rfl, rfl⟩ := yields_pure.mp found
    exact .membersEnd rfl
  | cons mark tokens =>
    cases markKind : mark.separator? with
    | none =>
      simp only [List.head?_cons, Option.bind_some, markKind] at found
      obtain ⟨rfl, rfl⟩ := yields_pure.mp found
      exact .membersEnd (by simp [startsMember, markKind])
    | some separator =>
      simp only [List.head?_cons, Option.bind_some, markKind, yields_peekSecond_bind,
        yields_ite] at found
      rcases found with ⟨ahead, found⟩ | ⟨ahead, found⟩
      · cases tokens with
        | nil => simp at ahead
        | cons name tokens =>
          simp only [yields_skip_bind, List.drop_succ_cons, List.drop_zero] at found
          obtain ⟨property, middle, follow, found⟩ := yields_bind.mp found
          obtain ⟨rfl, rfl⟩ := yields_pure.mp found
          obtain ⟨room, enough, follow⟩ := yields_nested.mp follow
          rw [enough]
          exact .member markKind (by simpa using ahead) (sound.named (by simpa using ahead) follow)
      · obtain ⟨rfl, rfl⟩ := yields_pure.mp found
        exact .membersEnd (by simpa [startsMember, markKind] using ahead)

/-- Arguments behind a value. -/
theorem call {callee : Node} (openedKind : token.kind = .punctuation .openParen)
    (found : (parse.call callee).Yields scope (token :: tokens) node rest) :
    Reads (.call callee) scope.room (token :: tokens) node rest := by
  simp only [Grammar.call, yields_take_bind, List.head?_cons, Option.elim_some,
    List.drop_succ_cons, List.drop_zero] at found
  obtain ⟨⟨arguments, closed⟩, middle, follow, found⟩ := yields_bind.mp found
  obtain ⟨room, enough, follow⟩ := yields_nested.mp follow
  have members := sound.members found
  rw [enough] at members ⊢
  exact .call openedKind (reads_list .expression sound.expression follow) members

/-- An index behind a value. -/
theorem indexedRule {target : Node} (openedKind : token.kind = .punctuation .openBracket)
    (found : (parse.indexed target).Yields scope (token :: tokens) node rest) :
    Reads (.indexed target) scope.room (token :: tokens) node rest := by
  simp only [Grammar.indexed, yields_take_bind, List.head?_cons, Option.elim_some,
    List.drop_succ_cons, List.drop_zero] at found
  obtain ⟨index, middle, follow, found⟩ := yields_bind.mp found
  obtain ⟨room, enough, indexRead⟩ := yields_nested.mp follow
  obtain ⟨place, later, follow, found⟩ := yields_bind.mp found
  obtain ⟨closed, rfl, closedKind, rfl⟩ := yields_expectClosing.mp follow
  rw [enough]
  apply Reads.indexed openedKind (sound.expression indexRead) closedKind
  rcases yields_eat_bind.mp found with ⟨equals, later, rfl, equalsKind, found⟩ | ⟨noEquals, found⟩
  · obtain ⟨value, left, follow, found⟩ := yields_bind.mp found
    obtain ⟨rfl, rfl⟩ := yields_pure.mp found
    obtain ⟨other, same, valueRead⟩ := yields_nested.mp follow
    obtain rfl : room = other := by omega
    exact .elementAssigned equalsKind (sound.expression valueRead)
  · simp only [yields_sees_bind, yields_ite, Bool.not_eq_true, yields_nested] at found
    rcases found with ⟨paren, found⟩ | ⟨noParen, ⟨bracket, other, same, found⟩ | ⟨noBracket, found⟩⟩
    · obtain ⟨opened, later, rfl, openedKind⟩ := startsWith_iff.mp paren
      rw [← enough]
      exact .elementCalled (sound.call openedKind found)
    · obtain ⟨opened, later, rfl, openedKind⟩ := startsWith_iff.mp bracket
      obtain rfl : room = other := by omega
      exact .elementIndexed (sound.indexed openedKind found)
    · rw [← enough]
      exact .element noEquals noParen noBracket (sound.members found)

/-- The value that a variable gets. -/
theorem assignedRule {name : Token} {operator : AssignmentOperator}
    (found : (parse.assigned name operator).Yields scope tokens node rest) :
    ∃ room value, scope.room = room + 1 ∧
      node = .assignment name operator value (name.location.through value.location) ∧
      Reads .expression room tokens value rest := by
  obtain ⟨value, left, follow, found⟩ := yields_bind.mp found
  obtain ⟨rfl, rfl⟩ := yields_pure.mp found
  obtain ⟨room, enough, valueRead⟩ := yields_nested.mp follow
  exact ⟨room, value, enough, rfl, sound.expression valueRead⟩

/-- What a name leads before an operator. -/
theorem namedOperator {name : Token} {operator : Operator} {due : Bool}
    (nameKind : name.isIdentifier = true) (symbolKind : token.kind = .operator operator)
    (found : (parse.namedOperator name operator).Yields scope (token :: tokens) node rest) :
    Reads (.named due) scope.room (name :: token :: tokens) node rest := by
  simp only [Grammar.namedOperator, yields_peekSecond_bind, List.tail_cons] at found
  cases tokens with
  | nil =>
    obtain ⟨rfl, rfl⟩ := yields_pure.mp found
    exact .nameAlone nameKind (by simp) (by simp [leadsOn, symbolKind])
  | cons second tokens =>
    simp only [List.head?_cons, yields_ite, Token.isMark_eq, beq_iff_eq] at found
    rcases found with ⟨equalsKind, found⟩ | ⟨noEquals, ⟨same, found⟩ | ⟨other, found⟩⟩
    · cases compound : AssignmentOperator.compound? operator with
      | none =>
        simp only [compound] at found
        obtain ⟨rfl, rfl⟩ := yields_pure.mp found
        exact .nameAlone nameKind (by simp)
          (by simp [leadsOn, symbolKind, compound, Token.operator?, equalsKind])
      | some assignment =>
        simp only [compound] at found
        obtain ⟨room, value, enough, rfl, valueRead⟩ := sound.assignedRule found
        rw [enough]
        exact .combined nameKind symbolKind equalsKind compound valueRead
    · have secondKind : second.kind = .operator operator := by
        unfold Token.operator? at same
        split at same
        · rename_i kind
          cases same
          exact kind
        · contradiction
      cases doubled : UpdateOperator.doubled? operator with
      | none =>
        simp only [doubled] at found
        obtain ⟨rfl, rfl⟩ := yields_pure.mp found
        exact .nameAlone nameKind (by simp) (by simp [leadsOn, symbolKind, doubled, secondKind])
      | some update =>
        simp only [doubled, yields_skip_bind] at found
        obtain ⟨rfl, rfl⟩ := yields_pure.mp found
        exact .updated nameKind symbolKind secondKind doubled
    · obtain ⟨rfl, rfl⟩ := yields_pure.mp found
      exact .nameAlone nameKind (by simp) (by simp [leadsOn, symbolKind, noEquals, other])

/-- A name and all that it leads. -/
theorem namedRule {due : Bool} (nameKind : token.isIdentifier = true)
    (found : (parse.named due).Yields scope (token :: tokens) node rest) :
    Reads (.named due) scope.room (token :: tokens) node rest := by
  simp only [Grammar.named, yields_peek_bind, List.head?_cons, yields_skip_bind,
    List.drop_succ_cons, List.drop_zero] at found
  cases tokens with
  | nil =>
    cases due with
    | false =>
      obtain ⟨rfl, rfl⟩ := yields_pure.mp found
      exact .nameLast nameKind
    | true => exact absurd found not_yields_fail
  | cons follower tokens =>
    simp only [List.head?_cons] at found
    split at found
    · rename_i operator symbolKind
      exact sound.namedOperator nameKind symbolKind found
    · rename_i equalsKind
      obtain ⟨room, value, enough, rfl, valueRead⟩ := sound.assignedRule found
      rw [enough]
      exact .assigned nameKind equalsKind valueRead
    · rename_i openedKind
      exact .called nameKind (sound.call openedKind found)
    · rename_i markKind
      exact .owner nameKind (.inl markKind) (sound.members found)
    · rename_i markKind
      exact .owner nameKind (.inr markKind) (sound.members found)
    · rename_i openedKind
      exact .indexedName nameKind (sound.indexedRule openedKind found)
    · rename_i noOperator noEquals noParen noDot noColon noBracket
      obtain ⟨rfl, rfl⟩ := yields_pure.mp found
      exact .nameAlone nameKind (by simp) (by simp only [leadsOn])

/-- An expression in parentheses, or an empty pair of them. -/
theorem parenthesized {room : Nat} (openedKind : token.kind = .punctuation .openParen)
    (enough : scope.room = room)
    (found : parse.parenthesized.Yields scope (token :: tokens) node rest) :
    Reads .operand (room + 1) (token :: tokens) node rest := by
  simp only [Grammar.parenthesized, yields_take_bind, yields_atEnd_bind, yields_ite,
    not_yields_fail, and_false, false_or] at found
  obtain ⟨_, found⟩ := found
  rcases yields_eat_bind.mp found with ⟨closed, later, same, closedKind, found⟩ | ⟨ahead, found⟩
  · obtain rfl : tokens = closed :: later := same
    obtain ⟨rfl, rfl⟩ := yields_pure.mp found
    exact .unit openedKind closedKind
  · obtain ⟨inner, middle, read, found⟩ := yields_bind.mp found
    obtain ⟨place, left, follow, answer⟩ := yields_bind.mp found
    obtain ⟨closed, rfl, closedKind, _⟩ := yields_expectClosing.mp follow
    obtain ⟨rfl, rfl⟩ := yields_pure.mp answer
    exact .parenthesized openedKind ahead (enough ▸ sound.expression read) closedKind

/-- Values in brackets. -/
theorem array (openedKind : token.kind = .punctuation .openBracket)
    (found : parse.array.Yields scope (token :: tokens) node rest) :
    Reads .operand (scope.room + 1) (token :: tokens) node rest := by
  simp only [Grammar.array, yields_take_bind] at found
  obtain ⟨⟨elements, place⟩, left, follow, found⟩ := yields_bind.mp found
  obtain ⟨rfl, rfl⟩ := yields_pure.mp found
  exact .array openedKind (reads_list .expression sound.expression follow)

/-- An entry of an object literal. -/
theorem entry {entry : Entry} (found : parse.entry.Yields scope tokens entry rest) :
    Reads .entry scope.room tokens entry rest := by
  rcases yields_eat_bind.mp found with ⟨opened, later, rfl, openedKind, found⟩ | ⟨ahead, found⟩
  · obtain ⟨key, middle, follow, found⟩ := yields_bind.mp found
    obtain ⟨room, enough, keyRead⟩ := yields_nested.mp follow
    obtain ⟨place, left, follow, behind⟩ := yields_bind.mp found
    obtain ⟨closed, rfl, closedKind, _⟩ := yields_expectClosing.mp follow
    rcases yields_eat_bind.mp behind with ⟨equals, last, rfl, equalsKind, found⟩ | ⟨none, found⟩
    · obtain ⟨value, left, valueRead, found⟩ := yields_bind.mp found
      obtain ⟨rfl, rfl⟩ := yields_pure.mp found
      have valueRead := sound.expression valueRead
      rw [enough] at valueRead ⊢
      exact .keyedValue openedKind (sound.expression keyRead) closedKind equalsKind valueRead
    · obtain ⟨rfl, rfl⟩ := yields_pure.mp found
      rw [enough]
      exact .keyed openedKind (sound.expression keyRead) closedKind none
  · have item (noName : startsNamedEntry tokens = false)
        (found : (parse .expression >>= fun value =>
          (pure (.item value) : Parser Entry)).Yields scope tokens entry rest) :
        Reads .entry scope.room tokens entry rest := by
      obtain ⟨value, left, valueRead, found⟩ := yields_bind.mp found
      obtain ⟨rfl, rfl⟩ := yields_pure.mp found
      exact .item ahead noName (sound.expression valueRead)
    cases tokens with
    | nil => exact item rfl found
    | cons name tokens =>
      simp only [yields_peek_bind, List.head?_cons] at found
      by_cases nameKind : name.isIdentifier = true
      · rw [Option.filter_some, if_pos nameKind] at found
        simp only [yields_peekSecond_bind, yields_ite] at found
        rcases found with ⟨equal, found⟩ | ⟨other, found⟩
        · cases tokens with
          | nil => simp at equal
          | cons equals tokens =>
            rw [yields_skip_bind] at found
            obtain ⟨value, left, valueRead, found⟩ := yields_bind.mp found
            obtain ⟨rfl, rfl⟩ := yields_pure.mp found
            exact .namedEntry nameKind (by simpa using equal) (sound.expression valueRead)
        · exact item (by simpa [startsNamedEntry, nameKind] using other) found
      · rw [Option.filter_some, if_neg nameKind] at found
        exact item (by simp [startsNamedEntry, nameKind]) found

/-- An object literal. -/
theorem object (openedKind : token.kind = .punctuation .openBrace)
    (found : parse.object.Yields scope (token :: tokens) node rest) :
    Reads .operand (scope.room + 1) (token :: tokens) node rest := by
  simp only [Grammar.object, yields_take_bind] at found
  obtain ⟨⟨entries, place⟩, left, follow, found⟩ := yields_bind.mp found
  obtain ⟨rfl, rfl⟩ := yields_pure.mp found
  exact .object openedKind (reads_list .entry sound.entry follow)

/-- A negation. -/
theorem negation (markKind : token.kind = .punctuation .bang)
    (found : parse.negation.Yields scope (token :: tokens) node rest) :
    Reads .operand (scope.room + 1) (token :: tokens) node rest := by
  simp only [Grammar.negation, yields_take_bind, yields_atEnd_bind, yields_ite, not_yields_fail,
    and_false, false_or] at found
  obtain ⟨_, found⟩ := found
  obtain ⟨operand, left, read, found⟩ := yields_bind.mp found
  obtain ⟨rfl, rfl⟩ := yields_pure.mp found
  exact .negation markKind (sound.expression read)

/-- A function without a name. -/
theorem lambda (keywordKind : token.kind = .keyword .fn)
    (found : parse.lambda.Yields scope (token :: tokens) node rest) :
    Reads .lambda scope.room (token :: tokens) node rest := by
  simp only [Grammar.lambda, yields_take_bind] at found
  rcases yields_eat_bind.mp found with ⟨opened, later, same, openedKind, found⟩ | ⟨_, found⟩
  · obtain rfl : tokens = opened :: later := same
    obtain ⟨⟨parameters, place⟩, middle, follow, found⟩ := yields_bind.mp found
    obtain ⟨body, left, bodyRead, found⟩ := yields_bind.mp found
    obtain ⟨rfl, rfl⟩ := yields_pure.mp found
    have parametersRead : Reads (.list .paren .parameter) scope.room later (parameters, place)
        middle := by
      refine reads_list .parameter ?_ follow
      intro tokens name rest found
      obtain ⟨rfl, nameKind⟩ := yields_expectIdentifier.mp found
      exact .parameter nameKind
    exact .lambda keywordKind openedKind parametersRead (sound.body bodyRead)
  · exact absurd found not_yields_failHere

omit sound in
/-- A token that is taken as it is. -/
theorem reads_literal (operand : token.isOperand = true)
    (found : (do skip 1; return Node.leaf token : Parser Node).Yields scope (token :: tokens) node
      rest) :
    Reads .operand scope.room (token :: tokens) node rest := by
  rw [yields_skip_bind] at found
  obtain ⟨rfl, rfl⟩ := yields_pure.mp found
  exact .literal operand

/-- An operand. -/
theorem primary (found : parse.primary.Yields scope tokens node rest) :
    Reads .operand scope.room tokens node rest := by
  rw [Grammar.primary, yields_peek_bind] at found
  cases tokens with
  | nil => exact absurd found not_yields_failAtEnd
  | cons token tokens =>
    obtain ⟨kind, location⟩ := token
    cases kind with
    | punctuation mark =>
      cases mark with
      | openParen =>
        obtain ⟨room, enough, found⟩ := yields_nested.mp found
        rw [enough]
        exact sound.parenthesized rfl rfl found
      | openBracket =>
        obtain ⟨room, enough, found⟩ := yields_nested.mp found
        rw [enough]
        exact sound.array rfl found
      | openBrace =>
        obtain ⟨room, enough, found⟩ := yields_nested.mp found
        rw [enough]
        exact sound.object rfl found
      | bang =>
        obtain ⟨room, enough, found⟩ := yields_nested.mp found
        rw [enough]
        exact sound.negation rfl found
      | _ => exact absurd found not_yields_fail
    | otherMark character unknown => exact absurd found not_yields_fail
    | identifier name => exact .namedOperand rfl (sound.namedRule rfl found)
    | keyword keyword =>
      cases keyword with
      | fn =>
        obtain ⟨room, enough, found⟩ := yields_nested.mp found
        rw [enough]
        exact .lambdaOperand rfl (sound.lambda rfl found)
      | _ => exact reads_literal rfl found
    | _ => exact reads_literal rfl found

/-- Operators behind a left operand, and their operands. -/
theorem climb {budget strength : Nat} {left : Node} (enough : tokens.length ≤ budget)
    (found : (parse.climb budget left strength).Yields scope tokens node rest) :
    Reads (.climb left strength) scope.room tokens node rest := by
  induction budget generalizing tokens left strength node rest with
  | zero =>
    obtain rfl : tokens = [] := List.length_eq_zero_iff.mp (Nat.le_zero.mp enough)
    obtain ⟨rfl, rfl⟩ := yields_pure.mp found
    exact .climbEnd (by simp)
  | succ budget ih =>
    simp only [Grammar.climb, yields_peek_bind] at found
    cases operatorAhead : tokens.head?.bind Token.operator? with
    | none =>
      simp only [operatorAhead] at found
      obtain ⟨rfl, rfl⟩ := yields_pure.mp found
      exact .climbEnd (by simp [operatorAhead])
    | some operator =>
      simp only [operatorAhead, yields_ite] at found
      rcases found with ⟨weaker, found⟩ | ⟨tighter, found⟩
      · obtain ⟨rfl, rfl⟩ := yields_pure.mp found
        exact .climbEnd (by simpa [operatorAhead] using weaker)
      · cases tokens with
        | nil => simp at operatorAhead
        | cons symbol tokens =>
          have symbolKind : symbol.kind = .operator operator := by
            simp only [List.head?_cons, Option.bind_some, Token.operator?] at operatorAhead
            split at operatorAhead
            · rename_i kind
              cases operatorAhead
              exact kind
            · contradiction
          rw [yields_skip_bind] at found
          obtain ⟨operand, middle, operandRead, found⟩ := yields_bind.mp found
          obtain ⟨right, later, rightRead, found⟩ := yields_bind.mp found
          have operandRead := sound.primary operandRead
          have fewer := operandRead.suffix.length_le
          simp only [List.length_cons, List.drop_succ_cons, List.drop_zero] at enough fewer
          have rightRead := ih (by omega) rightRead
          have fewest := rightRead.suffix.length_le
          exact .climbNext symbolKind (by omega) operandRead rightRead (ih (by omega) found)

/-- A value. -/
theorem expressionRule (found : parse.expression.Yields scope tokens node rest) :
    Reads .expression scope.room tokens node rest := by
  obtain ⟨operand, middle, operandRead, found⟩ := yields_bind.mp found
  have operandRead := sound.primary operandRead
  simp only [yields_peek_bind, yields_ite, yields_peekSecond_bind, yields_left_bind] at found
  rcases found with ⟨first, ⟨second, found⟩ | ⟨second, found⟩⟩ | ⟨first, found⟩
  · have ahead : startsBinary middle = true := Bool.and_eq_true_iff.mpr ⟨first, second⟩
    exact .expressionBinary operandRead ahead (sound.climb (Nat.le_refl _) found)
  · obtain ⟨rfl, rfl⟩ := yields_pure.mp found
    exact .expressionOperand operandRead
      (Bool.and_eq_false_iff.mpr (.inr (Bool.not_eq_true _ ▸ second)))
  · obtain ⟨rfl, rfl⟩ := yields_pure.mp found
    exact .expressionOperand operandRead
      (Bool.and_eq_false_iff.mpr (.inl (Bool.not_eq_true _ ▸ first)))

/-- A new variable. -/
theorem declaration (keywordKind : token.kind = .keyword .let ∨ token.kind = .keyword .var)
    (found : parse.declaration.Yields scope (token :: tokens) node rest) :
    Reads .statement (scope.room + 1) (token :: tokens) node rest := by
  simp only [Grammar.declaration, yields_take_bind] at found
  obtain ⟨name, middle, follow, behind⟩ := yields_bind.mp found
  obtain ⟨same, nameKind⟩ := yields_expectIdentifier.mp follow
  obtain rfl : tokens = name :: middle := same
  rcases yields_eat_bind.mp behind with ⟨equals, later, rfl, equalsKind, answer⟩ | ⟨ahead, answer⟩
  · obtain ⟨value, left, valueRead, answer⟩ := yields_bind.mp answer
    obtain ⟨rfl, rfl⟩ := yields_pure.mp answer
    exact .initialized keywordKind nameKind equalsKind (sound.expression valueRead)
  · obtain ⟨rfl, rfl⟩ := yields_pure.mp answer
    exact .declared keywordKind nameKind ahead

/-- An `if`, from its keyword on. -/
theorem conditionalRule
    (keywordKind : token.kind = .keyword .if ∨ token.kind = .keyword .elseif)
    (found : parse.conditional.Yields scope (token :: tokens) node rest) :
    Reads .conditional scope.room (token :: tokens) node rest := by
  simp only [Grammar.conditional, yields_take_bind] at found
  obtain ⟨test, middle, testRead, found⟩ := yields_bind.mp found
  obtain ⟨consequent, later, consequentRead, found⟩ := yields_bind.mp found
  rw [yields_eatSemicolonBefore_bind] at found
  obtain ⟨alternate, left, follow, found⟩ := yields_bind.mp found
  obtain ⟨rfl, rfl⟩ := yields_pure.mp found
  have testRead := sound.expression testRead
  have consequentRead := sound.body consequentRead
  simp only [Grammar.alternate, yields_seesKeyword_bind, yields_ite, Bool.not_eq_true] at follow
  rcases follow with ⟨ahead, follow⟩ | ⟨noElse, ⟨ahead, follow⟩ | ⟨noElseif, follow⟩⟩
  · obtain ⟨follower, last, same, followerKind⟩ := startsWithKeyword_iff.mp ahead
    rw [same, yields_skip_bind] at follow
    obtain ⟨block, yielded, rfl⟩ := yields_map.mp follow
    obtain ⟨body, location, rfl, blockRead⟩ := sound.block yielded
    exact .conditionalElse keywordKind testRead consequentRead same followerKind blockRead
  · obtain ⟨follower, last, same, followerKind⟩ := startsWithKeyword_iff.mp ahead
    rw [same] at follow
    obtain ⟨alternate, yielded, rfl⟩ := yields_map.mp follow
    obtain ⟨room, enough, alternateRead⟩ := yields_nested.mp yielded
    rw [enough] at testRead consequentRead ⊢
    exact .conditionalElseif keywordKind testRead consequentRead same followerKind
      (sound.conditional (.inr followerKind) alternateRead)
  · obtain ⟨rfl, same⟩ := yields_pure.mp follow
    have stays : passSemicolonBefore [.else, .elseif] later = later :=
      passSemicolonBefore_eq_self (by simpa using ⟨noElse, noElseif⟩)
    rw [same, stays]
    exact .conditionalOnly keywordKind testRead consequentRead noElse noElseif

/-- A loop that tests before each round. -/
theorem whileLoop (keywordKind : token.kind = .keyword .while)
    (found : parse.whileLoop.Yields scope (token :: tokens) node rest) :
    Reads .statement (scope.room + 1) (token :: tokens) node rest := by
  simp only [Grammar.whileLoop, yields_take_bind] at found
  obtain ⟨test, middle, testRead, found⟩ := yields_bind.mp found
  obtain ⟨body, left, bodyRead, found⟩ := yields_bind.mp found
  obtain ⟨rfl, rfl⟩ := yields_pure.mp found
  exact .whileLoop keywordKind (sound.expression testRead) (sound.body bodyRead)

/-- A loop that tests after each round. -/
theorem doWhileLoop (keywordKind : token.kind = .keyword .do)
    (found : parse.doWhileLoop.Yields scope (token :: tokens) node rest) :
    Reads .statement (scope.room + 1) (token :: tokens) node rest := by
  simp only [Grammar.doWhileLoop, yields_take_bind] at found
  obtain ⟨body, middle, bodyRead, found⟩ := yields_bind.mp found
  simp only [yields_eatSemicolonBefore_bind, yields_seesKeyword_bind, yields_ite,
    not_yields_failHere, and_false, or_false] at found
  obtain ⟨ahead, found⟩ := found
  obtain ⟨follower, later, same, followerKind⟩ := startsWithKeyword_iff.mp ahead
  rw [same, yields_skip_bind] at found
  obtain ⟨test, left, testRead, found⟩ := yields_bind.mp found
  obtain ⟨rfl, rfl⟩ := yields_pure.mp found
  exact .doWhileLoop keywordKind (sound.body bodyRead) same followerKind
    (sound.expression testRead)

/-- A loop with a start, a test and a step. -/
theorem forLoop (keywordKind : token.kind = .keyword .for)
    (found : parse.forLoop.Yields scope (token :: tokens) node rest) :
    Reads .statement (scope.room + 1) (token :: tokens) node rest := by
  simp only [Grammar.forLoop, yields_take_bind] at found
  obtain ⟨initial, middle, initialRead, found⟩ := yields_bind.mp found
  rcases yields_eat_bind.mp found with ⟨comma, first, rfl, commaKind, behind⟩ | ⟨_, behind⟩
  · obtain ⟨test, second, testRead, behind⟩ := yields_bind.mp behind
    obtain ⟨update, third, updateRead, behind⟩ := yields_bind.mp behind
    obtain ⟨body, left, bodyRead, answer⟩ := yields_bind.mp behind
    obtain ⟨rfl, rfl⟩ := yields_pure.mp answer
    have initialRead := sound.statement initialRead
    have testRead := sound.expression testRead
    have bodyRead := sound.body bodyRead
    rcases yields_eat_bind.mp updateRead with
      ⟨mark, later, rfl, markKind, yielded⟩ | ⟨ahead, yielded⟩
    · exact .forLoop keywordKind initialRead commaKind testRead markKind
        (sound.statement yielded) bodyRead
    · cases initial with
      | declaration name value place =>
        simp only [yields_atEnd_bind, yields_ite, not_yields_failHere, and_false,
          false_or] at yielded
        obtain ⟨more, yielded⟩ := yielded
        obtain ⟨rfl, rfl⟩ := yields_pure.mp yielded
        exact .forLoopByOne keywordKind initialRead commaKind testRead ahead (by simpa using more)
          bodyRead
      | _ => exact absurd yielded not_yields_failHere
  · exact absurd behind not_yields_failHere

omit sound in
/-- The entries of a switch are the cases that are found. -/
theorem clausesOf {shown : String} {entries : List Node} {clauses : List Clause}
    (found : (Grammar.clausesOf shown entries).Yields scope tokens clauses rest) :
    entries = clauses.map Node.clause ∧ rest = tokens := by
  induction entries generalizing clauses with
  | nil =>
    obtain ⟨rfl, rfl⟩ := yields_pure.mp found
    exact ⟨rfl, rfl⟩
  | cons entry entries ih =>
    cases entry with
    | clause branch =>
      obtain ⟨others, left, follow, answer⟩ := yields_bind.mp found
      obtain ⟨rfl, rfl⟩ := yields_pure.mp answer
      obtain ⟨rfl, rfl⟩ := ih follow
      exact ⟨rfl, rfl⟩
    | _ => exact absurd found not_yields_fail

/-- A choice among cases. -/
theorem switch (keywordKind : token.kind = .keyword .switch)
    (found : parse.switch.Yields scope (token :: tokens) node rest) :
    Reads .statement (scope.room + 1) (token :: tokens) node rest := by
  simp only [Grammar.switch, yields_take_bind] at found
  obtain ⟨subject, middle, subjectRead, found⟩ := yields_bind.mp found
  obtain ⟨⟨entries, location⟩, later, blockRead, found⟩ := yields_bind.mp found
  obtain ⟨clauses, left, follow, answer⟩ := yields_bind.mp found
  obtain ⟨rfl, rfl⟩ := yields_pure.mp answer
  obtain ⟨rfl, rfl⟩ := clausesOf follow
  exact .switch keywordKind (sound.expression subjectRead) (sound.blockParts blockRead)

/-- Further values of a case. -/
theorem alternatives {budget : Nat} {values : List Node} (enough : tokens.length ≤ budget)
    (found : (parse.alternatives budget).Yields scope tokens values rest) :
    Reads .alternatives scope.room tokens values rest := by
  induction budget generalizing tokens values with
  | zero =>
    obtain rfl : tokens = [] := List.length_eq_zero_iff.mp (Nat.le_zero.mp enough)
    obtain ⟨rfl, rfl⟩ := yields_pure.mp found
    exact .alternativesEnd rfl
  | succ budget ih =>
    rcases yields_eat_bind.mp found with ⟨mark, later, rfl, markKind, behind⟩ | ⟨ahead, behind⟩
    · obtain ⟨value, middle, yielded, behind⟩ := yields_bind.mp behind
      obtain ⟨others, left, follow, answer⟩ := yields_bind.mp behind
      obtain ⟨rfl, rfl⟩ := yields_pure.mp answer
      have valueRead := sound.expression yielded
      have fewer := valueRead.suffix.length_le
      rw [List.length_cons] at enough
      exact .alternativesNext markKind valueRead (ih (by omega) follow)
    · obtain ⟨rfl, rfl⟩ := yields_pure.mp behind
      exact .alternativesEnd ahead

/-- The body of a case. -/
theorem clauseBody (found : parse.clauseBody.Yields scope tokens node rest) :
    Reads .clauseBody scope.room tokens node rest := by
  simp only [Grammar.clauseBody, yields_sees_bind, yields_ite] at found
  rcases found with ⟨_, found⟩ | ⟨_, found⟩
  · obtain ⟨body, location, rfl, blockRead⟩ := sound.block found
    exact .clauseBlock blockRead
  · rcases yields_eat_bind.mp found with ⟨colon, later, rfl, colonKind, yielded⟩ | ⟨_, refused⟩
    · exact .clauseStatement colonKind (sound.statement yielded)
    · exact absurd refused not_yields_failHere

/-- A case or the default. -/
theorem clause (keywordKind : token.kind = .keyword .case ∨ token.kind = .keyword .default)
    (found : parse.clause.Yields scope (token :: tokens) node rest) :
    Reads .statement (scope.room + 1) (token :: tokens) node rest := by
  simp only [Grammar.clause, yields_here_bind] at found
  obtain ⟨head, middle, headRead, found⟩ := yields_bind.mp found
  obtain ⟨body, left, bodyRead, answer⟩ := yields_bind.mp found
  obtain ⟨rfl, rfl⟩ := yields_pure.mp answer
  have bodyRead := sound.clauseBody bodyRead
  simp only [Grammar.clauseHead, yields_seesKeyword_bind, startsWithKeyword_cons, yields_ite,
    yields_skip_bind, beq_iff_eq] at headRead
  rcases headRead with ⟨keywordKind, answer⟩ | ⟨noDefault, found⟩
  · obtain ⟨rfl, rfl⟩ := yields_pure.mp answer
    exact .defaultClause keywordKind bodyRead
  · obtain ⟨value, later, valueRead, found⟩ := yields_bind.mp found
    rw [yields_left_bind] at found
    obtain ⟨others, last, othersRead, answer⟩ := yields_bind.mp found
    obtain ⟨rfl, rfl⟩ := yields_pure.mp answer
    exact .caseClause (keywordKind.resolve_right noDefault) (sound.expression valueRead)
      (sound.alternatives (Nat.le_refl _) othersRead) bodyRead

omit sound in
/-- The arguments of a signature are the names that are found. -/
theorem parametersOf {arguments : List Node} {parameters : List Token}
    (found : (Grammar.parametersOf arguments).Yields scope tokens parameters rest) :
    arguments = parameters.map Node.leaf ∧
      (∀ parameter ∈ parameters, parameter.isIdentifier = true) ∧ rest = tokens := by
  induction arguments generalizing parameters with
  | nil =>
    obtain ⟨rfl, rfl⟩ := yields_pure.mp found
    exact ⟨rfl, by simp, rfl⟩
  | cons argument arguments ih =>
    cases same : argument.identifier? with
    | none =>
      simp only [Grammar.parametersOf, same] at found
      exact absurd found not_yields_fail
    | some name =>
      simp only [Grammar.parametersOf, same] at found
      obtain ⟨others, left, follow, answer⟩ := yields_bind.mp found
      obtain ⟨rfl, rfl⟩ := yields_pure.mp answer
      obtain ⟨rfl, nameKinds, rfl⟩ := ih follow
      obtain ⟨leaf, nameKind⟩ := Option.filter_eq_some_iff.mp same
      cases argument with
      | leaf token =>
        cases leaf
        exact ⟨rfl, by simpa using ⟨nameKind, nameKinds⟩, rfl⟩
      | _ => cases leaf

/-- A function with a name. -/
theorem namedFunction (keywordKind : token.kind = .keyword .fn)
    (found : parse.namedFunction.Yields scope (token :: tokens) node rest) :
    Reads .statement (scope.room + 1) (token :: tokens) node rest := by
  simp only [Grammar.namedFunction, yields_take_bind, List.drop_succ_cons, List.drop_zero,
    yields_peek_bind, yields_ite, not_yields_failHere, and_false, or_false] at found
  obtain ⟨ahead, found⟩ := found
  cases tokens with
  | nil => simp at ahead
  | cons name tokens =>
    have nameKind : name.isIdentifier = true := ahead
    obtain ⟨signature, middle, signatureRead, found⟩ := yields_bind.mp found
    cases split : signature.signature? with
    | none =>
      simp only [split] at found
      exact absurd found not_yields_failHere
    | some pair =>
      obtain ⟨title, arguments⟩ := pair
      simp only [split] at found
      obtain ⟨parameters, later, follow, found⟩ := yields_bind.mp found
      obtain ⟨body, left, bodyRead, answer⟩ := yields_bind.mp found
      obtain ⟨rfl, rfl⟩ := yields_pure.mp answer
      obtain ⟨rfl, nameKinds, rfl⟩ := parametersOf follow
      exact .function keywordKind nameKind (sound.namedRule nameKind signatureRead) split nameKinds
        (sound.body bodyRead)

/-- A function, with or without a name. -/
theorem function (keywordKind : token.kind = .keyword .fn)
    (found : parse.function.Yields scope (token :: tokens) node rest) :
    Reads .statement (scope.room + 1) (token :: tokens) node rest := by
  simp only [Grammar.function, yields_peekSecond_bind, yields_ite] at found
  rcases found with ⟨_, found⟩ | ⟨_, found⟩
  · exact .lambdaStatement keywordKind (sound.lambda keywordKind found)
  · exact sound.namedFunction keywordKind found

/-- The end of a function. -/
theorem returns (keywordKind : token.kind = .keyword .return)
    (found : parse.returns.Yields scope (token :: tokens) node rest) :
    Reads .statement (scope.room + 1) (token :: tokens) node rest := by
  simp only [Grammar.returns, yields_take_bind, List.drop_succ_cons, List.drop_zero,
    yields_peek_bind] at found
  cases tokens with
  | nil =>
    obtain ⟨rfl, rfl⟩ := yields_pure.mp found
    exact .returnsNothing keywordKind (.inl rfl)
  | cons follower tokens =>
    simp only [List.head?_cons, yields_ite, Bool.or_eq_true, not_or, Bool.not_eq_true] at found
    rcases found with ⟨ahead, answer⟩ | ⟨⟨semicolon, brace⟩, found⟩
    · obtain ⟨rfl, rfl⟩ := yields_pure.mp answer
      exact .returnsNothing keywordKind (.inr ahead)
    · obtain ⟨value, left, valueRead, answer⟩ := yields_bind.mp found
      obtain ⟨rfl, rfl⟩ := yields_pure.mp answer
      exact .returnsValue keywordKind (by simp) semicolon brace (sound.expression valueRead)

/-- The statement that begins with a keyword. -/
theorem keywordStatement {keyword : Keyword} {location : Location}
    (keywordKind : token.kind = .keyword keyword)
    (found : (parse.keywordStatement ⟨keyword, location⟩).Yields scope (token :: tokens) node
      rest) :
    Reads .statement (scope.room + 1) (token :: tokens) node rest := by
  cases keyword with
  | «let» => exact sound.declaration (.inl keywordKind) found
  | var => exact sound.declaration (.inr keywordKind) found
  | «if» => exact .conditionalStatement keywordKind (sound.conditionalRule (.inl keywordKind) found)
  | «while» => exact sound.whileLoop keywordKind found
  | «do» => exact sound.doWhileLoop keywordKind found
  | «for» => exact sound.forLoop keywordKind found
  | switch => exact sound.switch keywordKind found
  | case => exact sound.clause (.inl keywordKind) found
  | default => exact sound.clause (.inr keywordKind) found
  | fn => exact sound.function keywordKind found
  | «return» => exact sound.returns keywordKind found
  | «else» => exact absurd found not_yields_fail
  | elseif => exact absurd found not_yields_fail

/-- A statement. -/
theorem statementRule (found : parse.statement.Yields scope tokens node rest) :
    Reads .statement scope.room tokens node rest := by
  obtain ⟨room, enough, found⟩ := yields_nested.mp found
  rw [enough]
  rw [yields_peek_bind] at found
  cases tokens with
  | nil => exact absurd found not_yields_failAtEnd
  | cons token tokens =>
    simp only [List.head?_cons, yields_record_bind] at found
    split at found
    · rename_i keyword keywordKind
      exact sound.keywordStatement keywordKind found
    · rename_i nameKind
      have named : token.isIdentifier = true := by simp [Token.isIdentifier, nameKind]
      exact .namedStatement named (sound.namedRule named found)
    · rename_i commentKind
      rw [yields_skip_bind] at found
      obtain ⟨rfl, rfl⟩ := yields_pure.mp found
      exact .comment (by simp [Token.isComment, commentKind])
    · rename_i commentKind
      rw [yields_skip_bind] at found
      obtain ⟨rfl, rfl⟩ := yields_pure.mp found
      exact .comment (by simp [Token.isComment, commentKind])
    · exact absurd found not_yields_fail

/-- A grammar that reads its parts by a sound one is sound. -/
theorem step : parse.step.Sound where
  statement := sound.statementRule
  expression := sound.expressionRule
  named := sound.namedRule
  indexed := sound.indexedRule
  conditional := sound.conditionalRule

/-- Statements up to the end of the source. -/
theorem statements {budget : Nat} {program : List Node} (enough : tokens.length ≤ budget)
    (found : (parse.statements budget).Yields scope tokens program rest) :
    Reads .program scope.room tokens program rest ∧ rest = [] := by
  induction budget generalizing tokens program with
  | zero =>
    obtain rfl : tokens = [] := List.length_eq_zero_iff.mp (Nat.le_zero.mp enough)
    obtain ⟨rfl, rfl⟩ := yields_pure.mp found
    exact ⟨.programEnd, rfl⟩
  | succ budget ih =>
    simp only [Grammar.statements, yields_atEnd_bind, yields_ite, List.isEmpty_iff] at found
    rcases found with ⟨rfl, answer⟩ | ⟨_, found⟩
    · obtain ⟨rfl, rfl⟩ := yields_pure.mp answer
      exact ⟨.programEnd, rfl⟩
    · obtain ⟨first, middle, yielded, found⟩ := yields_bind.mp found
      have firstRead := sound.statementRule yielded
      have fewer := firstRead.cost_le
      have fewest := (passSemicolon_suffix middle).length_le
      obtain ⟨others, left, follow, answer⟩ := yields_bind.mp (yields_eat_semicolon.mp found)
      obtain ⟨rfl, rfl⟩ := yields_pure.mp answer
      obtain ⟨othersRead, rfl⟩ := ih (by simp only [Part.cost] at fewer; omega) follow
      exact ⟨.programNext firstRead othersRead, rfl⟩

end Grammar.Sound

namespace Grammar

/-- The grammar for fewer than a given number of tokens is sound. -/
theorem sound_below (bound : Nat) : (below bound).Sound := by
  induction bound with
  | zero =>
    constructor <;> intros <;> exact absurd ‹_› not_yields_failAtEnd
  | succ bound ih => exact ih.step

/-- The grammar of the language reads by the one for the number of tokens. -/
theorem yields_full {goal : Goal} :
    (full goal).Yields scope tokens node rest ↔
      (below (tokens.length + 1) goal).Yields scope tokens node rest := by
  unfold Yields full
  rfl

/-- The grammar of the language is sound. -/
theorem sound_full : full.Sound where
  statement found := (sound_below _).statement (yields_full.mp found)
  expression found := (sound_below _).expression (yields_full.mp found)
  named nameKind found := (sound_below _).named nameKind (yields_full.mp found)
  indexed openedKind found := (sound_below _).indexed openedKind (yields_full.mp found)
  conditional keywordKind found :=
    (sound_below _).conditional keywordKind (yields_full.mp found)

end Grammar

/-- A program that is read is a reading of all its tokens, and no case in it is left outside all
switches. -/
theorem reads_of_yields_program {program : List Node}
    (found : Parser.program.Yields scope tokens program rest) :
    Reads .program scope.room tokens program rest ∧ rest = [] ∧
      program.findSome? Node.clause? = none := by
  rw [Parser.program, Grammar.program, yields_left_bind] at found
  obtain ⟨statements, left, follow, answer⟩ := yields_bind.mp found
  obtain ⟨read, rfl⟩ := Grammar.sound_full.statements (Nat.le_refl _) follow
  cases outside : statements.findSome? Node.clause? with
  | some branch =>
    simp only [outside] at answer
    exact absurd answer not_yields_fail
  | none =>
    simp only [outside] at answer
    obtain ⟨rfl, rfl⟩ := yields_pure.mp answer
    exact ⟨read, rfl, outside⟩

/-- A program that is parsed is a reading of all its tokens, and no case in it is left outside
all switches. -/
theorem reads_program {options : Options} {program : List Node}
    (found : (parseTokens options tokens).outcome = .ok program) :
    Reads .program options.maxDepth tokens program [] ∧
      program.findSome? Node.clause? = none := by
  have yielded : Parser.program.Yields (Scope.ofTokens options tokens) tokens program
      (parseTokens options tokens).rest := ⟨found, rfl⟩
  obtain ⟨read, ended, outside⟩ := reads_of_yields_program yielded
  rw [ended] at read
  exact ⟨read, outside⟩

/-- The program that a source is can be read from its tokens to the last of them. -/
theorem reads_of_parse {options : Options} {source : String} {program : List Node}
    (parsed : parse options source = .ok program) :
    ∃ tokens, tokenize source = .ok tokens ∧
      Reads .program options.maxDepth tokens program [] ∧
        program.findSome? Node.clause? = none := by
  unfold parse at parsed
  split at parsed
  · contradiction
  rename_i tokens scanned
  split at parsed
  · contradiction
  rename_i outcome
  cases parsed
  exact ⟨tokens, scanned, reads_program outcome⟩

end Oreo
