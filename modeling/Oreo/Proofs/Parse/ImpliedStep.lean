import Oreo.Proofs.Parse.Concatenation
import Oreo.Proofs.Parse.Print

/-!
# The implied step of a loop

A `for` loop that declares a variable may leave out its step, and the variable is then incremented.
It is the same to write the step out, as a comma and the name with two plus signs, between the test
and the body: the loop has the same parts, and the same step but for its place.

The end of the test is not marked. It is where a value cannot go on, which is decided by looking at
the first tokens of the body; with the step written out, a comma stands there instead. `Swapped`
relates the two lists of tokens that are in front of a parser while it reads the test, and every
part of the grammar is read from both in the same way (`Reads.swap`). Most decisions are the same
since neither a comma nor the beginning of a body is what they ask for. A `return` without a result
is the exception: it must stand before the end of what surrounds it, and so before neither of the
two.
-/

namespace Oreo

/-- Whether the first token may begin a body: it is an opening brace, or neither a mark nor an
operator. -/
def opensBody (tokens : List Token) : Bool :=
  tokens.head?.any fun token =>
    match token.kind with
    | .punctuation mark => mark == .openBrace
    | .operator _ | .otherOperator .. | .otherMark .. => false
    | _ => true

/-- The two lists begin with the same tokens. Behind these, what is left of the first may begin a
body, and what is left of the second begins with a comma. -/
inductive Swapped (rest other : List Token) : List Token → List Token → Prop
  /-- Nothing is left of the tokens before. -/
  | here (body : opensBody rest = true) (comma : startsWith .comma other = true) :
      Swapped rest other rest other
  /-- One more token stands before. -/
  | front {token : Token} {tokens others : List Token} (behind : Swapped rest other tokens others) :
      Swapped rest other (token :: tokens) (token :: others)

namespace Swapped

variable {rest other tokens others : List Token}

/-- There is a token in the first of two lists that begin alike. -/
theorem ne_nil (swapped : Swapped rest other tokens others) : tokens ≠ [] := by
  cases swapped with
  | here body _ =>
    rintro rfl
    cases body
  | front _ => exact List.cons_ne_nil _ _

/-- There is a token in the second of two lists that begin alike. -/
theorem others_ne_nil (swapped : Swapped rest other tokens others) : others ≠ [] := by
  cases swapped with
  | here _ comma =>
    rintro rfl
    cases comma
  | front _ => exact List.cons_ne_nil _ _

/-- What is left of the first list is no longer than the list. -/
theorem length_le (swapped : Swapped rest other tokens others) : rest.length ≤ tokens.length := by
  induction swapped with
  | here => exact Nat.le_refl _
  | front _ ih => exact Nat.le_succ_of_le ih

/-- Where a token stands before, it is the first of both lists. -/
theorem startsWith_eq {mark : Punctuation} (swapped : Swapped rest other tokens others)
    (longer : rest.length < tokens.length) : startsWith mark others = startsWith mark tokens := by
  cases swapped with
  | here => exact absurd longer (Nat.lt_irrefl _)
  | front _ => rfl

/-- Where a token stands before, the lists are swapped behind it. -/
theorem of_longer {token : Token} (swapped : Swapped rest other (token :: tokens) others)
    (longer : rest.length < (token :: tokens).length) :
    ∃ behind, others = token :: behind ∧ Swapped rest other tokens behind := by
  cases swapped with
  | here => exact absurd longer (Nat.lt_irrefl _)
  | front behind => exact ⟨_, rfl, behind⟩

/-- A mark before the members of an object does not begin a body. -/
theorem of_mark {mark : Token} (swapped : Swapped rest other (mark :: tokens) others)
    (kind : mark.kind = .punctuation .dot ∨ mark.kind = .punctuation .colon) :
    ∃ behind, others = mark :: behind ∧ Swapped rest other tokens behind := by
  cases swapped with
  | here body _ => rcases kind with kind | kind <;> simp [opensBody, kind] at body
  | front behind => exact ⟨_, rfl, behind⟩

/-- A mark that is no comma does not come first if it did not. -/
theorem not_startsWith {mark : Punctuation} (swapped : Swapped rest other tokens others)
    (noComma : mark ≠ .comma) (none : startsWith mark tokens = false) :
    startsWith mark others = false := by
  cases swapped with
  | here _ comma => exact startsWith_ne comma noComma.symm
  | front _ => exact none

/-- A mark that cannot begin a body comes first if it did. -/
theorem startsWith_of {mark : Punctuation} (swapped : Swapped rest other tokens others)
    (noBody : mark ≠ .openBrace) (ahead : startsWith mark tokens = true) :
    startsWith mark others = true := by
  cases swapped with
  | here body _ =>
    obtain ⟨token, later, rfl, kind⟩ := startsWith_iff.mp ahead
    simp [opensBody, kind, noBody] at body
  | front _ => exact ahead

/-- A binary operator is ahead in both lists or in neither. -/
theorem startsBinary_eq (swapped : Swapped rest other tokens others) :
    startsBinary others = startsBinary tokens := by
  have noOperator {tokens : List Token} (body : opensBody tokens = true) :
      ∃ token later, tokens = token :: later ∧ token.isOperator = false := by
    cases tokens with
    | nil => cases body
    | cons token later =>
      refine ⟨token, later, rfl, ?_⟩
      obtain ⟨kind, location⟩ := token
      cases kind with
      | operator operator => cases body
      | otherOperator text unknown => cases body
      | _ => rfl
  have noComma {tokens : List Token} (comma : startsWith .comma tokens = true) :
      ∃ token later, tokens = token :: later ∧ token.isOperator = false := by
    obtain ⟨token, later, rfl, kind⟩ := startsWith_iff.mp comma
    exact ⟨token, later, rfl, by simp [Token.isOperator, kind]⟩
  cases swapped with
  | here body comma =>
    obtain ⟨first, later, rfl, firstOther⟩ := noOperator body
    obtain ⟨mark, behind, rfl, markOther⟩ := noComma comma
    simp [startsBinary, firstOther, markOther]
  | front behind =>
    cases behind with
    | here body comma =>
      obtain ⟨first, later, rfl, firstOther⟩ := noOperator body
      obtain ⟨mark, behind, rfl, markOther⟩ := noComma comma
      simp [startsBinary, firstOther, markOther]
    | front _ => rfl

/-- No member is ahead in the second list if none is in the first. -/
theorem not_startsMember (swapped : Swapped rest other tokens others)
    (none : startsMember tokens = false) : startsMember others = false := by
  cases swapped with
  | here _ comma =>
    obtain ⟨mark, behind, rfl, kind⟩ := startsWith_iff.mp comma
    simp [startsMember, Token.separator?, MemberSeparator.ofMark?, kind]
  | front behind =>
    cases behind with
    | here _ comma =>
      obtain ⟨mark, behind, rfl, kind⟩ := startsWith_iff.mp comma
      simp [startsMember, Token.isIdentifier, kind]
    | front _ => exact none

/-- No named entry is ahead in the second list if none is in the first. -/
theorem not_startsNamedEntry (swapped : Swapped rest other tokens others)
    (none : startsNamedEntry tokens = false) : startsNamedEntry others = false := by
  cases swapped with
  | here _ comma =>
    obtain ⟨mark, behind, rfl, kind⟩ := startsWith_iff.mp comma
    simp [startsNamedEntry, Token.isIdentifier, kind]
  | front behind =>
    cases behind with
    | here _ comma =>
      obtain ⟨mark, behind, rfl, kind⟩ := startsWith_iff.mp comma
      simp [startsNamedEntry, kind]
    | front _ => exact none

/-- No name leads on in the second list if none does in the first. -/
theorem not_leadsOn (swapped : Swapped rest other tokens others)
    (none : leadsOn tokens = false) : leadsOn others = false := by
  cases swapped with
  | here _ comma =>
    obtain ⟨mark, behind, rfl, kind⟩ := startsWith_iff.mp comma
    simp [leadsOn, kind]
  | @front token _ _ behind =>
    cases behind with
    | here _ comma =>
      obtain ⟨mark, behind, rfl, markKind⟩ := startsWith_iff.mp comma
      obtain ⟨kind, location⟩ := token
      cases kind with
      | operator operator => simp [leadsOn, Token.operator?, markKind]
      | punctuation mark => cases mark <;> exact none
      | _ => exact none
    | front _ => exact none

/-- An operator that comes first did so before. -/
theorem operator_of {operator : Operator} (swapped : Swapped rest other tokens others)
    (found : others.head?.bind Token.operator? = some operator) :
    tokens.head?.bind Token.operator? = some operator := by
  cases swapped with
  | here _ comma =>
    obtain ⟨mark, behind, rfl, kind⟩ := startsWith_iff.mp comma
    simp [Token.operator?, kind] at found
  | front _ => exact found

/-- What ends a `return` is no beginning of a body, and stands before both. -/
theorem returns_nothing (swapped : Swapped rest other tokens others) (ahead : tokens = [] ∨
      startsWith .semicolon tokens = true ∨ startsWith .closeBrace tokens = true) :
    others = [] ∨ startsWith .semicolon others = true ∨ startsWith .closeBrace others = true := by
  rcases ahead with none | ahead | ahead
  · exact absurd none swapped.ne_nil
  · exact .inr (.inl (swapped.startsWith_of (by decide) ahead))
  · exact .inr (.inr (swapped.startsWith_of (by decide) ahead))

/-- What is swapped behind an optional semicolon is swapped before it. -/
theorem passSemicolon (swapped : Swapped rest other (passSemicolon tokens) others) :
    ∃ before, Swapped rest other tokens before ∧ Oreo.passSemicolon before = others := by
  cases ahead : startsWith .semicolon tokens with
  | true =>
    obtain ⟨semicolon, later, rfl, kind⟩ := startsWith_iff.mp ahead
    rw [Oreo.passSemicolon, if_pos ahead] at swapped
    exact ⟨semicolon :: others, swapped.front, by simp [Oreo.passSemicolon, kind]⟩
  | false =>
    rw [Oreo.passSemicolon, ahead, if_neg Bool.false_ne_true] at swapped
    have none := swapped.not_startsWith (by decide) ahead
    exact ⟨others, swapped, by simp [Oreo.passSemicolon, none]⟩

/-- What is swapped behind a keyword that an optional semicolon precedes is swapped before it. -/
theorem passSemicolonBefore {keywords : List Keyword} {follower : Token} {keyword : Keyword}
    {later : List Token} (ahead : passSemicolonBefore keywords tokens = follower :: later)
    (kind : follower.kind = .keyword keyword) (swapped : Swapped rest other later others) :
    ∃ before, Swapped rest other tokens before ∧
      Oreo.passSemicolonBefore keywords before = follower :: others := by
  by_cases passed : startsWith .semicolon tokens ∧
      keywords.any (startsWithKeyword · tokens.tail)
  · rw [Oreo.passSemicolonBefore, if_pos passed] at ahead
    obtain ⟨semicolon, behind, rfl, semicolonKind⟩ := startsWith_iff.mp passed.1
    obtain rfl : behind = follower :: later := ahead
    exact ⟨semicolon :: follower :: others, swapped.front.front, if_pos passed⟩
  · rw [Oreo.passSemicolonBefore, if_neg passed] at ahead
    subst ahead
    exact ⟨follower :: others, swapped.front, by simp [Oreo.passSemicolonBefore, kind]⟩

/-- What does not go on with `else` does not do so before a comma. -/
theorem not_startsAlternate (swapped : Swapped rest other tokens others)
    (none : startsAlternate (alternateAhead tokens) = false) :
    startsAlternate (alternateAhead others) = false := by
  cases swapped with
  | here _ comma =>
    obtain ⟨mark, behind, rfl, kind⟩ := startsWith_iff.mp comma
    simp [startsAlternate, alternateAhead, Oreo.passSemicolonBefore, kind]
  | @front token _ _ behind =>
    cases behind with
    | here _ comma =>
      obtain ⟨mark, behind, rfl, kind⟩ := startsWith_iff.mp comma
      have stays : alternateAhead (token :: mark :: behind) = token :: mark :: behind := by
        simp [alternateAhead, Oreo.passSemicolonBefore, kind]
      rw [stays]
      by_cases semicolon : token.kind = .punctuation .semicolon
      · simp [startsAlternate, semicolon]
      · simpa [startsAlternate, alternateAhead, Oreo.passSemicolonBefore, semicolon] using none
    | @front second _ _ _ =>
      obtain same | same := passSemicolonBefore_two [.else, .elseif] token second
      · rw [alternateAhead, same] at none ⊢
        exact none
      · rw [alternateAhead, same] at none ⊢
        exact none

/-- Any tokens may stand before. -/
theorem append (body : opensBody rest = true) (comma : startsWith .comma other = true)
    (front : List Token) : Swapped rest other (front ++ rest) (front ++ other) := by
  induction front with
  | nil => exact .here body comma
  | cons token front ih => exact .front ih

/-- The tokens that stand before are told by the first list. -/
theorem eq_append {front : List Token} (swapped : Swapped rest other (front ++ rest) others) :
    others = front ++ other := by
  have split {tokens others : List Token} (swapped : Swapped rest other tokens others) :
      ∃ front, tokens = front ++ rest ∧ others = front ++ other := by
    induction swapped with
    | here => exact ⟨[], rfl, rfl⟩
    | @front token _ _ _ ih =>
      obtain ⟨front, rfl, rfl⟩ := ih
      exact ⟨token :: front, rfl, rfl⟩
  obtain ⟨found, same, rfl⟩ := split swapped
  rw [List.append_cancel_right same]

end Swapped

namespace Reads

variable {part : Part} {room : Nat} {tokens left rest other others : List Token}
  {value : part.Result}

/-- What is swapped behind a part is shorter than what the part is read from. -/
theorem length_lt_of_swapped (reads : Reads part room tokens value left) (takes : part.cost = 1)
    (swapped : Swapped rest other left others) : rest.length < tokens.length := by
  have taken := reads.cost_le
  rw [takes] at taken
  exact Nat.lt_of_le_of_lt swapped.length_le taken

/-- What is swapped behind a token that a part leaves is shorter than what the part is read from. -/
theorem length_lt_of_rest {token : Token} (reads : Reads part room tokens value (token :: left))
    (swapped : Swapped rest other left others) : rest.length < tokens.length :=
  Nat.lt_of_lt_of_le (Nat.lt_succ_of_le swapped.length_le) reads.suffix.length_le

/-- A part is read before a comma as it is read before a body. -/
theorem swap (reads : Reads part room tokens value left)
    (swapped : Swapped rest other left others) :
    ∃ before, Swapped rest other tokens before ∧ Reads part room before value others := by
  -- What is left is swapped; from there the induction goes back through the parts, to what the
  -- first of them is read from.
  induction reads generalizing others with
  | programEnd => exact absurd rfl swapped.ne_nil
  | programNext _ _ first more =>
    obtain ⟨later, behind, moreRead⟩ := more swapped
    obtain ⟨middle, between, rfl⟩ := behind.passSemicolon
    obtain ⟨before, ahead, firstRead⟩ := first between
    exact ⟨before, ahead, .programNext firstRead moreRead⟩
  | declared keyword name ahead =>
    exact ⟨_, swapped.front.front,
      .declared keyword name (swapped.not_startsWith (by decide) ahead)⟩
  | initialized keyword name equals _ value =>
    obtain ⟨_, behind, valueRead⟩ := value swapped
    exact ⟨_, behind.front.front.front, .initialized keyword name equals valueRead⟩
  | conditionalStatement keyword read conditional =>
    obtain ⟨_, before, conditionalRead⟩ := conditional swapped
    obtain ⟨_, rfl, _⟩ := before.of_longer (read.length_lt_of_swapped rfl swapped)
    exact ⟨_, before, .conditionalStatement keyword conditionalRead⟩
  | whileLoop keyword _ _ test body =>
    obtain ⟨_, later, bodyRead⟩ := body swapped
    obtain ⟨_, behind, testRead⟩ := test later
    exact ⟨_, behind.front, .whileLoop keyword testRead bodyRead⟩
  | doWhileLoop keyword _ ahead kind _ body test =>
    obtain ⟨_, later, testRead⟩ := test swapped
    obtain ⟨_, middle, passed⟩ := later.passSemicolonBefore ahead kind
    obtain ⟨_, behind, bodyRead⟩ := body middle
    exact ⟨_, behind.front, .doWhileLoop keyword bodyRead passed kind testRead⟩
  | forLoop keyword _ comma _ second _ _ initial test update body =>
    obtain ⟨_, last, bodyRead⟩ := body swapped
    obtain ⟨_, later, updateRead⟩ := update last
    obtain ⟨_, middle, testRead⟩ := test later.front
    obtain ⟨_, behind, initialRead⟩ := initial middle.front
    exact ⟨_, behind.front,
      .forLoop keyword initialRead comma testRead second updateRead bodyRead⟩
  | forLoopByOne keyword _ comma _ ahead some read initial test body =>
    obtain ⟨_, later, bodyRead⟩ := body swapped
    obtain ⟨_, middle, testRead⟩ := test later
    obtain ⟨_, behind, initialRead⟩ := initial middle.front
    have none := (later.startsWith_eq (read.length_lt_of_swapped rfl swapped)).trans ahead
    exact ⟨_, behind.front,
      .forLoopByOne keyword initialRead comma testRead none later.others_ne_nil bodyRead⟩
  | switch keyword _ _ subject clauses =>
    obtain ⟨_, middle, clausesRead⟩ := clauses swapped
    obtain ⟨_, behind, subjectRead⟩ := subject middle
    exact ⟨_, behind.front, .switch keyword subjectRead clausesRead⟩
  | caseClause keyword _ _ _ value more body =>
    obtain ⟨_, later, bodyRead⟩ := body swapped
    obtain ⟨_, middle, othersRead⟩ := more later
    obtain ⟨_, behind, valueRead⟩ := value middle
    exact ⟨_, behind.front, .caseClause keyword valueRead othersRead bodyRead⟩
  | defaultClause keyword _ body =>
    obtain ⟨_, behind, bodyRead⟩ := body swapped
    exact ⟨_, behind.front, .defaultClause keyword bodyRead⟩
  | lambdaStatement keyword read lambda =>
    obtain ⟨_, before, lambdaRead⟩ := lambda swapped
    obtain ⟨_, rfl, _⟩ := before.of_longer (read.length_lt_of_swapped rfl swapped)
    exact ⟨_, before, .lambdaStatement keyword lambdaRead⟩
  | function keyword name read split parameters _ signature body =>
    obtain ⟨_, middle, bodyRead⟩ := body swapped
    obtain ⟨_, behind, signatureRead⟩ := signature middle
    obtain ⟨_, rfl, _⟩ := behind.of_longer (read.length_lt_of_swapped rfl middle)
    exact ⟨_, behind.front, .function keyword name signatureRead split parameters bodyRead⟩
  | returnsNothing keyword ahead =>
    exact ⟨_, swapped.front, .returnsNothing keyword (swapped.returns_nothing ahead)⟩
  | returnsValue keyword some semicolon brace _ value =>
    obtain ⟨_, behind, valueRead⟩ := value swapped
    exact ⟨_, behind.front, .returnsValue keyword behind.others_ne_nil
      (behind.not_startsWith (by decide) semicolon) (behind.not_startsWith (by decide) brace)
      valueRead⟩
  | namedStatement name read named =>
    obtain ⟨_, before, namedRead⟩ := named swapped
    obtain ⟨_, rfl, _⟩ := before.of_longer (read.length_lt_of_swapped rfl swapped)
    exact ⟨_, before, .namedStatement name namedRead⟩
  | comment kind => exact ⟨_, swapped.front, .comment kind⟩
  | conditionalOnly keyword _ _ noElse noElseif test body =>
    obtain ⟨_, middle, bodyRead⟩ := body swapped
    obtain ⟨_, behind, testRead⟩ := test middle
    have none := swapped.not_startsAlternate (by simp [startsAlternate, noElse, noElseif])
    obtain ⟨noElse, noElseif⟩ := Bool.or_eq_false_iff.mp none
    exact ⟨_, behind.front, .conditionalOnly keyword testRead bodyRead noElse noElseif⟩
  | conditionalElse keyword _ _ ahead kind _ test body block =>
    obtain ⟨_, last, blockRead⟩ := block swapped
    obtain ⟨_, later, passed⟩ := last.passSemicolonBefore ahead kind
    obtain ⟨_, middle, bodyRead⟩ := body later
    obtain ⟨_, behind, testRead⟩ := test middle
    exact ⟨_, behind.front, .conditionalElse keyword testRead bodyRead passed kind blockRead⟩
  | conditionalElseif keyword _ _ ahead kind read test body alternate =>
    obtain ⟨_, whole, alternateRead⟩ := alternate swapped
    obtain ⟨_, rfl, last⟩ := whole.of_longer (read.length_lt_of_swapped rfl swapped)
    obtain ⟨_, later, passed⟩ := last.passSemicolonBefore ahead kind
    obtain ⟨_, middle, bodyRead⟩ := body later
    obtain ⟨_, behind, testRead⟩ := test middle
    exact ⟨_, behind.front, .conditionalElseif keyword testRead bodyRead passed kind alternateRead⟩
  | alternativesEnd ahead =>
    exact ⟨_, swapped, .alternativesEnd (swapped.not_startsWith (by decide) ahead)⟩
  | alternativesNext mark _ _ value more =>
    obtain ⟨_, middle, othersRead⟩ := more swapped
    obtain ⟨_, behind, valueRead⟩ := value middle
    exact ⟨_, behind.front, .alternativesNext mark valueRead othersRead⟩
  | clauseBlock _ block =>
    obtain ⟨_, before, blockRead⟩ := block swapped
    exact ⟨_, before, .clauseBlock blockRead⟩
  | clauseStatement colon _ statement =>
    obtain ⟨_, behind, statementRead⟩ := statement swapped
    exact ⟨_, behind.front, .clauseStatement colon statementRead⟩
  | bodyBlock _ block =>
    obtain ⟨_, before, blockRead⟩ := block swapped
    exact ⟨_, before, .bodyBlock blockRead⟩
  | bodyStatement ahead _ statement =>
    obtain ⟨_, before, statementRead⟩ := statement swapped
    exact ⟨_, before, .bodyStatement (before.not_startsWith (by decide) ahead) statementRead⟩
  | block opened _ body =>
    obtain ⟨_, behind, bodyRead⟩ := body swapped
    exact ⟨_, behind.front, .block opened bodyRead⟩
  | statementsEnd closed => exact ⟨_, swapped.front, .statementsEnd closed⟩
  | statementsNext ahead _ _ first more =>
    obtain ⟨_, later, othersRead⟩ := more swapped
    obtain ⟨_, middle, rfl⟩ := later.passSemicolon
    obtain ⟨_, before, firstRead⟩ := first middle
    exact ⟨_, before,
      .statementsNext (before.not_startsWith (by decide) ahead) firstRead othersRead⟩
  | lambda keyword opened _ _ parameters body =>
    obtain ⟨_, middle, bodyRead⟩ := body swapped
    obtain ⟨_, behind, parametersRead⟩ := parameters middle
    exact ⟨_, behind.front.front, .lambda keyword opened parametersRead bodyRead⟩
  | expressionOperand _ ahead operand =>
    obtain ⟨_, before, operandRead⟩ := operand swapped
    exact ⟨_, before, .expressionOperand operandRead (swapped.startsBinary_eq.trans ahead)⟩
  | expressionBinary _ ahead _ operand climb =>
    obtain ⟨_, middle, climbRead⟩ := climb swapped
    obtain ⟨_, before, operandRead⟩ := operand middle
    exact ⟨_, before,
      .expressionBinary operandRead (middle.startsBinary_eq.trans ahead) climbRead⟩
  | climbEnd ahead =>
    exact ⟨_, swapped, .climbEnd fun operator found => ahead operator (swapped.operator_of found)⟩
  | climbNext symbol tighter _ _ _ operand right climb =>
    obtain ⟨_, later, climbRead⟩ := climb swapped
    obtain ⟨_, middle, rightRead⟩ := right later
    obtain ⟨_, behind, operandRead⟩ := operand middle
    exact ⟨_, behind.front, .climbNext symbol tighter operandRead rightRead climbRead⟩
  | unit opened closed => exact ⟨_, swapped.front.front, .unit opened closed⟩
  | parenthesized opened ahead _ closed value =>
    obtain ⟨_, behind, valueRead⟩ := value swapped.front
    exact ⟨_, behind.front,
      .parenthesized opened (behind.not_startsWith (by decide) ahead) valueRead closed⟩
  | array opened _ elements =>
    obtain ⟨_, behind, elementsRead⟩ := elements swapped
    exact ⟨_, behind.front, .array opened elementsRead⟩
  | object opened _ entries =>
    obtain ⟨_, behind, entriesRead⟩ := entries swapped
    exact ⟨_, behind.front, .object opened entriesRead⟩
  | negation mark _ operand =>
    obtain ⟨_, behind, operandRead⟩ := operand swapped
    exact ⟨_, behind.front, .negation mark operandRead⟩
  | lambdaOperand keyword read lambda =>
    obtain ⟨_, before, lambdaRead⟩ := lambda swapped
    obtain ⟨_, rfl, _⟩ := before.of_longer (read.length_lt_of_swapped rfl swapped)
    exact ⟨_, before, .lambdaOperand keyword lambdaRead⟩
  | namedOperand name read named =>
    obtain ⟨_, before, namedRead⟩ := named swapped
    obtain ⟨_, rfl, _⟩ := before.of_longer (read.length_lt_of_swapped rfl swapped)
    exact ⟨_, before, .namedOperand name namedRead⟩
  | literal operand => exact ⟨_, swapped.front, .literal operand⟩
  | nameLast => exact absurd rfl swapped.ne_nil
  | nameAlone name some ahead =>
    exact ⟨_, swapped.front,
      .nameAlone name swapped.others_ne_nil (swapped.not_leadsOn ahead)⟩
  | assigned name equals _ value =>
    obtain ⟨_, behind, valueRead⟩ := value swapped
    exact ⟨_, behind.front.front, .assigned name equals valueRead⟩
  | combined name symbol equals compound _ value =>
    obtain ⟨_, behind, valueRead⟩ := value swapped
    exact ⟨_, behind.front.front.front, .combined name symbol equals compound valueRead⟩
  | updated name symbol second doubled =>
    exact ⟨_, swapped.front.front.front, .updated name symbol second doubled⟩
  | called name _ call =>
    obtain ⟨_, behind, callRead⟩ := call swapped
    exact ⟨_, behind.front, .called name callRead⟩
  | owner name mark _ members =>
    obtain ⟨_, behind, membersRead⟩ := members swapped
    obtain ⟨_, rfl, _⟩ := behind.of_mark mark
    exact ⟨_, behind.front, .owner name mark membersRead⟩
  | indexedName name _ indexed =>
    obtain ⟨_, behind, indexedRead⟩ := indexed swapped
    exact ⟨_, behind.front, .indexedName name indexedRead⟩
  | membersEnd ahead => exact ⟨_, swapped, .membersEnd (swapped.not_startsMember ahead)⟩
  | member mark name read property =>
    obtain ⟨_, behind, propertyRead⟩ := property swapped
    obtain ⟨_, rfl, _⟩ := behind.of_longer (read.length_lt_of_swapped rfl swapped)
    exact ⟨_, behind.front, .member mark name propertyRead⟩
  | call opened _ _ arguments members =>
    obtain ⟨_, middle, membersRead⟩ := members swapped
    obtain ⟨_, behind, argumentsRead⟩ := arguments middle
    exact ⟨_, behind.front, .call opened argumentsRead membersRead⟩
  | indexed opened _ closed _ index accessed =>
    obtain ⟨_, middle, accessedRead⟩ := accessed swapped
    obtain ⟨_, behind, indexRead⟩ := index middle.front
    exact ⟨_, behind.front, .indexed opened indexRead closed accessedRead⟩
  | elementAssigned equals _ value =>
    obtain ⟨_, behind, valueRead⟩ := value swapped
    exact ⟨_, behind.front, .elementAssigned equals valueRead⟩
  | elementCalled _ call =>
    obtain ⟨_, before, callRead⟩ := call swapped
    exact ⟨_, before, .elementCalled callRead⟩
  | elementIndexed _ indexed =>
    obtain ⟨_, before, indexedRead⟩ := indexed swapped
    exact ⟨_, before, .elementIndexed indexedRead⟩
  | element noEquals noParen noBracket _ members =>
    obtain ⟨_, before, membersRead⟩ := members swapped
    exact ⟨_, before, .element (before.not_startsWith (by decide) noEquals)
      (before.not_startsWith (by decide) noParen) (before.not_startsWith (by decide) noBracket)
      membersRead⟩
  | keyedValue opened _ closed equals _ key value =>
    obtain ⟨_, middle, valueRead⟩ := value swapped
    obtain ⟨_, behind, keyRead⟩ := key middle.front.front
    exact ⟨_, behind.front, .keyedValue opened keyRead closed equals valueRead⟩
  | keyed opened _ closed ahead key =>
    obtain ⟨_, behind, keyRead⟩ := key swapped.front
    exact ⟨_, behind.front,
      .keyed opened keyRead closed (swapped.not_startsWith (by decide) ahead)⟩
  | namedEntry name equals _ value =>
    obtain ⟨_, behind, valueRead⟩ := value swapped
    exact ⟨_, behind.front.front, .namedEntry name equals valueRead⟩
  | item noBracket noName _ value =>
    obtain ⟨_, before, valueRead⟩ := value swapped
    exact ⟨_, before, .item (before.not_startsWith (by decide) noBracket)
      (before.not_startsNamedEntry noName) valueRead⟩
  | parameter name => exact ⟨_, swapped.front, .parameter name⟩
  | listEmpty closed => exact ⟨_, swapped.front, .listEmpty closed⟩
  | listItems ahead _ items =>
    obtain ⟨_, before, itemsRead⟩ := items swapped
    have none := before.not_startsWith (Bracket.closer_ne_comma _) ahead
    exact ⟨_, before, .listItems none itemsRead⟩
  | itemsEnd ahead read closed first =>
    obtain ⟨_, before, firstRead⟩ := first swapped.front
    have none := (before.startsWith_eq (read.length_lt_of_rest swapped)).trans ahead
    exact ⟨_, before, .itemsEnd none firstRead closed⟩
  | itemsNext ahead read comma goesOn _ first more =>
    obtain ⟨_, middle, othersRead⟩ := more swapped
    obtain ⟨_, before, firstRead⟩ := first middle.front
    have none := (before.startsWith_eq (read.length_lt_of_rest middle)).trans ahead
    have goesOn := middle.not_startsWith (Bracket.closer_ne_comma _) goesOn
    exact ⟨_, before, .itemsNext none firstRead comma goesOn othersRead⟩

/-- A part that leaves some tokens before a body is read in the same way if it leaves them before a
comma. -/
theorem swap_append (front behind : List Token)
    (reads : Reads part room (front ++ (behind ++ rest)) value (behind ++ rest))
    (body : opensBody rest = true) (comma : startsWith .comma other = true) :
    Reads part room (front ++ (behind ++ other)) value (behind ++ other) := by
  obtain ⟨before, swapped, found⟩ := reads.swap (.append body comma behind)
  rw [← List.append_assoc] at swapped
  rw [← List.append_assoc, ← swapped.eq_append]
  exact found

/-- What a body is read from may begin one. -/
theorem opensBody {node : Node} (reads : Reads .body room tokens node left) :
    opensBody tokens = true := by
  cases reads with
  | bodyBlock block =>
    cases block with
    | block opened _ => simp [Oreo.opensBody, opened]
  | bodyStatement _ statement =>
    cases statement <;>
      grind [Oreo.opensBody, Token.isIdentifier_iff, Token.isComment]

/-- A loop declares something and tests a value. A comma follows, or what was declared is a
variable, which is incremented. -/
theorem loop_parts {keyword : Token} {node : Node}
    (reads : Reads .statement room (keyword :: tokens) node left)
    (kind : keyword.kind = .keyword .for) :
    ∃ inner initial comma middle test later, room = inner + 1 ∧
      Reads .statement inner tokens initial (comma :: middle) ∧
      comma.kind = .punctuation .comma ∧ Reads .expression inner middle test later ∧
      (startsWith .comma later = true ∨ ∃ name value place body,
        initial = .declaration name value place ∧ Reads .body inner later body left ∧
        node = .forLoop initial test (.update name .increment name.location) body
          (keyword.location.through body.location)) := by
  cases reads with
  | forLoop _ initialRead commaKind testRead secondKind =>
    exact ⟨_, _, _, _, _, _, rfl, initialRead, commaKind, testRead, .inl (by simp [secondKind])⟩
  | forLoopByOne _ initialRead commaKind testRead _ _ bodyRead =>
    exact ⟨_, _, _, _, _, _, rfl, initialRead, commaKind, testRead,
      .inr ⟨_, _, _, _, rfl, bodyRead, rfl⟩⟩
  | _ => grind [Token.isIdentifier_iff, Token.isComment]

/-- A declaration begins with its keyword and its name, and there is room for it. -/
theorem declaration_parts {binder name : Token} {initial : Node}
    (reads : Reads .statement room (binder :: name :: tokens) initial left)
    (kind : binder.kind = .keyword .let ∨ binder.kind = .keyword .var) :
    name.isIdentifier = true ∧ (∃ value place, initial = .declaration name value place) ∧
      ∃ inner, room = inner + 1 := by
  cases reads with
  | declared _ named _ => exact ⟨named, ⟨_, _, rfl⟩, _, rfl⟩
  | initialized _ named _ _ => exact ⟨named, ⟨_, _, rfl⟩, _, rfl⟩
  | _ => grind [Token.isIdentifier_iff, Token.isComment]

end Reads

/-- A parser answers in one way. -/
theorem Parser.Yields.unique {α : Type} {parser : Parser α} {scope : Scope} {value found : α}
    {tokens rest left : List Token} (yields : parser.Yields scope tokens value rest)
    (again : parser.Yields scope tokens found left) : value = found ∧ rest = left :=
  ⟨Except.ok.inj (yields.1.symm.trans again.1), yields.2.symm.trans again.2⟩

/-- The step that a loop leaves out is exactly the increment of its variable. If a `for` loop that
declares a variable is read as a statement, and no comma follows its test, then the loop is read
with a comma, the name and two plus signs put between the test and the body. What is declared, the
test and the body are the same nodes in both, and both steps increment the variable, so that the two
loops are equal without their places. -/
theorem statement_of_implied_step (scope : Scope) {keyword binder name comma : Token}
    {declared test body rest : List Token} {initial value node : Node}
    (keywordKind : keyword.kind = .keyword .for)
    (binderKind : binder.kind = .keyword .let ∨ binder.kind = .keyword .var)
    (initialYields : Parser.statement.Yields { scope with room := scope.room - 1 }
      (binder :: name :: (declared ++ comma :: (test ++ (body ++ rest)))) initial
      (comma :: (test ++ (body ++ rest))))
    (testYields : Parser.expression.Yields { scope with room := scope.room - 1 }
      (test ++ (body ++ rest)) value (body ++ rest))
    (ahead : startsWith .comma (body ++ rest) = false)
    (yields : Parser.statement.Yields scope
      (keyword :: binder :: name :: (declared ++ comma :: (test ++ (body ++ rest)))) node rest) :
    ∃ repeated place,
      node = .forLoop initial value (.update name .increment name.location) repeated place ∧
      ∀ (other : Scope) (mark step plus second : Token), other.room = scope.room →
        mark.kind = .punctuation .comma → step.kind = name.kind →
        plus.kind = .operator .add → second.kind = .operator .add →
        ∃ spelled,
          spelled = .forLoop initial value
            (.update step .increment (step.location.through second.location)) repeated place ∧
          Parser.statement.Yields other
            (keyword :: binder :: name :: (declared ++
              comma :: (test ++ mark :: step :: plus :: second :: (body ++ rest)))) spelled rest ∧
          spelled.unplaced = node.unplaced := by
  obtain ⟨limit, room, last⟩ := scope
  obtain ⟨inner, _, _, _, _, _, rfl, initialFound, commaKind, testFound, parts⟩ :=
    (Grammar.sound_full.statementRule yields).loop_parts keywordKind
  obtain ⟨rfl, left⟩ := Parser.Yields.unique
    ((Grammar.covers_full _).statementRule (Nat.le_refl _) initialFound) initialYields
  obtain ⟨rfl, rfl⟩ := List.cons_eq_cons.mp left
  obtain ⟨rfl, rfl⟩ := Parser.Yields.unique
    ((Grammar.covers_full _).expressionRule (Nat.le_refl _) testFound) testYields
  obtain comma | ⟨found, declaredValue, place, repeated, rfl, bodyRead, rfl⟩ := parts
  · rw [ahead] at comma
    cases comma
  · obtain ⟨named, ⟨_, _, same⟩, level, rfl⟩ := initialFound.declaration_parts binderKind
    cases same
    refine ⟨_, _, rfl, ?_⟩
    intro other mark step plus second room markKind stepKind plusKind secondKind
    obtain ⟨otherLimit, otherRoom, otherLast⟩ := other
    obtain rfl : otherRoom = level + 1 + 1 := room
    have comma : startsWith .comma (mark :: step :: plus :: second :: (body ++ rest)) = true := by
      simp [markKind]
    have initialRead := initialFound.swap_append (binder :: name :: declared) (_ :: test)
      bodyRead.opensBody comma
    have testRead := testFound.swap_append test [] bodyRead.opensBody comma
    have stepNamed : step.isIdentifier = true := by
      rw [← named, Token.isIdentifier, Token.isIdentifier, stepKind]
    have stepRead : Reads .statement (level + 1) (step :: plus :: second :: (body ++ rest))
        (.update step .increment (step.location.through second.location)) (body ++ rest) :=
      .namedStatement stepNamed (.updated stepNamed plusKind secondKind rfl)
    refine ⟨_, rfl, ?_, ?_⟩
    · exact (Grammar.covers_full _).statementRule (Nat.le_refl _)
        (.forLoop keywordKind initialRead commaKind testRead markKind stepRead bodyRead)
    · simp [Token.unplaced, stepKind]

/-- In `for let i, fn () for let j, j k { };` the test is a function whose body is a loop that
leaves out its step too. It is the outer loop that takes the step. -/
theorem statement_of_implied_step_nested :
    let name (text : String) : Token := ⟨.identifier text, {}⟩
    let scope : Scope := ⟨8, 8, none⟩
    let test : List Token := [.ofKeyword .fn, .ofMark .openParen, .ofMark .closeParen,
      .ofKeyword .for, .ofKeyword .let, name "j", .ofMark .comma, name "j", name "k"]
    let body : List Token := [.ofMark .openBrace, .ofMark .closeBrace]
    let rest : List Token := [.ofMark .semicolon]
    let value : Node := .lambda [] (.forLoop (.declaration (name "j") none {}) (.leaf (name "j"))
      (.update (name "j") .increment {}) (.leaf (name "k")) {}) {}
    Parser.statement.Yields scope
      (.ofKeyword .for :: .ofKeyword .let :: name "i" :: .ofMark .comma :: (test ++
        .ofMark .comma :: name "i" :: .ofOperator .add :: .ofOperator .add :: (body ++ rest)))
      (.forLoop (.declaration (name "i") none {}) value (.update (name "i") .increment {})
        (.block [] {}) {}) rest := by
  intro name scope test body rest value
  have initialRead : Reads .statement 7
      (.ofKeyword .let :: name "i" :: ([] ++ .ofMark .comma :: (test ++ (body ++ rest))))
      (.declaration (name "i") none {}) (.ofMark .comma :: (test ++ (body ++ rest))) :=
    .declared (.inl rfl) rfl rfl
  have innerRead : Reads .statement 6 (test.drop 3 ++ (body ++ rest))
      (.forLoop (.declaration (name "j") none {}) (.leaf (name "j"))
        (.update (name "j") .increment {}) (.leaf (name "k")) {}) (body ++ rest) :=
    .forLoopByOne rfl (.declared (.inl rfl) rfl rfl) rfl
      (.expressionOperand (.namedOperand rfl (.nameAlone rfl (List.cons_ne_nil _ _) rfl)) rfl) rfl
      (List.cons_ne_nil _ _)
      (.bodyStatement rfl (.namedStatement rfl (.nameAlone rfl (List.cons_ne_nil _ _) rfl)))
  have testRead : Reads .expression 7 (test ++ (body ++ rest)) value (body ++ rest) :=
    .expressionOperand (.lambdaOperand rfl
      (.lambda rfl rfl (.listEmpty rfl) (.bodyStatement rfl innerRead))) rfl
  have wholeRead : Reads .statement 8 (.ofKeyword .for :: .ofKeyword .let :: name "i" ::
      ([] ++ .ofMark .comma :: (test ++ (body ++ rest)))) _ rest :=
    .forLoopByOne rfl initialRead rfl testRead rfl (List.cons_ne_nil _ _)
      (.bodyBlock (.block rfl (.statementsEnd rfl)))
  have covers := Grammar.covers_full
  obtain ⟨repeated, place, same, spell⟩ := statement_of_implied_step scope rfl (.inl rfl)
    ((covers _).statementRule (Nat.le_refl _) initialRead)
    ((covers _).expressionRule (Nat.le_refl _) testRead) rfl
    ((covers _).statementRule (Nat.le_refl _) wholeRead)
  obtain ⟨_, rfl, yields, -⟩ := spell scope (.ofMark .comma) (name "i") (.ofOperator .add)
    (.ofOperator .add) rfl rfl rfl rfl rfl
  cases same
  exact yields

end Oreo
