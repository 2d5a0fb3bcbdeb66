import Oreo.Proofs.Parse.Completeness

/-!
# Programs compose at statement boundaries

A program may be put behind another one. If the first does not end in a semicolon, one is put
between them, so that nothing of the first can go on into the second. What the first is read as
rests on where it ends in many places: a name may be the last token, a result may be missing behind
`return`, an operator before the end is left alone, and an `else` is looked for behind a semicolon.
All of these see the semicolon instead, or the second program behind it, and decide the same.

`Continues rest more` says when further tokens may be put behind what a part of the grammar leaves.
A part is then read from the longer list as before (`Reads.append`).
-/

namespace Oreo

/-- Whether the last token is the given mark. -/
def endsWith (mark : Punctuation) (tokens : List Token) : Bool :=
  tokens.getLast?.any (·.isMark mark)

/-- Whether the first token is `else` or `elseif`. -/
def startsAlternate (tokens : List Token) : Bool :=
  startsWithKeyword .else tokens || startsWithKeyword .elseif tokens

/-- Further tokens may be put behind what is left, and are not taken for a part of what stands
before. -/
inductive Continues : (rest more : List Token) → Prop
  /-- Nothing is left. A semicolon comes first, and nothing behind it belongs to an `if`. -/
  | ended {semicolon : Token} {more : List Token}
      (kind : semicolon.kind = .punctuation .semicolon) (apart : startsAlternate more = false) :
      Continues [] (semicolon :: more)
  /-- One token is left, to which a semicolon adds nothing. An operator might find an operand in
  it. -/
  | single {token : Token} {more : List Token} (other : token.isOperator = false)
      (ahead : startsWith .semicolon more = true) : Continues [token] more
  /-- A semicolon is left, and nothing that comes behind it belongs to an `if`. -/
  | separated {token : Token} {more : List Token} (kind : token.kind = .punctuation .semicolon)
      (apart : startsAlternate more = false) : Continues [token] more
  /-- Two tokens are left. Nobody looks further ahead. -/
  | apart {first second : Token} {rest more : List Token} :
      Continues (first :: second :: rest) more

section

variable {mark : Punctuation} {tokens rest more : List Token}

/-- The mark that some tokens start with is the same when others follow them. -/
theorem startsWith_append (some : tokens ≠ []) :
    startsWith mark (tokens ++ more) = startsWith mark tokens := by
  cases tokens with
  | nil => contradiction
  | cons token tokens => rfl

/-- The semicolon in front of some tokens is passed in the same way when others follow them. -/
theorem passSemicolon_append (some : tokens ≠ []) :
    passSemicolon (tokens ++ more) = passSemicolon tokens ++ more := by
  cases tokens with
  | nil => contradiction
  | cons token tokens =>
    by_cases semicolon : token.kind = .punctuation .semicolon <;>
      simp [passSemicolon, semicolon]

/-- Tokens end with a mark if there is only the mark, or if those behind the first end with it. -/
theorem endsWith_cons {token : Token} :
    endsWith mark (token :: tokens) = true ↔
      tokens = [] ∧ token.kind = .punctuation mark ∨ endsWith mark tokens = true := by
  cases tokens with
  | nil => simp [endsWith]
  | cons next tokens => simp [endsWith]

/-- The last token is a mark if it is one behind the first, which is another. -/
theorem endsWith_tail {token : Token} (ends : endsWith mark (token :: tokens) = true)
    (other : token.kind ≠ .punctuation mark) : endsWith mark tokens = true :=
  (endsWith_cons.mp ends).resolve_left fun single => other single.2

/-- A back part of the tokens ends as they do. -/
theorem endsWith_of_suffix (suffix : rest <:+ tokens) (some : rest ≠ []) :
    endsWith mark tokens = endsWith mark rest := by
  obtain ⟨front, rfl⟩ := suffix
  rw [endsWith, endsWith, List.getLast?_append, List.getLast?_eq_some_getLast some, Option.some_or]

/-- The last token is a mark if it is one behind a keyword that an optional semicolon precedes. -/
theorem endsWith_behind {keywords : List Keyword} {follower : Token} {keyword : Keyword}
    (ahead : passSemicolonBefore keywords tokens = follower :: rest)
    (kind : follower.kind = .keyword keyword) (ends : endsWith mark tokens = true) :
    endsWith mark rest = true := by
  have suffix := passSemicolonBefore_suffix keywords tokens
  rw [ahead] at suffix
  rw [endsWith_of_suffix suffix (List.cons_ne_nil _ _)] at ends
  exact endsWith_tail ends (by simp [kind])

/-- Nothing is left behind an optional semicolon where nothing else stands. -/
theorem passSemicolon_eq_nil (ended : passSemicolon tokens = []) :
    tokens = [] ∨ ∃ token, token.kind = .punctuation .semicolon ∧ tokens = [token] := by
  cases tokens with
  | nil => exact .inl rfl
  | cons token tokens =>
    by_cases kind : token.kind = .punctuation .semicolon
    · have same : tokens = [] := by simpa [passSemicolon, kind] using ended
      exact .inr ⟨token, kind, by rw [same]⟩
    · simp [passSemicolon, kind] at ended

/-- Two tokens are enough to know whether a semicolon is passed. -/
theorem passSemicolonBefore_two (keywords : List Keyword) (first second : Token) :
    (∀ tokens, passSemicolonBefore keywords (first :: second :: tokens) = second :: tokens) ∨
      ∀ tokens, passSemicolonBefore keywords (first :: second :: tokens) =
        first :: second :: tokens := by
  by_cases passed : startsWith .semicolon [first] ∧
      keywords.any (startsWithKeyword · [second])
  · exact .inl fun tokens => if_pos passed
  · exact .inr fun tokens => if_neg passed

/-- A keyword that stands behind an optional semicolon is found there in a longer list. -/
theorem passSemicolonBefore_append {keywords : List Keyword} {follower : Token} {keyword : Keyword}
    (ahead : passSemicolonBefore keywords tokens = follower :: rest)
    (kind : follower.kind = .keyword keyword) :
    passSemicolonBefore keywords (tokens ++ more) = follower :: (rest ++ more) := by
  match tokens with
  | [] => simp [passSemicolonBefore] at ahead
  | [token] =>
    have same : token = follower ∧ [] = rest := by simpa [passSemicolonBefore] using ahead
    obtain ⟨rfl, rfl⟩ := same
    simp [passSemicolonBefore, kind]
  | first :: second :: tokens =>
    obtain same | same := passSemicolonBefore_two keywords first second
    · cases (same tokens).symm.trans ahead
      exact same _
    · cases (same tokens).symm.trans ahead
      exact same _

end

namespace Continues

variable {mark : Punctuation} {rest more middle : List Token}

/-- Tokens put behind what is left start it with no mark but a semicolon. -/
theorem not_startsWith (continues : Continues rest more) (none : startsWith mark rest = false)
    (other : mark ≠ .semicolon) : startsWith mark (rest ++ more) = false := by
  cases continues with
  | ended kind _ => simp [kind, other.symm]
  | _ => exact none

/-- Tokens put behind what is left do not change whether a binary operator is ahead. -/
theorem startsBinary_eq (continues : Continues rest more) :
    startsBinary (rest ++ more) = startsBinary rest := by
  cases continues with
  | ended kind _ => simp [startsBinary, Token.isOperator, kind]
  | single other _ => simp [startsBinary, other]
  | separated kind _ => simp [startsBinary, Token.isOperator, kind]
  | apart => rfl

/-- Tokens put behind what is left do not change whether a member is ahead. -/
theorem startsMember_eq (continues : Continues rest more) :
    startsMember (rest ++ more) = startsMember rest := by
  cases continues with
  | ended kind _ => simp [startsMember, Token.separator?, MemberSeparator.ofMark?, kind]
  | single other ahead =>
    obtain ⟨semicolon, others, rfl, kind⟩ := startsWith_iff.mp ahead
    simp [startsMember, Token.isIdentifier, kind]
  | separated kind _ => simp [startsMember, Token.separator?, MemberSeparator.ofMark?, kind]
  | apart => rfl

/-- Tokens put behind what is left do not change whether a name leads on. -/
theorem leadsOn_eq (continues : Continues rest more) : leadsOn (rest ++ more) = leadsOn rest := by
  cases continues with
  | ended kind _ => simp [leadsOn, kind]
  | @single token more other ahead =>
    obtain ⟨kind, location⟩ := token
    cases kind with
    | operator operator => cases other
    | punctuation mark => cases mark <;> rfl
    | _ => rfl
  | separated kind _ => simp [leadsOn, kind]
  | apart => rfl

/-- Tokens put behind what is left do not change the operator that is ahead. -/
theorem operator_eq (continues : Continues rest more) :
    (rest ++ more).head?.bind Token.operator? = rest.head?.bind Token.operator? := by
  cases continues with
  | ended kind _ => simp [Token.operator?, kind]
  | _ => rfl

/-- What does not go on with `else` does not do so in the longer list. -/
theorem not_startsAlternate (continues : Continues rest more)
    (none : startsAlternate (alternateAhead rest) = false) :
    startsAlternate (alternateAhead (rest ++ more)) = false := by
  cases continues with
  | ended kind apart | separated kind apart =>
    simp only [startsAlternate, Bool.or_eq_false_iff] at apart
    simp [startsAlternate, alternateAhead, passSemicolonBefore, kind, apart]
  | single other ahead =>
    obtain ⟨semicolon, others, rfl, kind⟩ := startsWith_iff.mp ahead
    simpa [startsAlternate, alternateAhead, passSemicolonBefore, kind] using none
  | @apart first second rest more =>
    obtain same | same := passSemicolonBefore_two [.else, .elseif] first second
    · rw [alternateAhead, same] at none
      rw [alternateAhead, List.cons_append, List.cons_append, same]
      exact none
    · rw [alternateAhead, same] at none
      rw [alternateAhead, List.cons_append, List.cons_append, same]
      exact none

/-- What gives no result behind `return` gives none in the longer list. -/
theorem returns_nothing (continues : Continues rest more) (ahead : rest = [] ∨
      startsWith .semicolon rest = true ∨ startsWith .closeBrace rest = true) :
    startsWith .semicolon (rest ++ more) = true ∨ startsWith .closeBrace (rest ++ more) = true := by
  cases continues with
  | ended kind _ => exact .inl (by simp [kind])
  | _ => exact ahead.resolve_left (List.cons_ne_nil _ _)

/-- A single token that is taken is followed by a semicolon, so it does not become the name of an
entry. -/
theorem not_startsNamedEntry {tokens : List Token} (continues : Continues rest more)
    (none : startsNamedEntry tokens = false) (taken : rest.length + 1 ≤ tokens.length) :
    startsNamedEntry (tokens ++ more) = false := by
  match tokens with
  | [] => cases taken
  | [token] =>
    obtain rfl := List.eq_nil_of_length_eq_zero (Nat.le_zero.mp (Nat.le_of_succ_le_succ taken))
    cases continues with
    | ended kind _ => simp [startsNamedEntry, kind]
  | first :: second :: tokens => exact none

/-- A mark stands apart from what comes behind what is left behind it. -/
theorem of_mark {token : Token} (continues : Continues rest more)
    (kind : token.kind = .punctuation mark) : Continues (token :: rest) more := by
  cases continues with
  | ended semicolon _ =>
    exact .single (by simp [Token.isOperator, kind]) (by simp [semicolon])
  | _ => exact .apart

/-- Tokens may be put behind two that are left. -/
theorem of_cons {token : Token} (some : rest ≠ []) : Continues (token :: rest) more := by
  cases rest with
  | nil => contradiction
  | cons next rest => exact .apart

/-- Tokens that are read before others that are left stand apart from what comes behind these. -/
theorem of_suffix (continues : Continues rest more) (suffix : rest <:+ middle) (some : rest ≠ []) :
    Continues middle more := by
  match middle with
  | [] => exact absurd (List.suffix_nil.mp suffix) some
  | first :: second :: middle => exact .apart
  | [token] =>
    obtain rfl | shorter := List.suffix_cons_iff.mp suffix
    · exact continues
    · exact absurd (List.suffix_nil.mp shorter) some

/-- What comes behind a keyword stands apart from an optional semicolon before the keyword too. -/
theorem of_passSemicolonBefore {keywords : List Keyword} {follower : Token} {tokens : List Token}
    (continues : Continues (follower :: rest) more)
    (ahead : passSemicolonBefore keywords tokens = follower :: rest) : Continues tokens more :=
  continues.of_suffix (ahead ▸ passSemicolonBefore_suffix keywords tokens) (List.cons_ne_nil _ _)

/-- What goes on behind the back part of some tokens goes on behind all of them, but a single
operator must not be taken as a whole. -/
theorem before (continues : Continues rest more) (suffix : rest <:+ middle)
    (alone : ∀ token, token.isOperator = true → middle = [token] → rest = middle) :
    Continues middle more := by
  match middle with
  | [] =>
    obtain rfl := List.suffix_nil.mp suffix
    exact continues
  | first :: second :: middle => exact .apart
  | [token] =>
    obtain rfl | shorter := List.suffix_cons_iff.mp suffix
    · exact continues
    · obtain rfl := List.suffix_nil.mp shorter
      cases operator : token.isOperator with
      | true => cases alone token operator rfl
      | false =>
        cases continues with
        | ended kind _ => exact .single operator (by simp [kind])

end Continues

/-- The parts that may begin with an operator, which is an operand by itself there. -/
def Part.isValue : Part → Bool
  | .expression | .operand | .entry | .list .. | .items .. => true
  | _ => false

/-- Whether the part is a whole program, which leaves nothing. -/
def Part.isProgram : Part → Bool
  | .program => true
  | _ => false

namespace Reads

variable {part : Part} {room : Nat} {tokens rest more : List Token} {value : part.Result}

/-- A part that takes a token is read from some tokens. -/
theorem ne_nil (reads : Reads part room tokens value rest) (takes : part.cost = 1) :
    tokens ≠ [] := by
  rintro rfl
  have taken := reads.cost_le
  rw [takes] at taken
  cases taken

/-- A part that leaves some tokens is read from some tokens. -/
theorem ne_nil_of_rest (reads : Reads part room tokens value rest) (some : rest ≠ []) :
    tokens ≠ [] := by
  rintro rfl
  exact some (List.suffix_nil.mp reads.suffix)

/-- A program leaves nothing, so what leaves something is another part. -/
theorem not_isProgram (reads : Reads part room tokens value rest) (some : rest ≠ []) :
    part.isProgram = false := by
  induction reads with
  | programEnd => contradiction
  | programNext _ _ _ ih => exact ih some
  | _ => rfl

/-- A semicolon at the end of the tokens is not taken by a part of a program. -/
theorem endsWith_rest (reads : Reads part room tokens value rest) (inner : part.isProgram = false)
    (ends : endsWith .semicolon tokens = true) : endsWith .semicolon rest = true := by
  have closes {token : Token} {bracket : Bracket}
      (kind : token.kind = .punctuation bracket.closer) :
      token.kind ≠ .punctuation .semicolon := by
    rw [kind]
    cases bracket <;> decide
  have names {token : Token} (named : token.isIdentifier = true) :
      token.kind ≠ .punctuation .semicolon := by
    obtain ⟨name, kind⟩ := Token.isIdentifier_iff.mp named
    simp [kind]
  have words {token : Token} {first second : Keyword}
      (kind : token.kind = .keyword first ∨ token.kind = .keyword second) :
      token.kind ≠ .punctuation .semicolon := by
    rcases kind with kind | kind <;> simp [kind]
  induction reads with
  | programEnd | programNext => cases inner
  | alternativesEnd | climbEnd | membersEnd => exact ends
  | returnsNothing kind | statementsEnd kind => exact endsWith_tail ends (by simp [kind])
  | listEmpty kind => exact endsWith_tail ends (closes kind)
  | nameLast kind | nameAlone kind | parameter kind => exact endsWith_tail ends (names kind)
  | comment kind => exact endsWith_tail ends (by rintro mark; simp [Token.isComment, mark] at kind)
  | literal kind => exact endsWith_tail ends (by rintro mark; simp [Token.isOperand, mark] at kind)
  | declared kind name => exact endsWith_tail (endsWith_tail ends (words kind)) (names name)
  | initialized kind name equals _ value =>
    have later := endsWith_tail ends (words kind)
    exact value rfl (endsWith_tail (endsWith_tail later (names name)) (by simp [equals]))
  | clauseBlock _ part | bodyBlock _ part | bodyStatement _ _ part | expressionOperand _ _ part
  | conditionalStatement _ _ part | lambdaStatement _ _ part | namedStatement _ _ part
  | lambdaOperand _ _ part | namedOperand _ _ part | elementCalled _ part | elementIndexed _ part
  | element _ _ _ _ part | item _ _ _ part | listItems _ _ part => exact part rfl ends
  | expressionBinary _ _ _ operand climb => exact climb rfl (operand rfl ends)
  | defaultClause kind _ part | clauseStatement kind _ part | block kind _ part
  | array kind _ part | object kind _ part | negation kind _ part | elementAssigned kind _ part
  | returnsValue kind _ _ _ _ part =>
    exact part rfl (endsWith_tail ends (by simp [kind]))
  | whileLoop kind _ _ first second | switch kind _ _ first second
  | alternativesNext kind _ _ first second | call kind _ _ first second =>
    exact second rfl (first rfl (endsWith_tail ends (by simp [kind])))
  | called name _ part | indexedName name _ part =>
    exact part rfl (endsWith_tail ends (names name))
  | doWhileLoop kind _ ahead follower _ body test =>
    have later := body rfl (endsWith_tail ends (by simp [kind]))
    exact test rfl (endsWith_behind ahead follower later)
  | forLoop kind _ comma _ second _ _ initial test update body =>
    have middle := endsWith_tail (initial rfl (endsWith_tail ends (by simp [kind])))
      (by simp [comma])
    have later := endsWith_tail (test rfl middle) (by simp [second])
    exact body rfl (update rfl later)
  | forLoopByOne kind _ comma _ _ _ _ initial test body =>
    have middle := endsWith_tail (initial rfl (endsWith_tail ends (by simp [kind])))
      (by simp [comma])
    exact body rfl (test rfl middle)
  | caseClause kind _ _ _ value others body =>
    exact body rfl (others rfl (value rfl (endsWith_tail ends (by simp [kind]))))
  | function kind _ _ _ _ _ signature body =>
    exact body rfl (signature rfl (endsWith_tail ends (by simp [kind])))
  | conditionalOnly kind _ _ _ _ test consequent =>
    have inside := endsWith_tail ends (words kind)
    exact consequent rfl (test rfl inside)
  | conditionalElse kind _ _ ahead follower _ test consequent block =>
    have inside := endsWith_tail ends (words kind)
    exact block rfl (endsWith_behind ahead follower (consequent rfl (test rfl inside)))
  | conditionalElseif kind _ _ ahead follower _ test consequent alternate =>
    have inside := endsWith_tail ends (words kind)
    have last := endsWith_behind ahead follower (consequent rfl (test rfl inside))
    exact alternate rfl (endsWith_cons.mpr (.inr last))
  | statementsNext _ _ others first ih =>
    have later := first rfl ends
    rw [endsWith_of_suffix (passSemicolon_suffix _) (others.ne_nil rfl)] at later
    exact ih rfl later
  | lambda kind opened _ _ parameters body =>
    have inside := endsWith_tail (endsWith_tail ends (by simp [kind])) (by simp [opened])
    exact body rfl (parameters rfl inside)
  | climbNext kind _ _ _ _ operand right climb =>
    have later := operand rfl (endsWith_tail ends (by simp [kind]))
    exact climb rfl (right rfl later)
  | unit opened closed =>
    exact endsWith_tail (endsWith_tail ends (by simp [opened])) (by simp [closed])
  | parenthesized opened _ _ closed value | keyed opened _ closed _ value =>
    have inside := endsWith_tail ends (by simp [opened])
    exact endsWith_tail (value rfl inside) (by simp [closed])
  | assigned name equals _ value | namedEntry name equals _ value =>
    exact value rfl (endsWith_tail (endsWith_tail ends (names name)) (by simp [equals]))
  | combined name symbol equals _ _ value =>
    have later := endsWith_tail (endsWith_tail ends (names name)) (by simp [symbol])
    exact value rfl (endsWith_tail later (by simp [equals]))
  | updated name symbol second =>
    have later := endsWith_tail (endsWith_tail ends (names name)) (by simp [symbol])
    exact endsWith_tail later (by simp [second])
  | owner name _ _ members => exact members rfl (endsWith_tail ends (names name))
  | member mark _ _ property =>
    refine property rfl (endsWith_tail ends ?_)
    intro kind
    simp [Token.separator?, MemberSeparator.ofMark?, kind] at mark
  | indexed opened _ closed _ index accessed =>
    have inside := endsWith_tail ends (by simp [opened])
    exact accessed rfl (endsWith_tail (index rfl inside) (by simp [closed]))
  | keyedValue opened _ closed equals _ key value =>
    have inside := key rfl (endsWith_tail ends (by simp [opened]))
    have later := endsWith_tail (endsWith_tail inside (by simp [closed])) (by simp [equals])
    exact value rfl later
  | itemsEnd _ first kind =>
    rw [endsWith_of_suffix first.suffix (List.cons_ne_nil _ _)] at ends
    exact endsWith_tail ends (closes kind)
  | itemsNext _ first kind _ _ _ ih =>
    rw [endsWith_of_suffix first.suffix (List.cons_ne_nil _ _)] at ends
    exact ih rfl (endsWith_tail ends (by simp [kind]))

/-- A single operator is taken as a value only. -/
theorem eq_of_operator {token : Token} (reads : Reads part room tokens value rest)
    (other : part.isValue = false) (operator : token.isOperator = true) (alone : tokens = [token]) :
    rest = tokens := by
  induction reads with
  | programEnd | alternativesEnd | climbEnd | membersEnd => rfl
  | programNext read _ ih | statementsNext _ read _ ih =>
    have taken := read.cost_le
    rw [ih rfl alone, alone] at taken
    exact absurd taken (Nat.not_succ_le_self 1)
  | climbNext _ _ operand =>
    cases alone
    exact absurd rfl (operand.ne_nil rfl)
  | clauseBlock _ part | bodyBlock _ part | bodyStatement _ _ part | elementCalled _ part
  | elementIndexed _ part | element _ _ _ _ part => exact part rfl alone
  | declared | initialized | function | lambda | assigned | combined | updated | owner | member =>
    cases alone
  | conditionalStatement kind | whileLoop kind | doWhileLoop kind | forLoop kind | forLoopByOne kind
  | switch kind | caseClause kind | defaultClause kind | lambdaStatement kind | returnsNothing kind
  | returnsValue kind | alternativesNext kind | clauseStatement kind | block kind
  | statementsEnd kind | call kind | indexed kind | elementAssigned kind =>
    cases alone
    simp [Token.isOperator, kind] at operator
  | conditionalOnly kind | conditionalElse kind | conditionalElseif kind =>
    cases alone
    rcases kind with kind | kind <;> simp [Token.isOperator, kind] at operator
  | namedStatement named | nameLast named | nameAlone named | called named | indexedName named
  | parameter named =>
    cases alone
    obtain ⟨name, kind⟩ := Token.isIdentifier_iff.mp named
    simp [Token.isOperator, kind] at operator
  | comment comment =>
    cases alone
    unfold Token.isOperator at operator
    split at operator
    next kind => simp [Token.isComment, kind] at comment
    next kind => simp [Token.isComment, kind] at comment
    next => cases operator
  | _ => cases other

/-- What may come behind what a part leaves may come behind what the part is read from. -/
theorem continues (reads : Reads part room tokens value rest) (other : part.isValue = false)
    (behind : Continues rest more) : Continues tokens more :=
  behind.before reads.suffix fun _ operator => reads.eq_of_operator other operator

/-- A part is read from more tokens as it was, if they stand apart from what it leaves. -/
theorem append (reads : Reads part room tokens value rest) (inner : part.isProgram = false)
    (behind : Continues rest more) : Reads part room (tokens ++ more) value (rest ++ more) := by
  induction reads with
  | programEnd | programNext => cases inner
  | declared keyword name ahead =>
    exact .declared keyword name (behind.not_startsWith ahead (by decide))
  | initialized keyword name equals _ value =>
    exact .initialized keyword name equals (value rfl behind)
  | conditionalStatement keyword _ conditional =>
    exact .conditionalStatement keyword (conditional rfl behind)
  | whileLoop keyword _ bodyRead test body =>
    exact .whileLoop keyword (test rfl (bodyRead.continues rfl behind)) (body rfl behind)
  | doWhileLoop keyword _ ahead kind testRead body test =>
    have middle : Continues _ more := .of_passSemicolonBefore (.of_cons (testRead.ne_nil rfl)) ahead
    exact .doWhileLoop keyword (body rfl middle) (passSemicolonBefore_append ahead kind) kind
      (test rfl behind)
  | forLoop keyword _ comma testRead second updateRead bodyRead initial test update body =>
    exact .forLoop keyword (initial rfl (.of_cons (testRead.ne_nil rfl))) comma
      (test rfl (.of_cons (updateRead.ne_nil rfl))) second
      (update rfl (bodyRead.continues rfl behind)) (body rfl behind)
  | forLoopByOne keyword _ comma testRead ahead some bodyRead initial test body =>
    exact .forLoopByOne keyword (initial rfl (.of_cons (testRead.ne_nil rfl))) comma
      (test rfl (bodyRead.continues rfl behind)) ((startsWith_append some).trans ahead)
      (List.append_ne_nil_of_left_ne_nil some _) (body rfl behind)
  | switch keyword _ clausesRead subject clauses =>
    exact .switch keyword (subject rfl (clausesRead.continues rfl behind)) (clauses rfl behind)
  | caseClause keyword _ othersRead bodyRead value others body =>
    have later := bodyRead.continues rfl behind
    exact .caseClause keyword (value rfl (othersRead.continues rfl later)) (others rfl later)
      (body rfl behind)
  | defaultClause keyword _ body => exact .defaultClause keyword (body rfl behind)
  | lambdaStatement keyword _ lambda => exact .lambdaStatement keyword (lambda rfl behind)
  | function keyword name _ split parameters bodyRead signature body =>
    exact .function keyword name (signature rfl (bodyRead.continues rfl behind)) split parameters
      (body rfl behind)
  | returnsNothing keyword ahead =>
    exact .returnsNothing keyword (.inr (behind.returns_nothing ahead))
  | returnsValue keyword some semicolon brace _ value =>
    exact .returnsValue keyword (List.append_ne_nil_of_left_ne_nil some _)
      ((startsWith_append some).trans semicolon) ((startsWith_append some).trans brace)
      (value rfl behind)
  | namedStatement name _ named => exact .namedStatement name (named rfl behind)
  | comment kind => exact .comment kind
  | conditionalOnly keyword _ bodyRead noElse noElseif test body =>
    have none := behind.not_startsAlternate (by simp [startsAlternate, noElse, noElseif])
    obtain ⟨noElse, noElseif⟩ := Bool.or_eq_false_iff.mp none
    exact .conditionalOnly keyword (test rfl (bodyRead.continues rfl behind)) (body rfl behind)
      noElse noElseif
  | conditionalElse keyword _ bodyRead ahead kind blockRead test body block =>
    have later : Continues _ more := .of_passSemicolonBefore (.of_cons (blockRead.ne_nil rfl)) ahead
    exact .conditionalElse keyword (test rfl (bodyRead.continues rfl later)) (body rfl later)
      (passSemicolonBefore_append ahead kind) kind (block rfl behind)
  | conditionalElseif keyword _ bodyRead ahead kind alternateRead test body alternate =>
    have later := (alternateRead.continues rfl behind).of_passSemicolonBefore ahead
    exact .conditionalElseif keyword (test rfl (bodyRead.continues rfl later)) (body rfl later)
      (passSemicolonBefore_append ahead kind) kind (alternate rfl behind)
  | alternativesEnd ahead => exact .alternativesEnd (behind.not_startsWith ahead (by decide))
  | alternativesNext mark _ othersRead value others =>
    exact .alternativesNext mark (value rfl (othersRead.continues rfl behind))
      (others rfl behind)
  | clauseBlock _ block => exact .clauseBlock (block rfl behind)
  | clauseStatement colon _ statement => exact .clauseStatement colon (statement rfl behind)
  | bodyBlock _ block => exact .bodyBlock (block rfl behind)
  | bodyStatement ahead read statement =>
    exact .bodyStatement ((startsWith_append (read.ne_nil rfl)).trans ahead)
      (statement rfl behind)
  | block opened _ body => exact .block opened (body rfl behind)
  | statementsEnd closed => exact .statementsEnd closed
  | statementsNext ahead read othersRead first others =>
    have some := othersRead.ne_nil rfl
    have middle := (othersRead.continues rfl behind).of_suffix (passSemicolon_suffix _) some
    refine .statementsNext ((startsWith_append (read.ne_nil rfl)).trans ahead)
      (first rfl middle) ?_
    rw [passSemicolon_append (by rintro rfl; exact some rfl)]
    exact others rfl behind
  | lambda keyword opened _ bodyRead parameters body =>
    exact .lambda keyword opened (parameters rfl (bodyRead.continues rfl behind))
      (body rfl behind)
  | expressionOperand _ ahead operand =>
    exact .expressionOperand (operand rfl behind) (behind.startsBinary_eq.trans ahead)
  | expressionBinary _ ahead climbRead operand climb =>
    have middle := climbRead.continues rfl behind
    exact .expressionBinary (operand rfl middle) (middle.startsBinary_eq.trans ahead)
      (climb rfl behind)
  | climbEnd ahead =>
    exact .climbEnd fun operator found => ahead operator (behind.operator_eq.symm.trans found)
  | climbNext symbol tighter _ rightRead climbRead operand right climb =>
    have later := climbRead.continues rfl behind
    exact .climbNext symbol tighter (operand rfl (rightRead.continues rfl later))
      (right rfl later) (climb rfl behind)
  | unit opened closed => exact .unit opened closed
  | parenthesized opened ahead valueRead closed value =>
    exact .parenthesized opened ((startsWith_append (valueRead.ne_nil rfl)).trans ahead)
      (value rfl (behind.of_mark closed)) closed
  | array opened _ elements => exact .array opened (elements rfl behind)
  | object opened _ entries => exact .object opened (entries rfl behind)
  | negation mark _ operand => exact .negation mark (operand rfl behind)
  | lambdaOperand keyword _ lambda => exact .lambdaOperand keyword (lambda rfl behind)
  | namedOperand name _ named => exact .namedOperand name (named rfl behind)
  | literal operand => exact .literal operand
  | nameLast name =>
    cases behind with
    | ended kind _ => exact .nameAlone name (List.cons_ne_nil _ _) (by simp [leadsOn, kind])
  | nameAlone name some ahead =>
    exact .nameAlone name (List.append_ne_nil_of_left_ne_nil some _)
      (behind.leadsOn_eq.trans ahead)
  | assigned name equals _ value => exact .assigned name equals (value rfl behind)
  | combined name symbol equals compound _ value =>
    exact .combined name symbol equals compound (value rfl behind)
  | updated name symbol second doubled => exact .updated name symbol second doubled
  | called name _ call => exact .called name (call rfl behind)
  | owner name mark _ members => exact .owner name mark (members rfl behind)
  | indexedName name _ indexed => exact .indexedName name (indexed rfl behind)
  | membersEnd ahead => exact .membersEnd (behind.startsMember_eq.trans ahead)
  | member mark name _ property => exact .member mark name (property rfl behind)
  | call opened _ membersRead arguments members =>
    exact .call opened (arguments rfl (membersRead.continues rfl behind)) (members rfl behind)
  | indexed opened _ closed accessedRead index accessed =>
    exact .indexed opened (index rfl ((accessedRead.continues rfl behind).of_mark closed)) closed
      (accessed rfl behind)
  | elementAssigned equals _ value => exact .elementAssigned equals (value rfl behind)
  | elementCalled _ call => exact .elementCalled (call rfl behind)
  | elementIndexed _ indexed => exact .elementIndexed (indexed rfl behind)
  | element noEquals noParen noBracket membersRead members =>
    have ahead := membersRead.continues rfl behind
    exact .element (ahead.not_startsWith noEquals (by decide))
      (ahead.not_startsWith noParen (by decide)) (ahead.not_startsWith noBracket (by decide))
      (members rfl behind)
  | keyedValue opened _ closed equals _ key value =>
    exact .keyedValue opened (key rfl .apart) closed equals (value rfl behind)
  | keyed opened _ closed ahead key =>
    exact .keyed opened (key rfl (behind.of_mark closed)) closed
      (behind.not_startsWith ahead (by decide))
  | namedEntry name equals _ value => exact .namedEntry name equals (value rfl behind)
  | item noBracket noName valueRead value =>
    have some := valueRead.ne_nil rfl
    exact .item ((startsWith_append some).trans noBracket)
      (behind.not_startsNamedEntry noName valueRead.cost_le) (value rfl behind)
  | parameter name => exact .parameter name
  | listEmpty closed => exact .listEmpty closed
  | listItems ahead itemsRead items =>
    exact .listItems ((startsWith_append (itemsRead.ne_nil rfl)).trans ahead) (items rfl behind)
  | itemsEnd ahead firstRead closed first =>
    have some := firstRead.ne_nil_of_rest (List.cons_ne_nil _ _)
    have inner := firstRead.not_isProgram (List.cons_ne_nil _ _)
    exact .itemsEnd ((startsWith_append some).trans ahead) (first inner (behind.of_mark closed))
      closed
  | itemsNext ahead firstRead comma goesOn othersRead first others =>
    have some := firstRead.ne_nil_of_rest (List.cons_ne_nil _ _)
    have inner := firstRead.not_isProgram (List.cons_ne_nil _ _)
    have middle := othersRead.ne_nil rfl
    exact .itemsNext ((startsWith_append some).trans ahead) (first inner (.of_cons middle)) comma
      ((startsWith_append middle).trans goesOn) (others rfl behind)

/-- A program does not begin with what belongs to an `if`. -/
theorem not_startsAlternate {program : List Node}
    (reads : Reads .program room tokens program rest) : startsAlternate tokens = false := by
  cases reads with
  | programEnd => rfl
  | programNext statement _ =>
    cases statement <;>
      grind [startsAlternate, startsWithKeyword_cons, Token.isIdentifier_iff, Token.isComment]

/-- A program read from no tokens is empty. -/
theorem program_nil {program : List Node} (reads : Reads .program room [] program rest) :
    program = [] := by
  cases reads with
  | programEnd => rfl
  | programNext statement _ => exact absurd rfl (statement.ne_nil rfl)

section

variable {node : Node} {first second : List Node} {semicolon : Token} {middle other : List Token}

/-- The last statement of a program is read before another program. -/
theorem last_append (statement : Reads .statement room tokens node middle)
    (ended : passSemicolon middle = []) (kind : semicolon.kind = .punctuation .semicolon)
    (apart : startsAlternate other = false)
    (joint : more = if endsWith .semicolon tokens then other else semicolon :: other) :
    ∃ later, Reads .statement room (tokens ++ more) node later ∧ passSemicolon later = other := by
  obtain rfl | ⟨last, lastKind, rfl⟩ := passSemicolon_eq_nil ended
  · cases ends : endsWith .semicolon tokens with
    | true => cases statement.endsWith_rest rfl ends
    | false =>
      obtain rfl : more = semicolon :: other := by rw [joint, ends]; rfl
      exact ⟨_, statement.append rfl (.ended kind apart), by simp [passSemicolon, kind]⟩
  · have ends : endsWith .semicolon tokens = true := by
      rw [endsWith_of_suffix statement.suffix (List.cons_ne_nil _ _)]
      exact endsWith_cons.mpr (.inl ⟨rfl, lastKind⟩)
    obtain rfl : more = other := by rw [joint, if_pos ends]
    exact ⟨_, statement.append rfl (.separated lastKind apart), by simp [passSemicolon, lastKind]⟩

/-- Behind a statement before another one, further tokens stand apart. -/
theorem next_continues (others : Reads .program room (passSemicolon middle) first [])
    (left : passSemicolon middle ≠ []) (kind : semicolon.kind = .punctuation .semicolon)
    (joint : more = if endsWith .semicolon middle then other else semicolon :: other) :
    Continues middle more := by
  match middle with
  | [] => contradiction
  | first :: second :: middle => exact .apart
  | [token] =>
    have mark : token.kind ≠ .punctuation .semicolon := by
      intro mark
      exact left (by simp [passSemicolon, mark])
    have same : passSemicolon [token] = [token] := by simp [passSemicolon, mark]
    have ends : endsWith .semicolon [token] = false := by simp [endsWith, mark]
    rw [ends] at joint
    rw [same] at others
    refine .single ?_ (by simp [joint, kind])
    cases operator : token.isOperator with
    | false => rfl
    | true => cases others.eq_of_operator rfl operator rfl

/-- A program is read behind another one, with a semicolon between them if the first does not end in
one. -/
theorem program_append (reads : Reads .program room tokens first []) (some : tokens ≠ [])
    (kind : semicolon.kind = .punctuation .semicolon)
    (otherReads : Reads .program room other second [])
    (joint : more = if endsWith .semicolon tokens then other else semicolon :: other) :
    Reads .program room (tokens ++ more) (first ++ second) [] := by
  induction first generalizing tokens with
  | nil =>
    cases reads
    contradiction
  | cons node first ih =>
    cases reads with
    | programNext statement others =>
      rename_i middle
      by_cases left : passSemicolon middle = []
      · rw [left] at others
        obtain rfl := others.program_nil
        have apart := otherReads.not_startsAlternate
        obtain ⟨later, read, passed⟩ := statement.last_append left kind apart joint
        exact .programNext read (passed.symm ▸ otherReads)
      · have some : middle ≠ [] := by
          rintro rfl
          exact left rfl
        have ends : endsWith .semicolon tokens = endsWith .semicolon middle :=
          endsWith_of_suffix statement.suffix some
        have endsToo : endsWith .semicolon middle = endsWith .semicolon (passSemicolon middle) :=
          endsWith_of_suffix (passSemicolon_suffix middle) left
        rw [ends] at joint
        refine .programNext (statement.append rfl (next_continues others left kind joint)) ?_
        rw [passSemicolon_append some]
        rw [endsToo] at joint
        exact ih others left joint

end

end Reads

/-- Programs compose at statement boundaries. Behind a program that does not end in a semicolon, one
is put before the other program, and behind a program that does, nothing; the statements of both are
read in order, as they are read alone. -/
theorem parseTokens_append {options : Options} {tokens other : List Token}
    {program second : List Node} {semicolon : Token}
    (kind : semicolon.kind = .punctuation .semicolon) (some : tokens ≠ [])
    (found : (parseTokens options tokens).outcome = .ok program)
    (otherFound : (parseTokens options other).outcome = .ok second) :
    (endsWith .semicolon tokens = false →
      (parseTokens options (tokens ++ [semicolon] ++ other)).outcome = .ok (program ++ second)) ∧
    (endsWith .semicolon tokens = true →
      (parseTokens options (tokens ++ other)).outcome = .ok (program ++ second)) := by
  obtain ⟨reads, outside⟩ := parseTokens_eq_ok_iff.mp found
  obtain ⟨otherReads, otherOutside⟩ := parseTokens_eq_ok_iff.mp otherFound
  have joined (more : List Token)
      (joint : more = if endsWith .semicolon tokens then other else semicolon :: other) :
      (parseTokens options (tokens ++ more)).outcome = .ok (program ++ second) := by
    refine parseTokens_eq_ok_iff.mpr ⟨reads.program_append some kind otherReads joint, ?_⟩
    rw [List.findSome?_append, outside, otherOutside, Option.none_or]
  constructor
  · intro ends
    rw [List.append_assoc]
    exact joined _ (by rw [ends]; rfl)
  · intro ends
    exact joined _ (by rw [if_pos ends])

/-- The program `return` is read before `x++`, with a semicolon put between them and with one that
belongs to it. The result is still missing, though `x++` follows. -/
theorem parseTokens_append_return :
    let keyword : Token := ⟨.keyword .return, ⟨0, 6, 1, 1⟩⟩
    let semicolon : Token := ⟨.punctuation .semicolon, ⟨6, 7, 1, 7⟩⟩
    let name : Token := ⟨.identifier "x", ⟨8, 9, 1, 9⟩⟩
    let other : List Token :=
      [name, ⟨.operator .add, ⟨9, 10, 1, 10⟩⟩, ⟨.operator .add, ⟨10, 11, 1, 11⟩⟩]
    (parseTokens {} ([keyword] ++ [semicolon] ++ other)).outcome =
        .ok ([.returns none ⟨0, 6, 1, 1⟩] ++ [.update name .increment ⟨8, 11, 1, 9⟩]) ∧
      (parseTokens {} ([keyword, semicolon] ++ other)).outcome =
        .ok ([.returns none ⟨0, 6, 1, 1⟩] ++ [.update name .increment ⟨8, 11, 1, 9⟩]) := by
  intro keyword semicolon name other
  have found : (parseTokens {} [keyword]).outcome = .ok [.returns none ⟨0, 6, 1, 1⟩] := rfl
  have closed : (parseTokens {} [keyword, semicolon]).outcome =
      .ok [.returns none ⟨0, 6, 1, 1⟩] := rfl
  have otherFound : (parseTokens {} other).outcome =
      .ok [.update name .increment ⟨8, 11, 1, 9⟩] := rfl
  have kind : semicolon.kind = .punctuation .semicolon := rfl
  have joined := (parseTokens_append kind (List.cons_ne_nil _ _) found otherFound).1 rfl
  have joinedToo := (parseTokens_append kind (List.cons_ne_nil _ _) closed otherFound).2 rfl
  exact ⟨joined, joinedToo⟩

end Oreo
