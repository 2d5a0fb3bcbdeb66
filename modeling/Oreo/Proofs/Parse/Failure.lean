import Oreo.Proofs.Parse.Success

/-!
# When a parser fails

`Parser.Fails` says that a parser ends with an error, and with which. It is the counterpart of
`Parser.Yields`, and has one lemma for each small parser: two parsers in order fail if the first
does, or if the second does on what the first leaves (`fails_bind`); one that only looks ahead fails
as the next one does. What is left and what was recorded are not spoken of.
-/

namespace Oreo

/-- The place of the first token, or the end of the source. -/
def Scope.placeOf (scope : Scope) (tokens : List Token) : Location :=
  tokens.head?.elim scope.finish Token.location

/-- The text of the first token; none at the end of the source. -/
def textAhead (tokens : List Token) : Option String := tokens.head?.map Token.text

namespace Parser

variable {α β : Type} {scope : Scope} {tokens : List Token} {error : ParseError}

/-- The parser ends with the error on the tokens. -/
def Fails (parser : Parser α) (scope : Scope) (tokens : List Token) (error : ParseError) : Prop :=
  (parser scope tokens).outcome = .error error

/-- A parser that reads something does not fail. -/
theorem Yields.not_fails {parser : Parser α} {value : α} {rest : List Token}
    (found : parser.Yields scope tokens value rest) : ¬ parser.Fails scope tokens error := by
  intro fails
  cases found.1.symm.trans fails

/-- A value that is given is no failure. -/
@[simp] theorem not_fails_pure {value : α} : ¬ (pure value : Parser α).Fails scope tokens error :=
  nofun

/-- Two parsers in order fail when the first does, or the second on what the first leaves. -/
@[simp low] theorem fails_bind {first : Parser α} {next : α → Parser β} :
    (first >>= next).Fails scope tokens error ↔
      first.Fails scope tokens error ∨
        ∃ part middle, first.Yields scope tokens part middle ∧
          (next part).Fails scope middle error := by
  rcases answer : first scope tokens with ⟨problem | part, middle, events⟩
  · have whole : (first >>= next) scope tokens = _ := bind_of_error answer
    simp [Fails, Yields, whole, answer]
  · have whole : ((first >>= next) scope tokens).outcome = (next part scope middle).outcome := by
      rw [bind_of_ok answer]
    simp only [Fails, Yields, whole, answer, reduceCtorEq, false_or]
    constructor
    · exact fun fails => ⟨part, middle, ⟨rfl, rfl⟩, fails⟩
    · rintro ⟨_, _, ⟨⟨⟩, rfl⟩, fails⟩
      exact fails

/-- Behind a parser whose answer is known, the next one goes on from there. -/
theorem Yields.fails_iff {first : Parser α} {next : α → Parser β} {part : α} {middle : List Token}
    (known : first.Yields scope tokens part middle) :
    (first >>= next).Fails scope tokens error ↔ (next part).Fails scope middle error := by
  rw [fails_bind]
  constructor
  · rintro (fails | ⟨other, left, read, fails⟩)
    · exact absurd fails known.not_fails
    · obtain ⟨same, rfl⟩ := known
      obtain ⟨again, rfl⟩ := read
      cases same.symm.trans again
      exact fails
  · intro fails
    exact .inr ⟨part, middle, known, fails⟩

/-- A value that is only made into another fails as the first one does. -/
theorem fails_bind_pure {build : α → β} {parser : Parser α} :
    (parser >>= fun part => pure (build part)).Fails scope tokens error ↔
      parser.Fails scope tokens error := by
  simp

/-- What is built from a value fails as the parser of the value does. -/
@[simp] theorem fails_map {build : α → β} {parser : Parser α} :
    (build <$> parser).Fails scope tokens error ↔ parser.Fails scope tokens error :=
  fails_bind_pure

/-- Of two parsers the one fails whose condition holds. -/
@[simp] theorem fails_ite {condition : Prop} [Decidable condition] {first second : Parser α} :
    (if condition then first else second).Fails scope tokens error ↔
      (condition ∧ first.Fails scope tokens error) ∨
        (¬ condition ∧ second.Fails scope tokens error) := by
  split <;> simp_all

/-- A fault that is raised is the failure. -/
@[simp] theorem fails_fail {fault : ParseFault} {location : Location} :
    (fail fault location : Parser α).Fails scope tokens error ↔ error = ⟨fault, location⟩ := by
  change Except.error (⟨fault, location⟩ : ParseError) = Except.error error ↔ _
  rw [Except.error.injEq]
  exact eq_comm

/-- Behind a record a parser fails as it does before it. -/
@[simp] theorem fails_record_bind {event : Event} {next : Unit → Parser α} :
    (record event >>= next).Fails scope tokens error ↔ (next ()).Fails scope tokens error :=
  Iff.rfl

/-- Behind a look at the current token a parser fails as it does there. -/
@[simp] theorem fails_peek_bind {next : Option Token → Parser α} :
    (peek >>= next).Fails scope tokens error ↔ (next tokens.head?).Fails scope tokens error :=
  Iff.rfl

/-- Behind a look at the token after the current one a parser fails as it does there. -/
@[simp] theorem fails_peekSecond_bind {next : Option Token → Parser α} :
    (peekSecond >>= next).Fails scope tokens error ↔
      (next tokens.tail.head?).Fails scope tokens error :=
  Iff.rfl

/-- Behind the count of the tokens left a parser fails as it does there. -/
@[simp] theorem fails_left_bind {next : Nat → Parser α} :
    (left >>= next).Fails scope tokens error ↔ (next tokens.length).Fails scope tokens error :=
  Iff.rfl

/-- Behind skipped tokens a parser fails as it does at the others. -/
@[simp] theorem fails_skip_bind {count : Nat} {next : Unit → Parser α} :
    (skip count >>= next).Fails scope tokens error ↔
      (next ()).Fails scope (tokens.drop count) error :=
  Iff.rfl

/-- Behind a question for the place of the current token a parser fails as it does there. -/
@[simp] theorem fails_here_bind {next : Location → Parser α} :
    (here >>= next).Fails scope tokens error ↔
      (next (scope.placeOf tokens)).Fails scope tokens error :=
  Iff.rfl

/-- Behind a token that was taken a parser fails as it does at the next one. -/
@[simp] theorem fails_take_bind {next : Location → Parser α} :
    (take >>= next).Fails scope tokens error ↔
      (next (scope.placeOf tokens)).Fails scope (tokens.drop 1) error :=
  Iff.rfl

/-- Behind a look for the end a parser fails as it does there. -/
@[simp] theorem fails_atEnd_bind {next : Bool → Parser α} :
    (atEnd >>= next).Fails scope tokens error ↔ (next tokens.isEmpty).Fails scope tokens error := by
  cases tokens with
  | nil => exact Iff.rfl
  | cons token tokens => exact Iff.rfl

/-- Behind a look for a mark a parser fails as it does there. -/
@[simp] theorem fails_sees_bind {mark : Punctuation} {next : Bool → Parser α} :
    (sees mark >>= next).Fails scope tokens error ↔
      (next (startsWith mark tokens)).Fails scope tokens error :=
  Iff.rfl

/-- Behind a look for a keyword a parser fails as it does there. -/
@[simp] theorem fails_seesKeyword_bind {keyword : Keyword} {next : Bool → Parser α} :
    (seesKeyword keyword >>= next).Fails scope tokens error ↔
      (next (startsWithKeyword keyword tokens)).Fails scope tokens error :=
  Iff.rfl

/-- A mark that may be missing is passed when it stands there. -/
@[simp] theorem fails_eat_bind {mark : Punctuation} {next : Option Location → Parser α} :
    (eat mark >>= next).Fails scope tokens error ↔
      (∃ token middle, tokens = token :: middle ∧ token.kind = .punctuation mark ∧
        (next (some token.location)).Fails scope middle error) ∨
      (startsWith mark tokens = false ∧ (next none).Fails scope tokens error) := by
  cases ahead : startsWith mark tokens with
  | false =>
    have eaten : (eat mark).Yields scope tokens none tokens := by
      rw [Yields, eat_of_not_startsWith ahead]
      exact ⟨rfl, rfl⟩
    rw [eaten.fails_iff]
    constructor
    · exact fun fails => .inr ⟨rfl, fails⟩
    · rintro (⟨token, middle, rfl, kind, _⟩ | ⟨_, fails⟩)
      · simp [kind] at ahead
      · exact fails
  | true =>
    obtain ⟨token, middle, rfl, kind⟩ := startsWith_iff.mp ahead
    have eaten : (eat mark).Yields scope (token :: middle) (some token.location) middle := by
      rw [Yields, eat_of_startsWith ahead]
      exact ⟨rfl, rfl⟩
    rw [eaten.fails_iff]
    constructor
    · exact fun fails => .inl ⟨token, middle, rfl, kind, fails⟩
    · rintro (⟨_, _, ⟨⟩, _, fails⟩ | ⟨⟨⟩, _⟩)
      exact fails

/-- A semicolon that may be missing, and whose place does not matter, does not fail. -/
theorem fails_eat_semicolon {next : Parser α} :
    (eat .semicolon >>= fun _ => next).Fails scope tokens error ↔
      next.Fails scope (passSemicolon tokens) error := by
  rw [fails_eat_bind]
  cases ahead : startsWith .semicolon tokens with
  | false =>
    rw [passSemicolon, ahead, if_neg Bool.false_ne_true]
    constructor
    · rintro (⟨token, middle, rfl, kind, _⟩ | ⟨_, fails⟩)
      · simp [kind] at ahead
      · exact fails
    · exact fun fails => .inr ⟨rfl, fails⟩
  | true =>
    obtain ⟨token, middle, rfl, kind⟩ := startsWith_iff.mp ahead
    rw [passSemicolon, if_pos ahead, List.tail_cons]
    constructor
    · rintro (⟨_, _, ⟨⟩, _, fails⟩ | ⟨⟨⟩, _⟩)
      exact fails
    · exact fun fails => .inl ⟨token, middle, rfl, kind, fails⟩

/-- An optional semicolon before a keyword does not fail. -/
@[simp] theorem fails_eatSemicolonBefore_bind {keywords : List Keyword} {next : Unit → Parser α} :
    (eatSemicolonBefore keywords >>= next).Fails scope tokens error ↔
      (next ()).Fails scope (passSemicolonBefore keywords tokens) error := by
  have whole : (eatSemicolonBefore keywords >>= pure).Yields scope tokens ()
      (passSemicolonBefore keywords tokens) :=
    yields_eatSemicolonBefore_bind.mpr (yields_pure.mpr ⟨rfl, rfl⟩)
  obtain ⟨_, middle, read, same⟩ := yields_bind.mp whole
  obtain ⟨_, rfl⟩ := yields_pure.mp same
  exact read.fails_iff

/-- At the end of the source, the error is placed at its last token. -/
theorem fails_failAtEnd {context : Construct} {token : Token} (last : scope.last = some token) :
    (failAtEnd context : Parser α).Fails scope tokens error ↔
      error = ⟨.unexpectedEnd context token.text, token.location⟩ := by
  have placed : (failAtEnd context : Parser α) scope tokens =
      (fail (.unexpectedEnd context token.text) token.location : Parser α) scope tokens := by
    simp only [failAtEnd, last]
  rw [Fails, placed]
  exact fails_fail

/-- A fault at the current token names its text and its place. -/
@[simp] theorem fails_failHere {fault : Option String → ParseFault} :
    (failHere fault : Parser α).Fails scope tokens error ↔
      error = ⟨fault (textAhead tokens), scope.placeOf tokens⟩ := by
  simp [failHere, textAhead]

/-- A bracket that is not closed is reported at its opener, with the text of the current token. -/
@[simp] theorem fails_failUnclosed {bracket : Bracket} {context : Construct} {opened : Location} :
    (failUnclosed bracket context opened : Parser α).Fails scope tokens error ↔
      error = ⟨.unclosedBracket bracket context (textAhead tokens), opened⟩ := by
  simp [failUnclosed, textAhead]

/-- Reading one level deeper fails if there is no room for it, or as the reading itself does. -/
theorem fails_nested {parser : Parser α} :
    (nested parser).Fails scope tokens error ↔
      (scope.room = 0 ∧ error = ⟨.nestingTooDeep scope.limit, scope.placeOf tokens⟩) ∨
        ∃ room, scope.room = room + 1 ∧ parser.Fails { scope with room } tokens error := by
  rcases scope with ⟨limit, _ | room, last⟩
  · have refused : (nested parser).Fails ⟨limit, 0, last⟩ tokens error ↔
        (here >>= fail (.nestingTooDeep limit) : Parser α).Fails ⟨limit, 0, last⟩ tokens error :=
      Iff.rfl
    simp [refused]
  · simp [Fails, nested]

/-- A name that is due is missing where the current token is no name. -/
theorem fails_expectIdentifier {context : Construct} :
    (expectIdentifier context).Fails scope tokens error ↔
      tokens.head?.any Token.isIdentifier = false ∧
        error = ⟨.expectedKind "identifier" context (textAhead tokens), scope.placeOf tokens⟩ := by
  cases tokens with
  | nil => simp [expectIdentifier]
  | cons token tokens => simp [expectIdentifier]

/-- A closer that is due is missing where the current token is another one. -/
theorem fails_expectClosing {bracket : Bracket} {context : Construct} {opened : Location} :
    (expectClosing bracket context opened).Fails scope tokens error ↔
      startsWith bracket.closer tokens = false ∧
        error = ⟨.unclosedBracket bracket context (textAhead tokens), opened⟩ := by
  simp [expectClosing]

end Parser

end Oreo
