import Oreo.Parse.Program

/-!
# When a parser succeeds

`Parser.Yields` says that a parser reads a value from the front of a list of tokens and which
tokens it leaves. Events are left out of it. Each small parser and each rule of the grammar has
one lemma here, which says exactly when it succeeds and with what; about a rule the lemma speaks
in terms of the grammar that the rule is given for its parts. Nothing else needs to unfold a rule.

What a parser decides by looking ahead is said by functions of the tokens alone
(`startsWith`, `startsBinary` and the like), so that it can be stated without the parser.
-/

namespace Oreo

/-- Whether the first token is the given mark. -/
def startsWith (mark : Punctuation) (tokens : List Token) : Bool :=
  tokens.head?.any (·.isMark mark)

/-- Whether the first token is the given keyword. -/
def startsWithKeyword (keyword : Keyword) (tokens : List Token) : Bool :=
  tokens.head?.any (·.isKeyword keyword)

/-- Whether an operator stands first, and something else than an operator behind it. -/
def startsBinary (tokens : List Token) : Bool :=
  tokens.head?.any Token.isOperator && tokens.tail.head?.any (!·.isOperator)

/-- Whether a separator stands first, and a name behind it. -/
def startsMember (tokens : List Token) : Bool :=
  (tokens.head?.bind Token.separator?).isSome && tokens.tail.head?.any Token.isIdentifier

/-- Whether a name stands first, and an equals sign behind it. -/
def startsNamedEntry (tokens : List Token) : Bool :=
  tokens.head?.any Token.isIdentifier && tokens.tail.head?.any (·.isMark .equals)

/-- The tokens without a semicolon in front of them. -/
def passSemicolon (tokens : List Token) : List Token :=
  if startsWith .semicolon tokens then tokens.tail else tokens

/-- The tokens without a semicolon in front of them, if one of the keywords follows it. -/
def passSemicolonBefore (keywords : List Keyword) (tokens : List Token) : List Token :=
  if startsWith .semicolon tokens ∧ keywords.any (startsWithKeyword · tokens.tail) then tokens.tail
  else tokens

/-- A token is a mark if its class is. -/
@[simp] theorem Token.isMark_eq (token : Token) (mark : Punctuation) :
    token.isMark mark = (token.kind == .punctuation mark) := rfl

/-- A name is a token of the class of names. -/
theorem Token.isIdentifier_iff {token : Token} :
    token.isIdentifier = true ↔ ∃ name, token.kind = .identifier name := by
  unfold Token.isIdentifier
  split
  · rename_i name kind
    simp [kind]
  · rename_i other
    simpa using other

/-- No tokens start with no mark. -/
@[simp] theorem startsWith_nil (mark : Punctuation) : startsWith mark [] = false := rfl

/-- Tokens start with a mark if the first of them is the mark. -/
@[simp] theorem startsWith_cons (mark : Punctuation) (token : Token) (tokens : List Token) :
    startsWith mark (token :: tokens) = (token.kind == .punctuation mark) := rfl

/-- No tokens start with no keyword. -/
@[simp] theorem startsWithKeyword_nil (keyword : Keyword) :
    startsWithKeyword keyword [] = false := rfl

/-- Tokens start with a keyword if the first of them is the keyword. -/
@[simp] theorem startsWithKeyword_cons (keyword : Keyword) (token : Token) (tokens : List Token) :
    startsWithKeyword keyword (token :: tokens) = (token.kind == .keyword keyword) := rfl

/-- A list starts with a mark when its first token is the mark. -/
theorem startsWith_iff {mark : Punctuation} {tokens : List Token} :
    startsWith mark tokens = true ↔
      ∃ token rest, tokens = token :: rest ∧ token.kind = .punctuation mark := by
  cases tokens with
  | nil => simp
  | cons token rest => simp

/-- A list that starts with a mark does not start with another. -/
theorem startsWith_ne {first second : Punctuation} {tokens : List Token}
    (ahead : startsWith first tokens = true) (other : first ≠ second) :
    startsWith second tokens = false := by
  obtain ⟨token, rest, rfl, kind⟩ := startsWith_iff.mp ahead
  simp [kind, other]

/-- No bracket is closed by a comma. -/
theorem Bracket.closer_ne_comma (bracket : Bracket) : bracket.closer ≠ .comma := by
  cases bracket <;> decide

/-- A list starts with a keyword when its first token is the keyword. -/
theorem startsWithKeyword_iff {keyword : Keyword} {tokens : List Token} :
    startsWithKeyword keyword tokens = true ↔
      ∃ token rest, tokens = token :: rest ∧ token.kind = .keyword keyword := by
  cases tokens with
  | nil => simp
  | cons token rest => simp

/-- A semicolon is not passed if none of the keywords stands behind it. -/
theorem passSemicolonBefore_eq_self {keywords : List Keyword} {tokens : List Token}
    (none : ∀ keyword ∈ keywords,
      startsWithKeyword keyword (passSemicolonBefore keywords tokens) = false) :
    passSemicolonBefore keywords tokens = tokens := by
  unfold passSemicolonBefore at none ⊢
  split
  · rename_i passed
    rw [if_pos passed] at none
    obtain ⟨keyword, listed, follows⟩ := List.any_eq_true.mp passed.2
    simp [none keyword listed] at follows
  · rfl

namespace Parser

variable {α β : Type} {scope : Scope} {tokens rest : List Token}

/-- The parser reads the value from the front of the tokens, and leaves the rest. -/
def Yields (parser : Parser α) (scope : Scope) (tokens : List Token) (value : α)
    (rest : List Token) : Prop :=
  (parser scope tokens).outcome = .ok value ∧ (parser scope tokens).rest = rest

/-- An error of the first of two parsers is the error of both. -/
theorem bind_of_error {first : Parser α} {next : α → Parser β} {error : ParseError}
    {events : List Event} (answer : first scope tokens = ⟨.error error, rest, events⟩) :
    (first >>= next) scope tokens = ⟨.error error, rest, events⟩ := by
  change Parser.bind first next scope tokens = _
  simp only [Parser.bind, answer]

/-- Behind a value of the first of two parsers, the second goes on. -/
theorem bind_of_ok {first : Parser α} {next : α → Parser β} {value : α} {events : List Event}
    (answer : first scope tokens = ⟨.ok value, rest, events⟩) :
    (first >>= next) scope tokens =
      { next value scope rest with events := events ++ (next value scope rest).events } := by
  change Parser.bind first next scope tokens = _
  simp only [Parser.bind, answer]

/-- A mark that stands there is passed. -/
theorem eat_of_startsWith {mark : Punctuation} {token : Token}
    (ahead : startsWith mark (token :: tokens) = true) :
    eat mark scope (token :: tokens) = ⟨.ok (some token.location), tokens, []⟩ := by
  change (if startsWith mark (token :: tokens) = true then some <$> take else pure none :
    Parser _) scope (token :: tokens) = _
  rw [if_pos ahead]
  rfl

/-- A mark that does not stand there is not passed. -/
theorem eat_of_not_startsWith {mark : Punctuation} (ahead : startsWith mark tokens = false) :
    eat mark scope tokens = ⟨.ok none, tokens, []⟩ := by
  change (if startsWith mark tokens = true then some <$> take else pure none : Parser _)
    scope tokens = _
  rw [ahead]
  rfl

/-- A value that is given is the result, and every token is left. -/
@[simp] theorem yields_pure {value result : α} :
    (pure value : Parser α).Yields scope tokens result rest ↔
      result = value ∧ rest = tokens := by
  change (Except.ok value = Except.ok result ∧ tokens = rest) ↔ _
  simp [eq_comm]

/-- Two parsers in order succeed when each does, the second on what the first leaves. -/
@[simp low] theorem yields_bind {first : Parser α} {next : α → Parser β} {value : β} :
    (first >>= next).Yields scope tokens value rest ↔
      ∃ part middle, first.Yields scope tokens part middle ∧
        (next part).Yields scope middle value rest := by
  change (Parser.bind first next).Yields scope tokens value rest ↔ _
  unfold Yields Parser.bind
  rcases first scope tokens with ⟨error | part, middle, events⟩
  · simp
  · constructor
    · intro found
      exact ⟨part, middle, ⟨rfl, rfl⟩, found⟩
    · rintro ⟨_, _, ⟨same, rfl⟩, found⟩
      cases same
      exact found

/-- Behind a parser whose answer is known, the next one goes on from there. -/
theorem Yields.bind_iff {first : Parser α} {next : α → Parser β} {part : α}
    {middle : List Token} {value : β} (known : first.Yields scope tokens part middle) :
    (first >>= next).Yields scope tokens value rest ↔
      (next part).Yields scope middle value rest := by
  rw [yields_bind]
  constructor
  · rintro ⟨other, left, read, found⟩
    obtain ⟨same, rfl⟩ := known
    obtain ⟨again, rfl⟩ := read
    cases same.symm.trans again
    exact found
  · intro found
    exact ⟨part, middle, known, found⟩

/-- What is built from a value succeeds as the parser of the value does. -/
@[simp] theorem yields_map {build : α → β} {parser : Parser α} {value : β} :
    (build <$> parser).Yields scope tokens value rest ↔
      ∃ part, parser.Yields scope tokens part rest ∧ value = build part := by
  change (parser >>= fun part => pure (build part)).Yields scope tokens value rest ↔ _
  constructor
  · intro found
    obtain ⟨part, middle, read, same⟩ := yields_bind.mp found
    obtain ⟨rfl, rfl⟩ := yields_pure.mp same
    exact ⟨part, read, rfl⟩
  · rintro ⟨part, read, rfl⟩
    exact yields_bind.mpr ⟨part, rest, read, yields_pure.mpr ⟨rfl, rfl⟩⟩

/-- Of two parsers the one succeeds whose condition holds. -/
@[simp] theorem yields_ite {condition : Prop} [Decidable condition] {first second : Parser α}
    {value : α} :
    (if condition then first else second).Yields scope tokens value rest ↔
      (condition ∧ first.Yields scope tokens value rest) ∨
        (¬ condition ∧ second.Yields scope tokens value rest) := by
  split <;> simp_all

/-- A fault that is raised is no success. -/
@[simp] theorem not_yields_fail {fault : ParseFault} {location : Location} {value : α} :
    ¬ (fail fault location : Parser α).Yields scope tokens value rest := by
  simp [Yields, fail]

/-- Behind a record a parser succeeds as it does before it. -/
@[simp] theorem yields_record_bind {event : Event} {next : Unit → Parser α} {value : α} :
    (record event >>= next).Yields scope tokens value rest ↔
      (next ()).Yields scope tokens value rest :=
  Iff.rfl

/-- Behind a look at the current token a parser succeeds as it does there. -/
@[simp] theorem yields_peek_bind {next : Option Token → Parser α} {value : α} :
    (peek >>= next).Yields scope tokens value rest ↔
      (next tokens.head?).Yields scope tokens value rest :=
  Iff.rfl

/-- Behind a look at the token after the current one a parser succeeds as it does there. -/
@[simp] theorem yields_peekSecond_bind {next : Option Token → Parser α} {value : α} :
    (peekSecond >>= next).Yields scope tokens value rest ↔
      (next tokens.tail.head?).Yields scope tokens value rest :=
  Iff.rfl

/-- Behind the count of the tokens left a parser succeeds as it does there. -/
@[simp] theorem yields_left_bind {next : Nat → Parser α} {value : α} :
    (left >>= next).Yields scope tokens value rest ↔
      (next tokens.length).Yields scope tokens value rest :=
  Iff.rfl

/-- Behind skipped tokens a parser succeeds as it does at the others. -/
@[simp] theorem yields_skip_bind {count : Nat} {next : Unit → Parser α} {value : α} :
    (skip count >>= next).Yields scope tokens value rest ↔
      (next ()).Yields scope (tokens.drop count) value rest :=
  Iff.rfl

/-- Behind a question for the place of the current token a parser succeeds as it does there. -/
@[simp] theorem yields_here_bind {next : Location → Parser α} {value : α} :
    (here >>= next).Yields scope tokens value rest ↔
      (next (tokens.head?.elim scope.finish Token.location)).Yields scope tokens value rest :=
  Iff.rfl

/-- Behind a token that was taken a parser succeeds as it does at the next one. -/
@[simp] theorem yields_take_bind {next : Location → Parser α} {value : α} :
    (take >>= next).Yields scope tokens value rest ↔
      (next (tokens.head?.elim scope.finish Token.location)).Yields scope (tokens.drop 1) value
        rest :=
  Iff.rfl

/-- Behind a look for the end a parser succeeds as it does there. -/
@[simp] theorem yields_atEnd_bind {next : Bool → Parser α} {value : α} :
    (atEnd >>= next).Yields scope tokens value rest ↔
      (next tokens.isEmpty).Yields scope tokens value rest := by
  cases tokens with
  | nil => exact Iff.rfl
  | cons token tokens => exact Iff.rfl

/-- Behind a look for a mark a parser succeeds as it does there. -/
@[simp] theorem yields_sees_bind {mark : Punctuation} {next : Bool → Parser α} {value : α} :
    (sees mark >>= next).Yields scope tokens value rest ↔
      (next (startsWith mark tokens)).Yields scope tokens value rest :=
  Iff.rfl

/-- Behind a look for a keyword a parser succeeds as it does there. -/
@[simp] theorem yields_seesKeyword_bind {keyword : Keyword} {next : Bool → Parser α}
    {value : α} :
    (seesKeyword keyword >>= next).Yields scope tokens value rest ↔
      (next (startsWithKeyword keyword tokens)).Yields scope tokens value rest :=
  Iff.rfl

/-- A fault at the end of the source is no success. -/
@[simp] theorem not_yields_failAtEnd {context : Construct} {value : α} :
    ¬ (failAtEnd context : Parser α).Yields scope tokens value rest := by
  unfold Yields failAtEnd
  split <;> simp [fail]

/-- A fault at the current token is no success. -/
@[simp] theorem not_yields_failHere {fault : Option String → ParseFault} {value : α} :
    ¬ (failHere fault : Parser α).Yields scope tokens value rest := by
  simp [failHere]

/-- A bracket that is not closed is no success. -/
@[simp] theorem not_yields_failUnclosed {bracket : Bracket} {context : Construct}
    {opened : Location} {value : α} :
    ¬ (failUnclosed bracket context opened : Parser α).Yields scope tokens value rest := by
  simp [failUnclosed]

/-- Reading one level deeper needs room for one level. -/
@[simp] theorem yields_nested {parser : Parser α} {value : α} :
    (nested parser).Yields scope tokens value rest ↔
      ∃ room, scope.room = room + 1 ∧
        parser.Yields { scope with room } tokens value rest := by
  rcases scope with ⟨limit, _ | room, last⟩
  · have refused : ¬ (here >>= fail (.nestingTooDeep limit) : Parser α).Yields
        ⟨limit, 0, last⟩ tokens value rest := by simp
    simpa [Yields, nested] using refused
  · simp [Yields, nested]

/-- With a level to spare a nested parser succeeds as it does one level deeper. -/
theorem yields_nested_succ {parser : Parser α} {value : α} {limit room : Nat}
    {last : Option Token} :
    (nested parser).Yields ⟨limit, room + 1, last⟩ tokens value rest ↔
      parser.Yields ⟨limit, room, last⟩ tokens value rest :=
  Iff.rfl

/-- A mark that may be missing is passed when it stands there. -/
@[simp] theorem yields_eat_bind {mark : Punctuation} {next : Option Location → Parser α}
    {value : α} :
    (eat mark >>= next).Yields scope tokens value rest ↔
      (∃ token middle, tokens = token :: middle ∧ token.kind = .punctuation mark ∧
        (next (some token.location)).Yields scope middle value rest) ∨
      (startsWith mark tokens = false ∧ (next none).Yields scope tokens value rest) := by
  cases tokens with
  | nil =>
    have known : (eat mark).Yields scope [] none [] := by simp [eat]
    simp [known.bind_iff]
  | cons token tokens =>
    by_cases same : token.kind = .punctuation mark
    · have known : (eat mark).Yields scope (token :: tokens) (some token.location) tokens := by
        simp only [eat, yields_sees_bind, startsWith_cons, same, beq_self_eq_true, ↓reduceIte]
        exact ⟨rfl, rfl⟩
      rw [known.bind_iff]
      constructor
      · intro found
        exact .inl ⟨token, tokens, rfl, same, found⟩
      · rintro (⟨_, _, ⟨⟩, _, found⟩ | ⟨other, _⟩)
        · exact found
        · simp [same] at other
    · have known : (eat mark).Yields scope (token :: tokens) none (token :: tokens) := by
        simp [eat, same]
      rw [known.bind_iff]
      constructor
      · intro found
        exact .inr ⟨by simp [same], found⟩
      · rintro (⟨_, _, ⟨⟩, other, _⟩ | ⟨_, found⟩)
        · exact absurd other same
        · exact found

/-- A mark that stands there is passed. -/
theorem yields_eat_present {mark : Punctuation} {token : Token}
    {next : Option Location → Parser α} {value : α} (same : token.kind = .punctuation mark) :
    (eat mark >>= next).Yields scope (token :: tokens) value rest ↔
      (next (some token.location)).Yields scope tokens value rest := by
  rw [yields_eat_bind]
  constructor
  · rintro (⟨_, _, ⟨⟩, _, found⟩ | ⟨other, _⟩)
    · exact found
    · simp [same] at other
  · intro found
    exact .inl ⟨token, tokens, rfl, same, found⟩

/-- A mark that does not stand there is not passed. -/
theorem yields_eat_absent {mark : Punctuation} {next : Option Location → Parser α} {value : α}
    (ahead : startsWith mark tokens = false) :
    (eat mark >>= next).Yields scope tokens value rest ↔
      (next none).Yields scope tokens value rest := by
  rw [yields_eat_bind]
  constructor
  · rintro (⟨token, middle, rfl, same, _⟩ | ⟨_, found⟩)
    · simp [same] at ahead
    · exact found
  · intro found
    exact .inr ⟨ahead, found⟩

/-- A semicolon that may be missing, and whose place does not matter, always succeeds. -/
theorem yields_eat_semicolon {next : Parser α} {value : α} :
    (eat .semicolon >>= fun _ => next).Yields scope tokens value rest ↔
      next.Yields scope (passSemicolon tokens) value rest := by
  rw [yields_eat_bind]
  constructor
  · rintro (⟨token, middle, rfl, same, found⟩ | ⟨ahead, found⟩)
    · simpa [passSemicolon, same] using found
    · simpa [passSemicolon, ahead] using found
  · intro found
    cases ahead : startsWith .semicolon tokens with
    | false => exact .inr ⟨rfl, by simpa [passSemicolon, ahead] using found⟩
    | true =>
      obtain ⟨token, middle, rfl, same⟩ := startsWith_iff.mp ahead
      exact .inl ⟨token, middle, rfl, same, by simpa [passSemicolon, same] using found⟩

/-- A name that is due is the current token. -/
@[simp] theorem yields_expectIdentifier {context : Construct} {name : Token} :
    (expectIdentifier context).Yields scope tokens name rest ↔
      tokens = name :: rest ∧ name.isIdentifier = true := by
  cases tokens with
  | nil => simp [expectIdentifier]
  | cons token tokens =>
    simp only [expectIdentifier, yields_peek_bind, List.head?_cons, yields_ite, yields_skip_bind,
      yields_pure, not_yields_failHere, List.drop_succ_cons, List.drop_zero, and_false, or_false,
      List.cons.injEq]
    constructor
    · rintro ⟨named, rfl, rfl⟩
      exact ⟨⟨rfl, rfl⟩, named⟩
    · rintro ⟨⟨rfl, rfl⟩, named⟩
      exact ⟨named, rfl, rfl⟩

/-- A closer that is due is the current token, and its place is the result. -/
@[simp] theorem yields_expectClosing {bracket : Bracket} {context : Construct}
    {opened closed : Location} :
    (expectClosing bracket context opened).Yields scope tokens closed rest ↔
      ∃ token, tokens = token :: rest ∧ token.kind = .punctuation bracket.closer ∧
        closed = token.location := by
  unfold expectClosing
  constructor
  · intro found
    rcases yields_eat_bind.mp found with ⟨token, middle, rfl, same, found⟩ | ⟨_, found⟩
    · obtain ⟨rfl, rfl⟩ := yields_pure.mp found
      exact ⟨token, rfl, same, rfl⟩
    · exact absurd found not_yields_failUnclosed
  · rintro ⟨token, rfl, same, rfl⟩
    exact yields_eat_bind.mpr (.inl ⟨token, rest, rfl, same, yields_pure.mpr ⟨rfl, rfl⟩⟩)

/-- A bracket that is closed here is passed. -/
theorem yields_expectClosing_bind {bracket : Bracket} {context : Construct} {opened : Location}
    {token : Token} {next : Location → Parser α} {value : α}
    (closedKind : token.kind = .punctuation bracket.closer) :
    (expectClosing bracket context opened >>= next).Yields scope (token :: tokens) value rest ↔
      (next token.location).Yields scope tokens value rest :=
  Yields.bind_iff (yields_expectClosing.mpr ⟨token, rfl, closedKind, rfl⟩)

/-- An optional semicolon before a keyword always succeeds. -/
@[simp] theorem yields_eatSemicolonBefore_bind {keywords : List Keyword}
    {next : Unit → Parser α} {value : α} :
    (eatSemicolonBefore keywords >>= next).Yields scope tokens value rest ↔
      (next ()).Yields scope (passSemicolonBefore keywords tokens) value rest := by
  have known : (eatSemicolonBefore keywords).Yields scope tokens ()
      (passSemicolonBefore keywords tokens) := by
    unfold eatSemicolonBefore passSemicolonBefore
    simp only [yields_sees_bind, yields_ite, yields_peekSecond_bind, yields_left_bind]
    by_cases semicolon : startsWith .semicolon tokens = true
    · refine .inl ⟨semicolon, ?_⟩
      by_cases follows : keywords.any (startsWithKeyword · tokens.tail) = true
      · refine .inl ⟨follows, ?_⟩
        rw [if_pos ⟨semicolon, follows⟩, ← List.drop_one]
        exact ⟨rfl, rfl⟩
      · refine .inr ⟨follows, ?_⟩
        rw [if_neg (fun both => follows both.2)]
        exact ⟨rfl, rfl⟩
    · refine .inr ⟨semicolon, ?_⟩
      rw [if_neg (fun both => semicolon both.1)]
      exact ⟨rfl, rfl⟩
  exact known.bind_iff

end Parser

end Oreo
