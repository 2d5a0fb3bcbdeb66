import Oreo.Proofs.Parse.Soundness

/-!
# Parsers end and move forward

The rules of the grammar call one another in circles, and their loops go round as long as there is
something to read. Neither is bounded by the limit on nesting, which may be as large as one likes.
What ends them is that a rule passes a token before it calls another one, and that a round of a
loop passes a token too.

The definitions hold bounds for both: `Grammar.below` for the calls, and a number of rounds for
each loop. That the rules end by themselves is to say that these bounds are never used up. It is
shown by running each rule twice, with two grammars for its parts that agree on fewer tokens and
with two numbers of rounds that are large enough, and comparing the answers: whatever stands below
the last call makes no difference.

The same walk through the grammar shows what a single run does to the tokens and to the levels of
nesting. It leaves a back part of the tokens, a shorter one if it succeeds; and it closes all
levels that it opens, also if it fails.
-/

namespace Oreo

/-- The number of open levels behind an event, if so many were open before it. -/
def Event.level (depth : Nat) : Event → Nat
  | .descended => depth + 1
  | .ascended => depth - 1
  | .entered _ | .putBack _ => depth

/-- The number of open levels behind events, if so many were open before them. -/
def Event.levels (depth : Nat) (events : List Event) : Nat := events.foldl Event.level depth

/-- Levels are followed through some events and then through the next. -/
theorem Event.levels_append (depth : Nat) (first second : List Event) :
    Event.levels depth (first ++ second) = Event.levels (Event.levels depth first) second :=
  List.foldl_append

namespace Parser

/-- Two parsers give the same answer on the tokens. They leave a back part of the tokens, take at
least so many of them if they succeed, and close all levels that they open. -/
structure Advances {α : Type} (parser other : Parser α) (least : Nat) (scope : Scope)
    (tokens : List Token) : Prop where
  /-- The answers are the same. -/
  same : parser scope tokens = other scope tokens
  /-- A back part of the tokens is left. -/
  suffix : (parser scope tokens).rest <:+ tokens
  /-- A value takes tokens. -/
  taken : ∀ value, (parser scope tokens).outcome = .ok value →
    (parser scope tokens).rest.length + least ≤ tokens.length
  /-- As many levels are open as before. -/
  closed : ∀ depth, Event.levels depth (parser scope tokens).events = depth

variable {α β : Type} {least : Nat} {scope : Scope} {token : Token} {tokens rest : List Token}

/-- An error that is raised at once leaves all tokens. -/
theorem advances_of_error {parser : Parser α} {error : ParseError}
    (answer : parser scope tokens = ⟨.error error, tokens, []⟩) :
    parser.Advances parser least scope tokens where
  same := rfl
  suffix := by simp only [answer, List.suffix_refl]
  taken := by
    intro value outcome
    rw [answer] at outcome
    cases outcome
  closed := by
    intro depth
    rw [answer]
    rfl

/-- A fault leaves all tokens. -/
theorem advances_fail {fault : ParseFault} {location : Location} :
    (fail fault location : Parser α).Advances (fail fault location) least scope tokens :=
  advances_of_error rfl

/-- A fault at the current token leaves all tokens. -/
theorem advances_failHere {fault : Option String → ParseFault} :
    (failHere fault : Parser α).Advances (failHere fault) least scope tokens :=
  advances_of_error rfl

/-- An open bracket that is blamed leaves all tokens. -/
theorem advances_failUnclosed {bracket : Bracket} {context : Construct} {opened : Location} :
    (failUnclosed bracket context opened : Parser α).Advances (failUnclosed bracket context opened)
      least scope tokens :=
  advances_of_error rfl

/-- The end of the source, where a part is missing, leaves all tokens. -/
theorem advances_failAtEnd {context : Construct} :
    (failAtEnd context : Parser α).Advances (failAtEnd context) least scope tokens := by
  obtain ⟨limit, room, last⟩ := scope
  cases last with
  | none => exact advances_of_error rfl
  | some token => exact advances_of_error rfl

/-- A value that is given takes no token. -/
theorem advances_pure {value : α} :
    (pure value : Parser α).Advances (pure value) 0 scope tokens where
  same := rfl
  suffix := List.suffix_refl tokens
  taken := fun _ _ => Nat.le_refl _
  closed := fun _ => rfl

/-- What takes so many tokens takes at least fewer. -/
theorem Advances.weaken {parser other : Parser α} {fewer : Nat}
    (advances : parser.Advances other least scope tokens) (le : fewer ≤ least) :
    parser.Advances other fewer scope tokens where
  same := advances.same
  suffix := advances.suffix
  taken := fun value outcome =>
    Nat.le_trans (Nat.add_le_add_left le _) (advances.taken value outcome)
  closed := advances.closed

/-- The second of two parsers that advance alike advances by itself. -/
theorem Advances.right {parser other : Parser α}
    (advances : parser.Advances other least scope tokens) :
    other.Advances other least scope tokens := by
  obtain ⟨same, suffix, taken, closed⟩ := advances
  rw [same] at suffix taken closed
  exact ⟨rfl, suffix, taken, closed⟩

/-- Parsers that go on as others do, behind tokens that they pass, advance if the others do. -/
theorem Advances.of_eq {parser other inner innerOther : Parser α} (passed : Nat)
    (advances : inner.Advances innerOther (least - passed) scope rest)
    (first : parser scope tokens = inner scope rest)
    (second : other scope tokens = innerOther scope rest)
    (suffix : rest <:+ tokens) (shorter : rest.length + passed ≤ tokens.length) :
    parser.Advances other least scope tokens where
  same := by rw [first, second, advances.same]
  suffix := by
    rw [first]
    exact advances.suffix.trans suffix
  taken := by
    intro value outcome
    rw [first] at outcome ⊢
    have taken := advances.taken value outcome
    omega
  closed := by
    rw [first]
    exact advances.closed

/-- Two parsers in order advance if each does, the second on what the first leaves. -/
theorem Advances.bind_of_yields {first firstOther : Parser α} {next nextOther : α → Parser β}
    {passed : Nat} (begins : first.Advances firstOther passed scope tokens)
    (goes : ∀ value rest, first.Yields scope tokens value rest →
      (next value).Advances (nextOther value) (least - passed) scope rest) :
    (first >>= next).Advances (firstOther >>= nextOther) least scope tokens := by
  obtain ⟨same, suffix, taken, closed⟩ := begins
  rcases answer : first scope tokens with ⟨error | value, rest, events⟩
  · rw [answer] at same suffix closed
    have whole : (first >>= next) scope tokens = ⟨.error error, rest, events⟩ :=
      bind_of_error answer
    refine ⟨?_, ?_, ?_, ?_⟩
    · rw [whole, bind_of_error same.symm]
    · rw [whole]
      exact suffix
    · intro value outcome
      rw [whole] at outcome
      cases outcome
    · rw [whole]
      exact closed
  · have fewer := taken value (by rw [answer])
    have goes := goes value rest (by rw [Yields, answer]; exact ⟨rfl, rfl⟩)
    rw [answer] at same suffix closed fewer
    have whole : (first >>= next) scope tokens = _ := bind_of_ok answer
    refine ⟨?_, ?_, ?_, ?_⟩
    · rw [whole, bind_of_ok same.symm, goes.same]
    · rw [whole]
      exact goes.suffix.trans suffix
    · intro result outcome
      rw [whole] at outcome ⊢
      have taken := goes.taken result outcome
      simp only at fewer ⊢
      omega
    · intro depth
      rw [whole, Event.levels_append, closed, goes.closed]

/-- What two parsers in order take adds up. -/
theorem Advances.bind {first firstOther : Parser α} {next nextOther : α → Parser β} {passed : Nat}
    (begins : first.Advances firstOther passed scope tokens)
    (goes : ∀ value rest, rest.length + passed ≤ tokens.length →
      (next value).Advances (nextOther value) (least - passed) scope rest) :
    (first >>= next).Advances (firstOther >>= nextOther) least scope tokens := by
  refine begins.bind_of_yields fun value rest read => goes value rest ?_
  rw [← read.2]
  exact begins.taken value read.1

/-- What is built from a value takes what the value takes. -/
theorem Advances.map {build : α → β} {parser other : Parser α}
    (advances : parser.Advances other least scope tokens) :
    (build <$> parser).Advances (build <$> other) least scope tokens :=
  advances.bind fun _ _ _ => by
    rw [Nat.sub_self]
    exact advances_pure

/-- Of two parsers the one is run whose condition holds. -/
theorem advances_ite {condition : Prop} [Decidable condition]
    {first firstOther second secondOther : Parser α}
    (yes : condition → first.Advances firstOther least scope tokens)
    (no : ¬ condition → second.Advances secondOther least scope tokens) :
    (if condition then first else second).Advances (if condition then firstOther else secondOther)
      least scope tokens := by
  split
  · exact yes ‹_›
  · exact no ‹_›

/-- A level is closed again, however the reading inside it ends. -/
theorem advances_nested {parser other : Parser α}
    (inner : ∀ room, parser.Advances other least { scope with room } tokens) :
    (nested parser).Advances (nested other) least scope tokens := by
  obtain ⟨limit, room, last⟩ := scope
  cases room with
  | zero =>
    refine ⟨rfl, List.suffix_refl tokens, ?_, fun _ => rfl⟩
    intro value outcome
    cases outcome
  | succ room =>
    obtain ⟨same, suffix, taken, closed⟩ := inner room
    refine ⟨?_, suffix, taken, ?_⟩
    · change ({ parser ⟨limit, room, last⟩ tokens with events := _ } : Reply α) = _
      rw [same]
      rfl
    · intro depth
      change Event.levels (depth + 1) (_ ++ [.ascended]) = depth
      rw [Event.levels_append, closed]
      rfl

/-- A look at the current token takes none. -/
theorem advances_peek_bind {next nextOther : Option Token → Parser α}
    (advances : (next tokens.head?).Advances (nextOther tokens.head?) least scope tokens) :
    (peek >>= next).Advances (peek >>= nextOther) least scope tokens :=
  advances.of_eq 0 rfl rfl (List.suffix_refl _) (Nat.le_refl _)

/-- A look at the token behind the current one takes none. -/
theorem advances_peekSecond_bind {next nextOther : Option Token → Parser α}
    (advances : (next tokens.tail.head?).Advances (nextOther tokens.tail.head?) least scope
      tokens) :
    (peekSecond >>= next).Advances (peekSecond >>= nextOther) least scope tokens :=
  advances.of_eq 0 rfl rfl (List.suffix_refl _) (Nat.le_refl _)

/-- Counting what is left takes no token. -/
theorem advances_left_bind {next nextOther : Nat → Parser α}
    (advances : (next tokens.length).Advances (nextOther tokens.length) least scope tokens) :
    (left >>= next).Advances (left >>= nextOther) least scope tokens :=
  advances.of_eq 0 rfl rfl (List.suffix_refl _) (Nat.le_refl _)

/-- A look for a mark takes no token. -/
theorem advances_sees_bind {mark : Punctuation} {next nextOther : Bool → Parser α}
    (advances : (next (startsWith mark tokens)).Advances (nextOther (startsWith mark tokens)) least
      scope tokens) :
    (sees mark >>= next).Advances (sees mark >>= nextOther) least scope tokens :=
  advances.of_eq 0 rfl rfl (List.suffix_refl _) (Nat.le_refl _)

/-- A look for a keyword takes no token. -/
theorem advances_seesKeyword_bind {keyword : Keyword} {next nextOther : Bool → Parser α}
    (advances : (next (startsWithKeyword keyword tokens)).Advances
      (nextOther (startsWithKeyword keyword tokens)) least scope tokens) :
    (seesKeyword keyword >>= next).Advances (seesKeyword keyword >>= nextOther) least scope
      tokens :=
  advances.of_eq 0 rfl rfl (List.suffix_refl _) (Nat.le_refl _)

/-- A look for the end takes no token. -/
theorem advances_atEnd_bind {next nextOther : Bool → Parser α}
    (advances : (next tokens.isEmpty).Advances (nextOther tokens.isEmpty) least scope tokens) :
    (atEnd >>= next).Advances (atEnd >>= nextOther) least scope tokens := by
  cases tokens with
  | nil => exact advances.of_eq 0 rfl rfl (List.suffix_refl _) (Nat.le_refl _)
  | cons token tokens => exact advances.of_eq 0 rfl rfl (List.suffix_refl _) (Nat.le_refl _)

/-- Asking for the current place takes no token. -/
theorem advances_here_bind {next nextOther : Location → Parser α}
    (advances : ∀ place, (next place).Advances (nextOther place) least scope tokens) :
    (here >>= next).Advances (here >>= nextOther) least scope tokens :=
  (advances (tokens.head?.elim scope.finish Token.location)).of_eq 0 rfl rfl
    (List.suffix_refl _) (Nat.le_refl _)

/-- Passing the current token takes one. -/
theorem advances_take_bind {next nextOther : Location → Parser α}
    (advances : (next token.location).Advances (nextOther token.location) (least - 1) scope
      tokens) :
    (take >>= next).Advances (take >>= nextOther) least scope (token :: tokens) :=
  advances.of_eq 1 rfl rfl (List.suffix_cons token tokens) (Nat.le_refl _)

/-- A token that is skipped is taken. -/
theorem advances_skip_one_bind {next nextOther : Unit → Parser α}
    (advances : (next ()).Advances (nextOther ()) (least - 1) scope tokens) :
    (skip 1 >>= next).Advances (skip 1 >>= nextOther) least scope (token :: tokens) :=
  advances.of_eq 1 rfl rfl (List.suffix_cons token tokens) (Nat.le_refl _)

/-- Tokens may be passed that need not be counted. -/
theorem advances_skip_bind {count : Nat} {next nextOther : Unit → Parser α}
    (advances : (next ()).Advances (nextOther ()) least scope (tokens.drop count)) :
    (skip count >>= next).Advances (skip count >>= nextOther) least scope tokens :=
  advances.of_eq 0 rfl rfl (List.drop_suffix count tokens) (by rw [List.length_drop]; omega)

/-- An event that is no change of level leaves the levels as they are. -/
theorem advances_record {event : Event} (still : ∀ depth, event.level depth = depth) :
    (record event).Advances (record event) 0 scope tokens where
  same := rfl
  suffix := List.suffix_refl tokens
  taken := fun _ _ => Nat.le_refl _
  closed := still

/-- A record that opens and closes no level takes no token. -/
theorem advances_record_bind {event : Event} {next nextOther : Unit → Parser α}
    (still : ∀ depth, event.level depth = depth)
    (advances : (next ()).Advances (nextOther ()) least scope tokens) :
    (record event >>= next).Advances (record event >>= nextOther) least scope tokens := by
  refine (advances_record still).bind_of_yields ?_
  rintro _ _ ⟨_, rfl⟩
  exact advances

/-- A mark that may be missing is passed when it stands there. -/
theorem advances_eat_bind {mark : Punctuation} {next nextOther : Option Location → Parser α}
    (present : ∀ token rest, tokens = token :: rest →
      (next (some token.location)).Advances (nextOther (some token.location)) (least - 1) scope
        rest)
    (absent : startsWith mark tokens = false →
      (next none).Advances (nextOther none) least scope tokens) :
    (eat mark >>= next).Advances (eat mark >>= nextOther) least scope tokens := by
  cases ahead : startsWith mark tokens with
  | false =>
    have eaten : eat mark scope tokens = _ := eat_of_not_startsWith ahead
    exact (absent ahead).of_eq 0 (bind_of_ok eaten) (bind_of_ok eaten) (List.suffix_refl _)
      (Nat.le_refl _)
  | true =>
    obtain ⟨token, rest, rfl, _⟩ := startsWith_iff.mp ahead
    have eaten : eat mark scope (token :: rest) = _ := eat_of_startsWith ahead
    exact (present token rest rfl).of_eq 1 (bind_of_ok eaten) (bind_of_ok eaten)
      (List.suffix_cons token rest) (Nat.le_refl _)

/-- A name that is due takes a token. -/
theorem advances_expectIdentifier {context : Construct} :
    (expectIdentifier context).Advances (expectIdentifier context) 1 scope tokens := by
  refine advances_peek_bind ?_
  cases tokens with
  | nil => exact advances_failHere
  | cons token tokens =>
    apply advances_ite
    · exact fun _ => advances_skip_one_bind advances_pure
    · exact fun _ => advances_failHere

/-- A closer that is due takes a token. -/
theorem advances_expectClosing {bracket : Bracket} {context : Construct} {opened : Location} :
    (expectClosing bracket context opened).Advances (expectClosing bracket context opened) 1 scope
      tokens :=
  advances_eat_bind (fun _ _ _ => advances_pure) fun _ => advances_failUnclosed

/-- An optional semicolon may take a token. -/
theorem advances_eatSemicolonBefore {keywords : List Keyword} :
    (eatSemicolonBefore keywords).Advances (eatSemicolonBefore keywords) 0 scope tokens := by
  refine advances_sees_bind (advances_ite (fun _ => ?_) fun _ => advances_pure)
  refine advances_peekSecond_bind (advances_ite (fun _ => ?_) fun _ => ?_)
  · exact advances_skip_bind advances_pure
  · exact advances_left_bind (advances_record fun _ => rfl)

/-- Two runs of a loop have the same property if they have it where no token is left, and if it
carries over from the rounds that follow to a round that takes a token. -/
theorem rounds_induct {motive : Nat → Nat → List Token → Prop} {rounds roundsOther : Nat}
    (nil : ∀ rounds roundsOther, motive rounds roundsOther [])
    (cons : ∀ rounds roundsOther token tokens,
      (∀ rest : List Token, rest.length ≤ tokens.length → motive rounds roundsOther rest) →
      motive (rounds + 1) (roundsOther + 1) (token :: tokens))
    (enough : tokens.length ≤ rounds) (enoughOther : tokens.length ≤ roundsOther) :
    motive rounds roundsOther tokens := by
  induction rounds generalizing roundsOther tokens with
  | zero =>
    rw [List.eq_nil_of_length_eq_zero (Nat.le_zero.mp enough)]
    exact nil 0 roundsOther
  | succ rounds ih =>
    cases tokens with
    | nil => exact nil (rounds + 1) roundsOther
    | cons token tokens =>
      obtain ⟨roundsOther, rfl⟩ := Nat.exists_eq_add_one.mpr
        (Nat.lt_of_lt_of_le (Nat.succ_pos tokens.length) enoughOther)
      rw [List.length_cons] at enough enoughOther
      exact cons rounds roundsOther token tokens fun rest fewer => ih (by omega) (by omega)

/-- An item takes a token, so there are no more items than tokens. -/
theorem advances_separated {bracket : Bracket} {context : Construct} {opened : Location}
    {item itemOther : Parser α} {rounds roundsOther : Nat}
    (each : ∀ rest : List Token, rest.length ≤ tokens.length →
      item.Advances itemOther 1 scope rest)
    (enough : tokens.length ≤ rounds) (enoughOther : tokens.length ≤ roundsOther) :
    (separated bracket context opened item rounds).Advances
      (separated bracket context opened itemOther roundsOther) 0 scope tokens := by
  refine rounds_induct (motive := fun rounds roundsOther tokens =>
    (∀ rest : List Token, rest.length ≤ tokens.length → item.Advances itemOther 1 scope rest) →
      (separated bracket context opened item rounds).Advances
        (separated bracket context opened itemOther roundsOther) 0 scope tokens)
    ?_ ?_ enough enoughOther each
  · intro rounds roundsOther _
    have unclosed (item : Parser α) (rounds : Nat) :
        separated bracket context opened item rounds scope [] =
          fail (.unclosedBracket bracket context none) opened scope [] := by
      cases rounds <;> rfl
    exact advances_fail.of_eq 0 (unclosed _ _) (unclosed _ _) (List.suffix_refl _) (Nat.le_refl _)
  · intro rounds roundsOther token tokens ih each
    refine advances_peek_bind (advances_ite (fun _ => advances_fail) fun _ => ?_)
    refine (each _ (Nat.le_refl _)).bind fun first rest fewer => ?_
    refine advances_eat_bind ?_ fun _ => (advances_expectClosing.weaken (Nat.zero_le 1)).map
    rintro comma rest rfl
    rw [List.length_cons, List.length_cons] at fewer
    refine advances_sees_bind (advances_ite (fun _ => advances_fail) fun _ => ?_)
    have others := ih rest (by omega) fun left shorter =>
      each left (by rw [List.length_cons]; omega)
    exact others.bind fun _ _ _ => advances_pure

/-- A list takes at least the mark that closes it. -/
theorem advances_delimited {bracket : Bracket} {context : Construct} {opened : Location}
    {item itemOther : Parser α}
    (each : ∀ rest : List Token, rest.length ≤ tokens.length →
      item.Advances itemOther 1 scope rest) :
    (delimited bracket context opened item).Advances (delimited bracket context opened itemOther) 0
      scope tokens :=
  advances_eat_bind (fun _ _ _ => advances_pure) fun _ =>
    advances_left_bind (advances_separated each (Nat.le_refl _) (Nat.le_refl _))

end Parser

namespace Grammar

open Oreo.Parser

/-- Two grammars agree on fewer tokens than the bound, and take at least one token for each
part. -/
structure Advances (parse other : Grammar) (bound : Nat) : Prop where
  statement {scope : Scope} {tokens : List Token} : tokens.length < bound →
    (parse .statement).Advances (other .statement) 1 scope tokens
  expression {scope : Scope} {tokens : List Token} : tokens.length < bound →
    (parse .expression).Advances (other .expression) 1 scope tokens
  named {scope : Scope} {tokens : List Token} : tokens.length < bound →
    (parse .named).Advances (other .named) 1 scope tokens
  indexed {scope : Scope} {opened : Token} {tokens : List Token} {target : Node} :
    tokens.length + 1 < bound →
    (parse (.indexed target)).Advances (other (.indexed target)) 1 scope (opened :: tokens)
  conditional {scope : Scope} {keyword : Token} {tokens : List Token} :
    tokens.length + 1 < bound →
    (parse .conditional).Advances (other .conditional) 1 scope (keyword :: tokens)

variable {parse other : Grammar} {bound : Nat} {scope : Scope} {token : Token}
  {tokens : List Token}

/-- A statement takes a token, so there are no more statements than tokens. -/
theorem Advances.blockBody (grammar : parse.Advances other bound) {opened : Location}
    {rounds roundsOther : Nat} (fits : tokens.length < bound) (enough : tokens.length ≤ rounds)
    (enoughOther : tokens.length ≤ roundsOther) :
    (parse.blockBody opened rounds).Advances (other.blockBody opened roundsOther) 0 scope
      tokens := by
  refine rounds_induct (motive := fun rounds roundsOther tokens => tokens.length < bound →
    (parse.blockBody opened rounds).Advances (other.blockBody opened roundsOther) 0 scope tokens)
    ?_ ?_ enough enoughOther fits
  · intro rounds roundsOther _
    have unclosed (parse : Grammar) (rounds : Nat) : parse.blockBody opened rounds scope [] =
        fail (.unclosedBracket .brace .block none) opened scope [] := by
      cases rounds <;> rfl
    exact advances_fail.of_eq 0 (unclosed _ _) (unclosed _ _) (List.suffix_refl _) (Nat.le_refl _)
  · intro rounds roundsOther token tokens ih fits
    refine advances_eat_bind (fun _ _ _ => advances_pure) fun _ => ?_
    refine advances_atEnd_bind (advances_ite (fun _ => advances_fail) fun _ => ?_)
    refine (grammar.statement fits).bind fun first rest fewer => ?_
    rw [List.length_cons] at fits fewer
    have others (left : List Token) (shorter : left.length ≤ rest.length) :
        (parse.blockBody opened rounds).Advances (other.blockBody opened roundsOther) 0 scope
          left := ih left (by omega) (by omega)
    apply advances_eat_bind
    · rintro semicolon rest rfl
      exact (others rest (Nat.le_succ _)).bind fun _ _ _ => advances_pure
    · exact fun _ => (others rest (Nat.le_refl _)).bind fun _ _ _ => advances_pure

/-- Statements in braces take at least a brace. -/
theorem Advances.blockParts (grammar : parse.Advances other bound)
    (fits : tokens.length ≤ bound) :
    parse.blockParts.Advances other.blockParts 1 scope tokens := by
  refine advances_sees_bind (advances_ite (fun ahead => ?_) fun _ => advances_failHere)
  obtain ⟨token, rest, rfl, _⟩ := startsWith_iff.mp ahead
  refine advances_nested fun _ => advances_take_bind (advances_left_bind ?_)
  exact (grammar.blockBody fits (Nat.le_refl _) (Nat.le_refl _)).bind fun _ _ _ => advances_pure

/-- A block takes at least a brace. -/
theorem Advances.block (grammar : parse.Advances other bound) (fits : tokens.length ≤ bound) :
    parse.block.Advances other.block 1 scope tokens :=
  (grammar.blockParts fits).bind fun _ _ _ => advances_pure

/-- A statement that is a body is read from the same tokens. -/
theorem Advances.body (grammar : parse.Advances other bound) (fits : tokens.length < bound) :
    parse.body.Advances other.body 1 scope tokens :=
  advances_sees_bind (advances_ite (fun _ => grammar.block (Nat.le_of_lt fits))
    fun _ => grammar.statement fits)

/-- The members of an object may take no token. -/
theorem Advances.members (grammar : parse.Advances other bound) {object : Node}
    (fits : tokens.length ≤ bound) :
    (parse.members object).Advances (other.members object) 0 scope tokens := by
  refine advances_peek_bind ?_
  cases ahead : tokens.head?.bind Token.separator? with
  | none => exact advances_pure
  | some separator =>
    cases tokens with
    | nil => cases ahead
    | cons token tokens =>
      refine advances_peekSecond_bind (advances_ite (fun _ => ?_) fun _ => advances_pure)
      exact advances_skip_bind
        ((advances_nested fun _ => grammar.named fits).bind fun _ _ _ => advances_pure)

/-- A call takes at least its opener. -/
theorem Advances.call (grammar : parse.Advances other bound) {callee : Node}
    (fits : tokens.length < bound) :
    (parse.call callee).Advances (other.call callee) 1 scope (token :: tokens) := by
  refine advances_take_bind ((advances_nested fun _ => advances_delimited
    fun rest fewer => grammar.expression (Nat.lt_of_le_of_lt fewer fits)).bind ?_)
  exact fun _ rest fewer => grammar.members (by omega)

/-- An index that is indexed again is read behind the brackets of the first. -/
theorem Advances.indexedRule (grammar : parse.Advances other bound) {target : Node}
    (fits : tokens.length < bound) :
    (parse.indexed target).Advances (other.indexed target) 1 scope (token :: tokens) := by
  refine advances_take_bind
    ((advances_nested fun _ => grammar.expression fits).bind fun index rest fewer => ?_)
  refine advances_expectClosing.bind fun closed rest fewer => ?_
  apply advances_eat_bind
  · rintro equals rest rfl
    rw [List.length_cons] at fewer
    have fits : rest.length < bound := by omega
    exact (advances_nested fun _ => grammar.expression fits).bind fun _ _ _ => advances_pure
  · intro _
    refine advances_sees_bind (advances_ite (fun ahead => ?_) fun _ => ?_)
    · obtain ⟨opened, rest, rfl, _⟩ := startsWith_iff.mp ahead
      rw [List.length_cons] at fewer
      exact (grammar.call (by omega)).weaken (Nat.zero_le 1)
    refine advances_sees_bind (advances_ite (fun ahead => ?_) fun _ => ?_)
    · obtain ⟨opened, rest, rfl, _⟩ := startsWith_iff.mp ahead
      rw [List.length_cons] at fewer
      exact (advances_nested fun _ => grammar.indexed (by omega)).weaken (Nat.zero_le 1)
    · exact grammar.members (by omega)

/-- A value that is assigned is read with fewer tokens than the name had. -/
theorem Advances.assigned (grammar : parse.Advances other bound) {target : Token}
    {operator : AssignmentOperator} (fits : tokens.length < bound) :
    (parse.assigned target operator).Advances (other.assigned target operator) 0 scope tokens :=
  (advances_nested fun _ => grammar.expression fits).bind fun _ _ _ => advances_pure

/-- An assignment or an update by an operator may take no further token. -/
theorem Advances.namedOperator (grammar : parse.Advances other bound) {name : Token}
    {operator : Operator} (fits : tokens.length < bound) :
    (parse.namedOperator name operator).Advances (other.namedOperator name operator) 0 scope
      (token :: tokens) := by
  refine advances_peekSecond_bind ?_
  cases tokens with
  | nil => exact advances_pure
  | cons second tokens =>
    refine advances_ite (fun _ => ?_) fun _ => advances_ite (fun _ => ?_) fun _ => advances_pure
    · cases AssignmentOperator.compound? operator with
      | none => exact advances_pure
      | some assignment => exact advances_skip_bind (grammar.assigned (Nat.lt_of_succ_lt fits))
    · cases UpdateOperator.doubled? operator with
      | none => exact advances_pure
      | some update => exact advances_skip_bind advances_pure

/-- A name is a token, whatever it leads. -/
theorem Advances.namedRule (grammar : parse.Advances other bound) {assignmentDue : Bool}
    (fits : tokens.length ≤ bound) :
    (parse.named assignmentDue).Advances (other.named assignmentDue) 1 scope tokens := by
  refine advances_peek_bind ?_
  cases tokens with
  | nil => exact advances_failAtEnd
  | cons name tokens =>
    refine advances_skip_one_bind (advances_peek_bind ?_)
    cases tokens with
    | nil => exact advances_ite (fun _ => advances_fail) fun _ => advances_pure
    | cons follower tokens =>
      have inside : tokens.length < bound := Nat.lt_of_succ_lt fits
      obtain ⟨kind, location⟩ := follower
      cases kind with
      | operator operator => exact grammar.namedOperator inside
      | punctuation mark =>
        cases mark with
        | equals => exact advances_skip_bind (grammar.assigned inside)
        | openParen => exact (grammar.call inside).weaken (Nat.zero_le 1)
        | dot | colon => exact grammar.members inside
        | openBracket => exact (grammar.indexedRule inside).weaken (Nat.zero_le 1)
        | _ => exact advances_pure
      | _ => exact advances_pure

/-- A value in parentheses takes at least the opener. -/
theorem Advances.parenthesized (grammar : parse.Advances other bound)
    (fits : tokens.length < bound) :
    parse.parenthesized.Advances other.parenthesized 1 scope (token :: tokens) := by
  refine advances_take_bind (advances_atEnd_bind (advances_ite (fun _ => ?_) fun _ => ?_))
  · exact advances_fail
  refine advances_eat_bind (fun _ _ _ => advances_pure) fun _ => ?_
  refine (grammar.expression fits).bind fun inner rest fewer => ?_
  exact advances_expectClosing.bind fun _ _ _ => advances_pure

/-- An array takes at least its opener. -/
theorem Advances.array (grammar : parse.Advances other bound) (fits : tokens.length < bound) :
    parse.array.Advances other.array 1 scope (token :: tokens) := by
  refine advances_take_bind (Advances.bind (advances_delimited fun rest fewer => ?_)
    fun _ _ _ => advances_pure)
  exact grammar.expression (Nat.lt_of_le_of_lt fewer fits)

/-- An entry of an object literal takes a token. -/
theorem Advances.entry (grammar : parse.Advances other bound) (fits : tokens.length < bound) :
    parse.entry.Advances other.entry 1 scope tokens := by
  apply advances_eat_bind
  · rintro opened tokens rfl
    rw [List.length_cons] at fits
    have inside : tokens.length < bound := Nat.lt_of_succ_lt fits
    refine (advances_nested fun _ => grammar.expression inside).bind fun key rest fewer => ?_
    refine advances_expectClosing.bind fun _ rest fewer => ?_
    refine advances_eat_bind ?_ fun _ => advances_pure
    rintro equals rest rfl
    rw [List.length_cons] at fewer
    exact ((grammar.expression (by omega)).weaken (Nat.zero_le 1)).map
  · intro _
    have item : (Entry.item <$> parse .expression).Advances (Entry.item <$> other .expression) 1
        scope tokens := (grammar.expression fits).map
    refine advances_peek_bind ?_
    cases tokens.head?.filter Token.isIdentifier with
    | none => exact item
    | some name =>
      refine advances_peekSecond_bind (advances_ite (fun _ => ?_) fun _ => item)
      have fewer : (tokens.drop 2).length < bound := by
        rw [List.length_drop]
        omega
      exact advances_skip_bind (grammar.expression fewer).map

/-- An object literal takes at least its opener. -/
theorem Advances.object (grammar : parse.Advances other bound) (fits : tokens.length < bound) :
    parse.object.Advances other.object 1 scope (token :: tokens) := by
  refine advances_take_bind (Advances.bind (advances_delimited fun rest fewer => ?_)
    fun _ _ _ => advances_pure)
  exact grammar.entry (Nat.lt_of_le_of_lt fewer fits)

/-- A negation takes at least its mark. -/
theorem Advances.negation (grammar : parse.Advances other bound) (fits : tokens.length < bound) :
    parse.negation.Advances other.negation 1 scope (token :: tokens) := by
  refine advances_take_bind (advances_atEnd_bind (advances_ite (fun _ => ?_) fun _ => ?_))
  · exact advances_fail
  · exact (grammar.expression fits).bind fun _ _ _ => advances_pure

/-- A function without a name takes at least its keyword. -/
theorem Advances.lambda (grammar : parse.Advances other bound) (fits : tokens.length < bound) :
    parse.lambda.Advances other.lambda 1 scope (token :: tokens) := by
  refine advances_take_bind (advances_eat_bind ?_ fun _ => advances_failHere)
  rintro opened tokens rfl
  rw [List.length_cons] at fits
  refine (advances_delimited fun _ _ => advances_expectIdentifier).bind fun _ rest fewer => ?_
  exact (grammar.body (by omega)).bind fun _ _ _ => advances_pure

/-- An operand takes its first token before it calls the grammar. -/
theorem Advances.primary (grammar : parse.Advances other bound) (fits : tokens.length ≤ bound) :
    parse.primary.Advances other.primary 1 scope tokens := by
  refine advances_peek_bind ?_
  cases tokens with
  | nil => exact advances_failAtEnd
  | cons token tokens =>
    obtain ⟨kind, location⟩ := token
    cases kind with
    | punctuation mark =>
      cases mark with
      | openParen => exact advances_nested fun _ => grammar.parenthesized fits
      | openBracket => exact advances_nested fun _ => grammar.array fits
      | openBrace => exact advances_nested fun _ => grammar.object fits
      | bang => exact advances_nested fun _ => grammar.negation fits
      | _ => exact advances_fail
    | identifier name => exact grammar.namedRule fits
    | keyword keyword =>
      cases keyword with
      | fn => exact advances_nested fun _ => grammar.lambda fits
      | _ => exact advances_skip_one_bind advances_pure
    | otherMark character unknown => exact advances_fail
    | _ => exact advances_skip_one_bind advances_pure

/-- An operator is a token, so there are no more operators than tokens. -/
theorem Advances.climb (grammar : parse.Advances other bound) {rounds roundsOther : Nat}
    {left : Node} {strength : Nat} (fits : tokens.length ≤ bound)
    (enough : tokens.length ≤ rounds) (enoughOther : tokens.length ≤ roundsOther) :
    (parse.climb rounds left strength).Advances (other.climb roundsOther left strength) 0 scope
      tokens := by
  refine rounds_induct (motive := fun rounds roundsOther tokens =>
    ∀ left strength, tokens.length ≤ bound →
      (parse.climb rounds left strength).Advances (other.climb roundsOther left strength) 0 scope
        tokens) ?_ ?_ enough enoughOther left strength fits
  · intro rounds roundsOther left strength _
    have ended (parse : Grammar) (rounds : Nat) :
        parse.climb rounds left strength scope [] = (pure left : Parser Node) scope [] := by
      cases rounds <;> rfl
    exact advances_pure.of_eq 0 (ended _ _) (ended _ _) (List.suffix_refl _) (Nat.le_refl _)
  · intro rounds roundsOther symbol tokens ih left strength fits
    refine advances_peek_bind ?_
    cases (symbol :: tokens).head?.bind Token.operator? with
    | none => exact advances_pure
    | some operator =>
      refine advances_ite (fun _ => advances_pure) fun _ => advances_skip_one_bind ?_
      rw [List.length_cons] at fits
      refine (grammar.primary (by omega)).bind fun operand rest fewer => ?_
      refine (ih rest (by omega) _ _ (by omega)).bind fun right rest fewer => ?_
      exact ih rest (by omega) _ _ (by omega)

/-- An expression takes a token. -/
theorem Advances.expressionRule (grammar : parse.Advances other bound)
    (fits : tokens.length ≤ bound) :
    parse.expression.Advances other.expression 1 scope tokens := by
  refine (grammar.primary fits).bind fun operand rest fewer => ?_
  refine advances_peek_bind (advances_ite (fun _ => ?_) fun _ => advances_pure)
  refine advances_peekSecond_bind (advances_ite (fun _ => ?_) fun _ => advances_pure)
  exact advances_left_bind (grammar.climb (by omega) (Nat.le_refl _) (Nat.le_refl _))

/-- A declaration takes at least its keyword. -/
theorem Advances.declaration (grammar : parse.Advances other bound)
    (fits : tokens.length < bound) :
    parse.declaration.Advances other.declaration 1 scope (token :: tokens) := by
  refine advances_take_bind (advances_expectIdentifier.bind fun name rest fewer => ?_)
  refine advances_eat_bind ?_ fun _ => advances_pure
  rintro equals rest rfl
  rw [List.length_cons] at fewer
  exact (grammar.expression (by omega)).bind fun _ _ _ => advances_pure

/-- What follows `else` may be missing. -/
theorem Advances.alternate (grammar : parse.Advances other bound) (fits : tokens.length < bound) :
    parse.alternate.Advances other.alternate 0 scope tokens := by
  refine advances_seesKeyword_bind (advances_ite (fun _ => ?_) fun _ => ?_)
  · have fewer : (tokens.drop 1).length ≤ bound := by
      rw [List.length_drop]
      omega
    exact advances_skip_bind ((grammar.block fewer).weaken (Nat.zero_le 1)).map
  refine advances_seesKeyword_bind (advances_ite (fun ahead => ?_) fun _ => advances_pure)
  obtain ⟨keyword, rest, rfl, _⟩ := startsWithKeyword_iff.mp ahead
  exact ((advances_nested fun _ => grammar.conditional fits).weaken (Nat.zero_le 1)).map

/-- An `if` takes at least its keyword. -/
theorem Advances.conditionalRule (grammar : parse.Advances other bound)
    (fits : tokens.length < bound) :
    (Grammar.conditional parse).Advances (Grammar.conditional other) 1 scope
      (token :: tokens) := by
  refine advances_take_bind ((grammar.expression fits).bind fun test rest fewer => ?_)
  refine (grammar.body (by omega)).bind fun consequent rest fewer => ?_
  refine advances_eatSemicolonBefore.bind fun _ rest fewer => ?_
  exact (grammar.alternate (by omega)).bind fun _ _ _ => advances_pure

/-- A `while` loop takes at least its keyword. -/
theorem Advances.whileLoop (grammar : parse.Advances other bound) (fits : tokens.length < bound) :
    parse.whileLoop.Advances other.whileLoop 1 scope (token :: tokens) := by
  refine advances_take_bind ((grammar.expression fits).bind fun test rest fewer => ?_)
  exact (grammar.body (by omega)).bind fun _ _ _ => advances_pure

/-- A `do` loop takes at least its keyword. -/
theorem Advances.doWhileLoop (grammar : parse.Advances other bound)
    (fits : tokens.length < bound) :
    parse.doWhileLoop.Advances other.doWhileLoop 1 scope (token :: tokens) := by
  refine advances_take_bind ((grammar.body fits).bind fun body rest fewer => ?_)
  refine advances_eatSemicolonBefore.bind fun _ rest fewer => ?_
  refine advances_seesKeyword_bind (advances_ite (fun _ => ?_) fun _ => advances_failHere)
  have inside : (rest.drop 1).length < bound := by
    rw [List.length_drop]
    omega
  exact advances_skip_bind ((grammar.expression inside).bind fun _ _ _ => advances_pure)

/-- The step of a `for` loop may be missing. -/
theorem Advances.forUpdate (grammar : parse.Advances other bound) {initial : Node}
    (fits : tokens.length < bound) :
    (parse.forUpdate initial).Advances (other.forUpdate initial) 0 scope tokens := by
  apply advances_eat_bind
  · rintro comma rest rfl
    exact (grammar.statement (Nat.lt_of_succ_lt fits)).weaken (Nat.zero_le 1)
  · intro _
    cases initial with
    | declaration name value location =>
      exact advances_atEnd_bind (advances_ite (fun _ => advances_failHere) fun _ => advances_pure)
    | _ => exact advances_failHere

/-- A `for` loop takes at least its keyword. -/
theorem Advances.forLoop (grammar : parse.Advances other bound) (fits : tokens.length < bound) :
    parse.forLoop.Advances other.forLoop 1 scope (token :: tokens) := by
  refine advances_take_bind ((grammar.statement fits).bind fun initial rest fewer => ?_)
  refine advances_eat_bind ?_ fun _ => advances_failHere
  rintro comma rest rfl
  rw [List.length_cons] at fewer
  refine (grammar.expression (by omega)).bind fun test rest fewer => ?_
  refine (grammar.forUpdate (by omega)).bind fun update rest fewer => ?_
  exact (grammar.body (by omega)).bind fun _ _ _ => advances_pure

/-- Looking through the entries of a switch for cases takes no token. -/
theorem advances_clausesOf {shown : String} {entries : List Node} :
    (clausesOf shown entries).Advances (clausesOf shown entries) 0 scope tokens := by
  induction entries with
  | nil => exact advances_pure
  | cons entry entries ih =>
    unfold clausesOf
    cases entry.clause? with
    | none => exact advances_fail
    | some branch => exact ih.map

/-- A switch takes at least its keyword. -/
theorem Advances.switch (grammar : parse.Advances other bound) (fits : tokens.length < bound) :
    parse.switch.Advances other.switch 1 scope (token :: tokens) := by
  refine advances_take_bind ((grammar.expression fits).bind fun subject rest fewer => ?_)
  refine (grammar.blockParts (by omega)).bind fun _ rest fewer => ?_
  exact advances_clausesOf.bind fun _ _ _ => advances_pure

/-- A further value takes a token, so there are no more values than tokens. -/
theorem Advances.alternatives (grammar : parse.Advances other bound) {rounds roundsOther : Nat}
    (fits : tokens.length < bound) (enough : tokens.length ≤ rounds)
    (enoughOther : tokens.length ≤ roundsOther) :
    (parse.alternatives rounds).Advances (other.alternatives roundsOther) 0 scope tokens := by
  refine rounds_induct (motive := fun rounds roundsOther tokens => tokens.length < bound →
    (parse.alternatives rounds).Advances (other.alternatives roundsOther) 0 scope tokens)
    ?_ ?_ enough enoughOther fits
  · intro rounds roundsOther _
    have ended (parse : Grammar) (rounds : Nat) :
        parse.alternatives rounds scope [] = (pure [] : Parser (List Node)) scope [] := by
      cases rounds <;> rfl
    exact advances_pure.of_eq 0 (ended _ _) (ended _ _) (List.suffix_refl _) (Nat.le_refl _)
  · intro rounds roundsOther token tokens ih fits
    refine advances_eat_bind ?_ fun _ => advances_pure
    rintro bar rest ⟨⟩
    rw [List.length_cons] at fits
    refine (grammar.expression (by omega)).bind fun value rest fewer => ?_
    exact (ih rest (by omega) (by omega)).bind fun _ _ _ => advances_pure

/-- The keyword of a case is passed with its values. -/
theorem Advances.clauseHead (grammar : parse.Advances other bound)
    (fits : tokens.length < bound) :
    parse.clauseHead.Advances other.clauseHead 1 scope (token :: tokens) := by
  refine advances_seesKeyword_bind (advances_ite (fun _ => ?_) fun _ => ?_)
  · exact advances_skip_one_bind advances_pure
  refine advances_skip_one_bind ((grammar.expression fits).bind fun first rest fewer => ?_)
  have inside : rest.length < bound := by omega
  exact advances_left_bind ((grammar.alternatives inside (Nat.le_refl _) (Nat.le_refl _)).bind
    fun _ _ _ => advances_pure)

/-- The body of a case takes a token. -/
theorem Advances.clauseBody (grammar : parse.Advances other bound)
    (fits : tokens.length ≤ bound) :
    parse.clauseBody.Advances other.clauseBody 1 scope tokens := by
  refine advances_sees_bind (advances_ite (fun _ => grammar.block fits) fun _ => ?_)
  refine advances_eat_bind ?_ fun _ => advances_failHere
  rintro colon rest rfl
  exact (grammar.statement fits).weaken (Nat.zero_le 1)

/-- A case takes at least its keyword. -/
theorem Advances.clause (grammar : parse.Advances other bound) (fits : tokens.length < bound) :
    parse.clause.Advances other.clause 1 scope (token :: tokens) := by
  refine advances_here_bind fun place => ?_
  refine (grammar.clauseHead fits).bind fun _ rest fewer => ?_
  rw [List.length_cons] at fewer
  exact (grammar.clauseBody (by omega)).bind fun _ _ _ => advances_pure

/-- Looking through the arguments of a signature for names takes no token. -/
theorem advances_parametersOf {arguments : List Node} :
    (parametersOf arguments).Advances (parametersOf arguments) 0 scope tokens := by
  induction arguments with
  | nil => exact advances_pure
  | cons argument arguments ih =>
    unfold parametersOf
    cases argument.identifier? with
    | none => exact advances_fail
    | some name => exact ih.map

/-- A function with a name takes at least its keyword. -/
theorem Advances.namedFunction (grammar : parse.Advances other bound)
    (fits : tokens.length < bound) :
    parse.namedFunction.Advances other.namedFunction 1 scope (token :: tokens) := by
  refine advances_take_bind (advances_peek_bind (advances_ite (fun _ => ?_) fun _ => ?_))
  · refine (grammar.namedRule (Nat.le_of_lt fits)).bind fun title rest fewer => ?_
    cases title.signature? with
    | none => exact advances_failHere
    | some signature =>
      refine advances_parametersOf.bind fun _ rest fewer => ?_
      exact (grammar.body (by omega)).bind fun _ _ _ => advances_pure
  · exact advances_failHere

/-- The end of a function takes at least its keyword. -/
theorem Advances.returns (grammar : parse.Advances other bound) (fits : tokens.length < bound) :
    parse.returns.Advances other.returns 1 scope (token :: tokens) := by
  refine advances_take_bind (advances_peek_bind ?_)
  cases tokens with
  | nil => exact advances_pure
  | cons next tokens =>
    refine advances_ite (fun _ => advances_pure) fun _ => ?_
    exact (grammar.expression fits).bind fun _ _ _ => advances_pure

/-- The statement of a keyword takes at least the keyword. -/
theorem Advances.keywordStatement (grammar : parse.Advances other bound)
    {keyword : Located Keyword} (fits : tokens.length < bound) :
    (parse.keywordStatement keyword).Advances (other.keywordStatement keyword) 1 scope
      (token :: tokens) := by
  obtain ⟨keyword, location⟩ := keyword
  cases keyword with
  | «let» | var => exact grammar.declaration fits
  | «if» => exact grammar.conditionalRule fits
  | «while» => exact grammar.whileLoop fits
  | «do» => exact grammar.doWhileLoop fits
  | «for» => exact grammar.forLoop fits
  | switch => exact grammar.switch fits
  | case | default => exact grammar.clause fits
  | fn =>
    refine advances_peekSecond_bind (advances_ite (fun _ => ?_) fun _ => ?_)
    · exact grammar.lambda fits
    · exact grammar.namedFunction fits
  | «return» => exact grammar.returns fits
  | «else» | elseif => exact advances_fail

/-- A statement takes its first token before it calls the grammar. -/
theorem Advances.statementRule (grammar : parse.Advances other bound)
    (fits : tokens.length ≤ bound) :
    parse.statement.Advances other.statement 1 scope tokens := by
  refine advances_nested fun _ => advances_peek_bind ?_
  cases tokens with
  | nil => exact advances_failAtEnd
  | cons token tokens =>
    refine advances_record_bind (fun _ => rfl) ?_
    obtain ⟨kind, location⟩ := token
    cases kind with
    | keyword keyword => exact grammar.keywordStatement fits
    | identifier name => exact grammar.namedRule fits
    | lineComment text | blockComment text => exact advances_skip_one_bind advances_pure
    | _ => exact advances_fail

/-- If two grammars agree on fewer tokens, what is built from them agrees on one more. -/
theorem Advances.step (grammar : parse.Advances other bound) :
    parse.step.Advances other.step (bound + 1) where
  statement fits := grammar.statementRule (Nat.le_of_lt_succ fits)
  expression fits := grammar.expressionRule (Nat.le_of_lt_succ fits)
  named fits := grammar.namedRule (Nat.le_of_lt_succ fits)
  indexed fits := grammar.indexedRule (Nat.le_of_lt_succ fits)
  conditional fits := grammar.conditionalRule (Nat.le_of_lt_succ fits)

/-- The rules, called in one another so many times. Whatever is called below the last call is
answered by the given grammar. -/
def unrolled (stuck : Grammar) : Nat → Grammar
  | 0 => stuck
  | calls + 1 => (unrolled stuck calls).step

/-- Grammars that are unrolled far enough agree, whatever stands below. -/
theorem advances_unrolled {stuck stuckOther : Grammar} {calls callsOther : Nat}
    (enough : bound ≤ calls) (enoughOther : bound ≤ callsOther) :
    (unrolled stuck calls).Advances (unrolled stuckOther callsOther) bound := by
  induction bound generalizing calls callsOther with
  | zero => constructor <;> intro _ _ <;> intros <;> contradiction
  | succ bound ih =>
    obtain ⟨calls, rfl⟩ := Nat.exists_eq_add_one.mpr (Nat.lt_of_lt_of_le (Nat.succ_pos _) enough)
    obtain ⟨callsOther, rfl⟩ :=
      Nat.exists_eq_add_one.mpr (Nat.lt_of_lt_of_le (Nat.succ_pos _) enoughOther)
    exact (ih (Nat.le_of_succ_le_succ enough) (Nat.le_of_succ_le_succ enoughOther)).step

/-- The bounded grammar is the rules put together so many times over one that always fails. -/
theorem below_eq_unrolled (calls : Nat) :
    below calls = unrolled (fun _ => failAtEnd .expression) calls := by
  induction calls with
  | zero => rfl
  | succ calls ih => rw [below, unrolled, ih]

/-- The number of tokens in front of a part only chooses how far the grammar is unrolled. -/
theorem advances_full_of_unrolled {parser : Parser Node} {goal : Goal} {least : Nat}
    (advances : parser.Advances
      (unrolled (fun _ => failAtEnd .expression) (tokens.length + 1) goal) least scope tokens) :
    parser.Advances (full goal) least scope tokens := by
  refine advances.of_eq 0 rfl ?_ (List.suffix_refl _) (Nat.le_refl _)
  rw [← below_eq_unrolled]
  rfl

/-- The grammar of the language agrees with every grammar that is unrolled far enough. -/
theorem advances_full {stuck : Grammar} {calls : Nat} (enough : bound ≤ calls) :
    (unrolled stuck calls).Advances full bound where
  statement fits := advances_full_of_unrolled
    ((advances_unrolled (Nat.le_trans fits enough) (Nat.le_refl _)).statement (Nat.lt_succ_self _))
  expression fits := advances_full_of_unrolled
    ((advances_unrolled (Nat.le_trans fits enough) (Nat.le_refl _)).expression (Nat.lt_succ_self _))
  named fits := advances_full_of_unrolled
    ((advances_unrolled (Nat.le_trans fits enough) (Nat.le_refl _)).named (Nat.lt_succ_self _))
  indexed fits := advances_full_of_unrolled
    ((advances_unrolled (Nat.le_trans fits enough) (Nat.le_refl _)).indexed (Nat.lt_succ_self _))
  conditional fits := advances_full_of_unrolled
    ((advances_unrolled (Nat.le_trans fits enough) (Nat.le_refl _)).conditional
      (Nat.lt_succ_self _))

/-- What agrees with another grammar is a grammar of its own that moves forward. -/
theorem Advances.right (grammar : parse.Advances other bound) : other.Advances other bound where
  statement fits := (grammar.statement fits).right
  expression fits := (grammar.expression fits).right
  named fits := (grammar.named fits).right
  indexed fits := (grammar.indexed fits).right
  conditional fits := (grammar.conditional fits).right

/-- The grammar of the language advances by itself, on any number of tokens. -/
theorem advances_full_self : full.Advances full bound := by
  have unrolledAlike : (unrolled full bound).Advances full bound := advances_full (Nat.le_refl _)
  exact unrolledAlike.right

/-- Statements up to the end of the source are read alike with any two numbers of rounds that
suffice. -/
theorem Advances.statements (grammar : parse.Advances other bound) {rounds roundsOther : Nat}
    (fits : tokens.length ≤ bound) (enough : tokens.length ≤ rounds)
    (enoughOther : tokens.length ≤ roundsOther) :
    (parse.statements rounds).Advances (other.statements roundsOther) 0 scope tokens := by
  refine rounds_induct (motive := fun rounds roundsOther tokens => tokens.length ≤ bound →
    (parse.statements rounds).Advances (other.statements roundsOther) 0 scope tokens)
    ?_ ?_ enough enoughOther fits
  · intro rounds roundsOther _
    have ended (parse : Grammar) (rounds : Nat) :
        parse.statements rounds scope [] = (pure [] : Parser (List Node)) scope [] := by
      cases rounds <;> rfl
    exact advances_pure.of_eq 0 (ended _ _) (ended _ _) (List.suffix_refl _) (Nat.le_refl _)
  · intro rounds roundsOther token tokens ih fits
    refine advances_atEnd_bind (advances_ite (fun _ => advances_pure) fun _ => ?_)
    refine (grammar.statementRule fits).bind fun first rest fewer => ?_
    rw [List.length_cons] at fits fewer
    have others (left : List Token) (shorter : left.length ≤ rest.length) :
        (parse.statements rounds).Advances (other.statements roundsOther) 0 scope left :=
      ih left (by omega) (by omega)
    apply advances_eat_bind
    · rintro semicolon rest rfl
      exact (others rest (Nat.le_succ _)).bind fun _ _ _ => advances_pure
    · exact fun _ => (others rest (Nat.le_refl _)).bind fun _ _ _ => advances_pure

/-- A program is read alike by grammars that agree on its tokens. -/
theorem Advances.program (grammar : parse.Advances other bound) (fits : tokens.length ≤ bound) :
    parse.program.Advances other.program 0 scope tokens := by
  refine advances_left_bind ((grammar.statements fits (Nat.le_refl _) (Nat.le_refl _)).bind
    fun statements rest fewer => ?_)
  cases statements.findSome? Node.clause? with
  | none => exact advances_pure
  | some branch => exact advances_fail

end Grammar

end Oreo
