import Oreo.Proofs.Parse.Termination

/-!
# Brackets are closed in order

In a program each bracket is closed by the mark that belongs to it, before a bracket around it is
closed. Where a bracket is not closed, the error names the innermost one that is open there, though
the rule that fails was never told which brackets stand around it.

`openBrackets` goes through tokens and keeps the brackets that are open, innermost first. A rule
takes tokens that leave them as they were; what reads the inside of a bracket finds that bracket
innermost and closes it. `Parser.Tracks` says this of a run that succeeds, and of one that fails
that an error about a bracket is about the innermost. The rules call one another while brackets are
open, so both are shown for any brackets around the tokens.
-/

namespace Oreo

namespace Punctuation

/-- The pair that the mark opens. -/
def opens? : Punctuation → Option Bracket
  | .openParen => some .paren
  | .openBracket => some .square
  | .openBrace => some .brace
  | _ => none

/-- The pair that the mark closes. -/
def closes? : Punctuation → Option Bracket
  | .closeParen => some .paren
  | .closeBracket => some .square
  | .closeBrace => some .brace
  | _ => none

/-- A mark opens the pair whose opener it is. -/
theorem opens?_eq_some_iff {mark : Punctuation} {bracket : Bracket} :
    mark.opens? = some bracket ↔ mark = bracket.opener := by
  cases mark <;> cases bracket <;> decide

/-- A mark closes the pair whose closer it is. -/
theorem closes?_eq_some_iff {mark : Punctuation} {bracket : Bracket} :
    mark.closes? = some bracket ↔ mark = bracket.closer := by
  cases mark <;> cases bracket <;> decide

end Punctuation

namespace Token

/-- The punctuation mark that the token is. -/
def mark? (token : Token) : Option Punctuation :=
  match token.kind with
  | .punctuation mark => some mark
  | _ => none

/-- The pair that the token opens. -/
def opens? (token : Token) : Option Bracket := token.mark?.bind Punctuation.opens?

/-- The pair that the token closes. -/
def closes? (token : Token) : Option Bracket := token.mark?.bind Punctuation.closes?

/-- Whether the token is no bracket. -/
def isPlain (token : Token) : Bool := token.opens?.isNone && token.closes?.isNone

/-- A token opens the pair whose opener it is. -/
theorem opens?_eq_some_iff {token : Token} {bracket : Bracket} :
    token.opens? = some bracket ↔ token.kind = .punctuation bracket.opener := by
  obtain ⟨kind, location⟩ := token
  cases kind with
  | punctuation mark => simp [opens?, mark?, Punctuation.opens?_eq_some_iff]
  | _ => simp [opens?, mark?]

/-- A token closes the pair whose closer it is. -/
theorem closes?_eq_some_iff {token : Token} {bracket : Bracket} :
    token.closes? = some bracket ↔ token.kind = .punctuation bracket.closer := by
  obtain ⟨kind, location⟩ := token
  cases kind with
  | punctuation mark => simp [closes?, mark?, Punctuation.closes?_eq_some_iff]
  | _ => simp [closes?, mark?]

/-- A token is an opening mark, a closing mark, or no bracket. -/
theorem bracket_cases (token : Token) :
    (∃ bracket, token.opens? = some bracket) ∨
      (token.opens? = none ∧ ∃ bracket, token.closes? = some bracket) ∨ token.isPlain = true := by
  cases opens : token.opens? with
  | some bracket => exact .inl ⟨bracket, rfl⟩
  | none =>
    cases closes : token.closes? with
    | some bracket => exact .inr (.inl ⟨rfl, bracket, rfl⟩)
    | none => exact .inr (.inr (by simp [isPlain, opens, closes]))

/-- A token that closes a pair opens none. -/
theorem opens?_of_closes? {token : Token} {bracket : Bracket}
    (closes : token.closes? = some bracket) : token.opens? = none := by
  cases opens : token.opens? with
  | none => rfl
  | some other =>
    rw [closes?_eq_some_iff] at closes
    rw [opens?_eq_some_iff, closes] at opens
    cases bracket <;> cases other <;> cases opens

/-- A mark that belongs to no pair is plain. -/
theorem isPlain_of_mark {token : Token} {mark : Punctuation}
    (kind : token.kind = .punctuation mark) (opens : mark.opens? = none)
    (closes : mark.closes? = none) : token.isPlain = true := by
  simp [isPlain, opens?, closes?, mark?, kind, opens, closes]

/-- A keyword is plain. -/
theorem isPlain_of_keyword {token : Token} {keyword : Keyword}
    (kind : token.kind = .keyword keyword) : token.isPlain = true := by
  simp [isPlain, opens?, closes?, mark?, kind]

/-- A name is plain. -/
theorem isPlain_of_isIdentifier {token : Token} (named : token.isIdentifier = true) :
    token.isPlain = true := by
  obtain ⟨name, kind⟩ := isIdentifier_iff.mp named
  simp [isPlain, opens?, closes?, mark?, kind]

/-- An operator is plain. -/
theorem isPlain_of_operator? {token : Token} {operator : Operator}
    (symbol : token.operator? = some operator) : token.isPlain = true := by
  obtain ⟨kind, location⟩ := token
  cases kind with
  | operator other => rfl
  | _ => cases symbol

/-- A separator is plain. -/
theorem isPlain_of_separator? {token : Token} {separator : MemberSeparator}
    (mark : token.separator? = some separator) : token.isPlain = true := by
  obtain ⟨kind, location⟩ := token
  cases kind with
  | punctuation other =>
    cases other with
    | dot | colon => rfl
    | _ => cases mark
  | _ => cases mark

end Token

/-- The brackets that are open behind a token, innermost first, if the given ones are open before
it. A closing mark has to belong to the innermost. -/
def openBehind (stack : List Token) (token : Token) : Option (List Token) :=
  if token.opens?.isSome then some (token :: stack)
  else
    match token.closes?, stack with
    | none, stack => some stack
    | some _, [] => none
    | some bracket, opener :: outer => if opener.opens? = some bracket then some outer else none

/-- The brackets that are open behind the tokens, innermost first, if the given ones are open before
them. There are none such if a bracket is closed that is not the innermost. -/
def openBrackets (stack tokens : List Token) : Option (List Token) := tokens.foldlM openBehind stack

/-- Tokens whose brackets are properly nested. -/
inductive Balanced : List Token → Prop
  /-- No tokens are balanced. -/
  | nil : Balanced []
  /-- A token that is no bracket may stand anywhere. -/
  | plain {token : Token} {tokens : List Token} (other : token.isPlain = true)
      (tail : Balanced tokens) : Balanced (token :: tokens)
  /-- Balanced tokens may stand in a pair of brackets, and before others. -/
  | pair {opener closer : Token} {inner tokens : List Token} {bracket : Bracket}
      (opens : opener.kind = .punctuation bracket.opener)
      (closes : closer.kind = .punctuation bracket.closer) (inside : Balanced inner)
      (tail : Balanced tokens) : Balanced (opener :: (inner ++ closer :: tokens))

section

variable {token opener : Token} {bracket : Bracket} {tokens rest stack middle after : List Token}

/-- A plain token leaves the open brackets as they are. -/
theorem openBehind_plain (plain : token.isPlain = true) : openBehind stack token = some stack := by
  simp only [Token.isPlain, Bool.and_eq_true, Option.isNone_iff_eq_none] at plain
  simp [openBehind, plain.1, plain.2]

/-- An opener is the innermost open bracket behind itself. -/
theorem openBehind_opener (opens : token.kind = .punctuation bracket.opener) :
    openBehind stack token = some (token :: stack) := by
  simp [openBehind, Token.opens?_eq_some_iff.mpr opens]

/-- The closer of the innermost open bracket closes it. -/
theorem openBehind_closer (opens : opener.kind = .punctuation bracket.opener)
    (closes : token.kind = .punctuation bracket.closer) :
    openBehind (opener :: stack) token = some stack := by
  have closing := Token.closes?_eq_some_iff.mpr closes
  simp [openBehind, closing, Token.opens?_of_closes? closing, Token.opens?_eq_some_iff.mpr opens]

/-- No tokens leave the open brackets as they are. -/
@[simp] theorem openBrackets_nil : openBrackets stack [] = some stack := rfl

/-- Brackets are followed one token at a time. -/
@[simp] theorem openBrackets_cons :
    openBrackets stack (token :: tokens) =
      (openBehind stack token).bind fun behind => openBrackets behind tokens :=
  List.foldlM_cons

/-- Brackets are followed through one text and then through the next. -/
theorem openBrackets_append (first second : List Token) :
    openBrackets stack (first ++ second) =
      (openBrackets stack first).bind fun behind => openBrackets behind second :=
  List.foldlM_append

/-- Properly nested tokens leave the open brackets as they were. -/
theorem Balanced.openBrackets_eq (balanced : Balanced tokens) (stack : List Token) :
    openBrackets stack tokens = some stack := by
  induction balanced generalizing stack with
  | nil => rfl
  | plain other _ ih => rw [openBrackets_cons, openBehind_plain other, Option.bind_some, ih]
  | pair opens closes _ _ inside tail =>
    rw [openBrackets_cons, openBehind_opener opens, Option.bind_some, openBrackets_append, inside,
      Option.bind_some, openBrackets_cons, openBehind_closer opens closes, Option.bind_some, tail]

/-- Fewer tokens are left behind a pair than from its opener on. -/
theorem length_lt_of_pair {closer : Token} {inner : List Token} :
    rest.length < (opener :: (inner ++ closer :: rest)).length := by
  simp only [List.length_cons, List.length_append]
  omega

/-- A bracket that is no longer open behind the tokens is closed among them, and what stands before
its closing mark is properly nested. -/
theorem exists_closer (whole : openBrackets (opener :: stack) tokens = some after)
    (fewer : after.length ≤ stack.length) :
    ∃ inner closer rest, tokens = inner ++ closer :: rest ∧ Balanced inner ∧
      closer.closes? = opener.opens? ∧ openBrackets stack rest = some after := by
  induction size : tokens.length using Nat.strongRecOn generalizing opener stack tokens with
  | ind size ih =>
    cases tokens with
    | nil =>
      cases whole
      exact absurd fewer (Nat.not_succ_le_self _)
    | cons token tokens =>
      subst size
      rw [openBrackets_cons] at whole
      obtain ⟨bracket, opens⟩ | ⟨opens, bracket, closes⟩ | plain := token.bracket_cases
      · -- Another bracket is opened and closed before the first one is.
        rw [openBehind_opener (Token.opens?_eq_some_iff.mp opens), Option.bind_some] at whole
        obtain ⟨inner, closer, rest, rfl, nested, belongs, goes⟩ :=
          ih _ (Nat.lt_succ_self _) whole (Nat.le_succ_of_le fewer) rfl
        obtain ⟨more, last, rest, rfl, others, ends, goes⟩ := ih _ length_lt_of_pair goes fewer rfl
        rw [opens, Token.closes?_eq_some_iff] at belongs
        refine ⟨token :: (inner ++ closer :: more), last, rest, by simp, ?_, ends, goes⟩
        exact .pair (Token.opens?_eq_some_iff.mp opens) belongs nested others
      · by_cases belongs : opener.opens? = some bracket
        · refine ⟨[], token, tokens, rfl, .nil, closes.trans belongs.symm, ?_⟩
          simpa [openBehind, opens, closes, belongs] using whole
        · simp [openBehind, opens, closes, belongs] at whole
      · rw [openBehind_plain plain, Option.bind_some] at whole
        obtain ⟨inner, closer, rest, rfl, nested, ends, goes⟩ :=
          ih _ (Nat.lt_succ_self _) whole fewer rfl
        exact ⟨token :: inner, closer, rest, rfl, .plain plain nested, ends, goes⟩

/-- Tokens that leave no bracket open, and close none that they did not open, are balanced. -/
theorem balanced_of_openBrackets (whole : openBrackets [] tokens = some []) : Balanced tokens := by
  induction size : tokens.length using Nat.strongRecOn generalizing tokens with
  | ind size ih =>
    cases tokens with
    | nil => exact .nil
    | cons token tokens =>
      subst size
      rw [openBrackets_cons] at whole
      obtain ⟨bracket, opens⟩ | ⟨opens, bracket, closes⟩ | plain := token.bracket_cases
      · rw [openBehind_opener (Token.opens?_eq_some_iff.mp opens), Option.bind_some] at whole
        obtain ⟨inner, closer, rest, rfl, inside, ends, goes⟩ := exists_closer whole (Nat.le_refl _)
        rw [opens, Token.closes?_eq_some_iff] at ends
        have others := ih _ length_lt_of_pair goes rfl
        exact .pair (Token.opens?_eq_some_iff.mp opens) ends inside others
      · simp [openBehind, opens, closes] at whole
      · rw [openBehind_plain plain, Option.bind_some] at whole
        exact .plain plain (ih _ (Nat.lt_succ_self _) whole rfl)

/-- Tokens are properly nested when no bracket is open behind them. -/
theorem balanced_iff : Balanced tokens ↔ openBrackets [] tokens = some [] :=
  ⟨fun balanced => balanced.openBrackets_eq [], balanced_of_openBrackets⟩

/-- Whether tokens are balanced is decided by following the brackets. -/
instance : DecidablePred Balanced := fun _ => decidable_of_iff _ balanced_iff.symm

/-- The tokens before the rest lead from some open brackets to others. -/
def Passes (stack tokens after rest : List Token) : Prop :=
  ∃ front, front ++ rest = tokens ∧ openBrackets stack front = some after

namespace Passes

/-- Passing nothing leaves the brackets as they are. -/
theorem refl : Passes stack tokens stack tokens := ⟨[], rfl, rfl⟩

/-- Passing some tokens and then others is passing all of them. -/
theorem trans {left : List Token} (first : Passes stack tokens middle rest)
    (second : Passes middle rest after left) : Passes stack tokens after left := by
  obtain ⟨front, rfl, begins⟩ := first
  obtain ⟨back, rfl, ends⟩ := second
  refine ⟨front ++ back, List.append_assoc .., ?_⟩
  rw [openBrackets_append, begins, Option.bind_some, ends]

/-- One token is passed. -/
theorem one (behind : openBehind stack token = some after) :
    Passes stack (token :: tokens) after tokens :=
  ⟨[token], rfl, by rw [openBrackets_cons, behind, Option.bind_some, openBrackets_nil]⟩

/-- A plain token is passed, and the brackets stay as they are. -/
theorem plain (other : token.isPlain = true) : Passes stack (token :: tokens) stack tokens :=
  one (openBehind_plain other)

end Passes

end

/-- The pair that is said not to be closed. -/
def ParseFault.unclosed? : ParseFault → Option Bracket
  | .unclosedBracket bracket _ _ => some bracket
  | _ => none

/-- The token opens a bracket of the pair at the place, and the mark that would close it does not
come next. -/
structure Unclosed (bracket : Bracket) (opened : Location) (opener : Token) (rest : List Token) :
    Prop where
  /-- The token opens the bracket. -/
  opens : opener.kind = .punctuation bracket.opener
  /-- The error is at the token. -/
  place : opener.location = opened
  /-- The next token does not close the bracket. -/
  ahead : startsWith bracket.closer rest = false

namespace Parser

/-- Some brackets are open before the tokens. A run that succeeds leads to others; one that says of
a bracket that it is not closed stops where that bracket is the innermost open one. -/
structure Tracks {α : Type} (parser : Parser α) (scope : Scope) (tokens stack after : List Token) :
    Prop where
  /-- A success leaves the brackets open that were to be left open. -/
  passes : ∀ value, (parser scope tokens).outcome = .ok value →
    Passes stack tokens after (parser scope tokens).rest
  /-- A bracket that is reported is the innermost one that is open. -/
  blames : ∀ error bracket, (parser scope tokens).outcome = .error error →
    error.value.unclosed? = some bracket →
    ∃ opener outer, Passes stack tokens (opener :: outer) (parser scope tokens).rest ∧
      Unclosed bracket error.location opener (parser scope tokens).rest

variable {α β : Type} {scope : Scope} {token opener : Token}
  {tokens rest stack middle after : List Token}

/-- A value that is given takes no tokens. -/
theorem tracks_pure {value : α} : (pure value : Parser α).Tracks scope tokens stack stack where
  passes _ _ := .refl
  blames _ _ outcome _ := by cases outcome

/-- An error that is not about a bracket may stop anywhere. -/
theorem tracks_of_error {parser : Parser α} {error : ParseError} {events : List Event}
    (answer : parser scope tokens = ⟨.error error, rest, events⟩)
    (other : error.value.unclosed? = none) : parser.Tracks scope tokens stack after where
  passes value outcome := by
    rw [answer] at outcome
    cases outcome
  blames found bracket outcome blamed := by
    rw [answer] at outcome
    cases outcome
    rw [other] at blamed
    cases blamed

/-- A fault that is not about a bracket blames none. -/
theorem tracks_fail {fault : ParseFault} {location : Location} (other : fault.unclosed? = none) :
    (fail fault location : Parser α).Tracks scope tokens stack after :=
  tracks_of_error rfl other

/-- A fault at the current token that is not about a bracket blames none. -/
theorem tracks_failHere {fault : Option String → ParseFault}
    (other : ∀ found, (fault found).unclosed? = none) :
    (failHere fault : Parser α).Tracks scope tokens stack after :=
  tracks_of_error rfl (other _)

/-- The end of the source, where a part is missing, blames no bracket. -/
theorem tracks_failAtEnd {context : Construct} :
    (failAtEnd context : Parser α).Tracks scope tokens stack after := by
  obtain ⟨limit, room, last⟩ := scope
  cases last with
  | none => exact tracks_of_error rfl rfl
  | some token => exact tracks_of_error rfl rfl

/-- An error about the innermost open bracket, where it is not closed. -/
theorem tracks_fail_unclosed {bracket : Bracket} {context : Construct} {found : Option String}
    (opens : opener.kind = .punctuation bracket.opener)
    (ahead : startsWith bracket.closer tokens = false) :
    (fail (.unclosedBracket bracket context found) opener.location : Parser α).Tracks scope tokens
      (opener :: stack) after where
  passes _ outcome := by cases outcome
  blames error other outcome blamed := by
    cases outcome
    cases blamed
    exact ⟨opener, stack, .refl, opens, rfl, ahead⟩

/-- Behind what is known to pass some tokens, the next parser goes on. -/
theorem tracks_bind_of_ok {first : Parser α} {next : α → Parser β} {value : α}
    {events : List Event} (answer : first scope tokens = ⟨.ok value, rest, events⟩)
    (passed : Passes stack tokens middle rest)
    (goes : (next value).Tracks scope rest middle after) :
    (first >>= next).Tracks scope tokens stack after where
  passes result outcome := by
    rw [bind_of_ok answer] at outcome ⊢
    exact passed.trans (goes.passes result outcome)
  blames error bracket outcome blamed := by
    rw [bind_of_ok answer] at outcome ⊢
    obtain ⟨opener, outer, further, unclosed⟩ := goes.blames error bracket outcome blamed
    exact ⟨opener, outer, passed.trans further, unclosed⟩

/-- Two parsers in order lead on from where the first leads. -/
theorem Tracks.bind {first : Parser α} {next : α → Parser β}
    (begins : first.Tracks scope tokens stack middle)
    (goes : ∀ value rest, first.Yields scope tokens value rest →
      (next value).Tracks scope rest middle after) :
    (first >>= next).Tracks scope tokens stack after := by
  obtain ⟨passes, blames⟩ := begins
  rcases answer : first scope tokens with ⟨error | value, rest, events⟩
  · rw [answer] at blames
    constructor
    · intro value outcome
      rw [bind_of_error answer] at outcome
      cases outcome
    · intro error bracket outcome blamed
      rw [bind_of_error answer] at outcome ⊢
      cases outcome
      exact blames _ bracket rfl blamed
  · rw [answer] at passes
    refine tracks_bind_of_ok answer (passes value rfl) (goes value rest ?_)
    rw [Yields, answer]
    exact ⟨rfl, rfl⟩

/-- What is built from a value takes the tokens that the value takes. -/
theorem Tracks.map {build : α → β} {parser : Parser α}
    (tracks : parser.Tracks scope tokens stack after) :
    (build <$> parser).Tracks scope tokens stack after :=
  tracks.bind fun _ _ _ => tracks_pure

/-- Of two parsers the one is run whose condition holds. -/
theorem tracks_ite {condition : Prop} [Decidable condition] {first second : Parser α}
    (yes : condition → first.Tracks scope tokens stack after)
    (no : ¬ condition → second.Tracks scope tokens stack after) :
    (if condition then first else second).Tracks scope tokens stack after := by
  split
  · exact yes ‹_›
  · exact no ‹_›

/-- One level deeper the brackets are the same. -/
theorem tracks_nested {parser : Parser α}
    (inner : ∀ room, parser.Tracks { scope with room } tokens stack after) :
    (nested parser).Tracks scope tokens stack after := by
  obtain ⟨limit, room, last⟩ := scope
  cases room with
  | zero => exact tracks_of_error rfl rfl
  | succ room => exact ⟨(inner room).passes, (inner room).blames⟩

/-- A record takes no tokens. -/
theorem tracks_record {event : Event} : (record event).Tracks scope tokens stack stack where
  passes _ _ := .refl
  blames _ _ outcome _ := by cases outcome

/-- What only looks ahead leaves the brackets to the next parser. -/
theorem tracks_look_bind {look : Parser α} {next : α → Parser β} {value : α} {events : List Event}
    (answer : look scope tokens = ⟨.ok value, tokens, events⟩)
    (goes : (next value).Tracks scope tokens stack after) :
    (look >>= next).Tracks scope tokens stack after :=
  tracks_bind_of_ok answer .refl goes

/-- A look at the current token takes none. -/
theorem tracks_peek_bind {next : Option Token → Parser α}
    (goes : (next tokens.head?).Tracks scope tokens stack after) :
    (peek >>= next).Tracks scope tokens stack after :=
  tracks_look_bind rfl goes

/-- A look at the token behind the current one takes none. -/
theorem tracks_peekSecond_bind {next : Option Token → Parser α}
    (goes : (next tokens.tail.head?).Tracks scope tokens stack after) :
    (peekSecond >>= next).Tracks scope tokens stack after :=
  tracks_look_bind rfl goes

/-- A look for a mark takes no tokens. -/
theorem tracks_sees_bind {mark : Punctuation} {next : Bool → Parser α}
    (goes : (next (startsWith mark tokens)).Tracks scope tokens stack after) :
    (sees mark >>= next).Tracks scope tokens stack after :=
  tracks_look_bind rfl goes

/-- A look for a keyword takes no tokens. -/
theorem tracks_seesKeyword_bind {keyword : Keyword} {next : Bool → Parser α}
    (goes : (next (startsWithKeyword keyword tokens)).Tracks scope tokens stack after) :
    (seesKeyword keyword >>= next).Tracks scope tokens stack after :=
  tracks_look_bind rfl goes

/-- A look for the end takes no tokens. -/
theorem tracks_atEnd_bind {next : Bool → Parser α}
    (goes : (next tokens.isEmpty).Tracks scope tokens stack after) :
    (atEnd >>= next).Tracks scope tokens stack after := by
  cases tokens with
  | nil => exact tracks_look_bind rfl goes
  | cons token tokens => exact tracks_look_bind rfl goes

/-- Counting what is left takes no tokens. -/
theorem tracks_left_bind {next : Nat → Parser α}
    (goes : (next tokens.length).Tracks scope tokens stack after) :
    (left >>= next).Tracks scope tokens stack after :=
  tracks_look_bind rfl goes

/-- The current token is passed, whatever it does to the brackets. -/
theorem tracks_take_bind {next : Location → Parser α}
    (behind : openBehind stack token = some middle)
    (goes : (next token.location).Tracks scope tokens middle after) :
    (take >>= next).Tracks scope (token :: tokens) stack after :=
  tracks_bind_of_ok rfl (.one behind) goes

/-- A plain token is skipped. -/
theorem tracks_skip_bind {next : Unit → Parser α} (plain : token.isPlain = true)
    (goes : (next ()).Tracks scope tokens stack after) :
    (skip 1 >>= next).Tracks scope (token :: tokens) stack after :=
  tracks_bind_of_ok rfl (.plain plain) goes

/-- Two plain tokens are skipped. -/
theorem tracks_skip_two_bind {second : Token} {next : Unit → Parser α}
    (plain : token.isPlain = true) (plainToo : second.isPlain = true)
    (goes : (next ()).Tracks scope tokens stack after) :
    (skip 2 >>= next).Tracks scope (token :: second :: tokens) stack after :=
  tracks_bind_of_ok rfl (Passes.trans (.plain plain) (.plain plainToo)) goes

/-- A mark that may be missing is passed when it stands there. -/
theorem tracks_eat_bind {mark : Punctuation} {next : Option Location → Parser α}
    (present : ∀ token rest, tokens = token :: rest → token.kind = .punctuation mark →
      ∃ middle, openBehind stack token = some middle ∧
        (next (some token.location)).Tracks scope rest middle after)
    (absent : startsWith mark tokens = false → (next none).Tracks scope tokens stack after) :
    (eat mark >>= next).Tracks scope tokens stack after := by
  cases ahead : startsWith mark tokens with
  | false => exact tracks_look_bind (eat_of_not_startsWith ahead) (absent ahead)
  | true =>
    obtain ⟨token, rest, rfl, kind⟩ := startsWith_iff.mp ahead
    obtain ⟨middle, behind, goes⟩ := present token rest rfl kind
    exact tracks_bind_of_ok (eat_of_startsWith ahead) (.one behind) goes

/-- A mark that belongs to no pair is taken if it is there. -/
theorem tracks_eat_plain_bind {mark : Punctuation} {next : Option Location → Parser α}
    (opens : mark.opens? = none) (closes : mark.closes? = none)
    (present : ∀ token rest, tokens = token :: rest →
      (next (some token.location)).Tracks scope rest stack after)
    (absent : (next none).Tracks scope tokens stack after) :
    (eat mark >>= next).Tracks scope tokens stack after := by
  refine tracks_eat_bind (fun token rest same kind => ⟨stack, ?_, present token rest same⟩)
    fun _ => absent
  exact openBehind_plain (Token.isPlain_of_mark kind opens closes)

/-- The closer of the innermost open bracket is taken if it is there, and closes it. -/
theorem tracks_eat_closer_bind {bracket : Bracket} {mark : Punctuation}
    {next : Option Location → Parser α} (opens : opener.kind = .punctuation bracket.opener)
    (closes : bracket.closer = mark)
    (present : ∀ closed rest, (next (some closed)).Tracks scope rest stack after)
    (absent : startsWith mark tokens = false →
      (next none).Tracks scope tokens (opener :: stack) after) :
    (eat mark >>= next).Tracks scope tokens (opener :: stack) after := by
  subst closes
  refine tracks_eat_bind (fun token rest _ kind => ⟨stack, ?_, present token.location rest⟩) absent
  exact openBehind_closer opens kind

/-- A name is taken, or its absence is a fault that is not about a bracket. -/
theorem tracks_expectIdentifier {context : Construct} :
    (expectIdentifier context).Tracks scope tokens stack stack := by
  refine tracks_peek_bind ?_
  cases tokens with
  | nil => exact tracks_failHere fun _ => rfl
  | cons token tokens =>
    refine tracks_ite (fun named => ?_) fun _ => tracks_failHere fun _ => rfl
    exact tracks_skip_bind (Token.isPlain_of_isIdentifier named) tracks_pure

/-- The closer that is due closes the innermost open bracket, or that bracket is blamed. -/
theorem tracks_expectClosing {bracket : Bracket} {context : Construct}
    (opens : opener.kind = .punctuation bracket.opener) :
    (expectClosing bracket context opener.location).Tracks scope tokens (opener :: stack) stack :=
  tracks_eat_closer_bind opens rfl (fun _ _ => tracks_pure) fun ahead =>
    tracks_peek_bind (tracks_fail_unclosed opens ahead)

/-- An optional semicolon is plain. -/
theorem tracks_eatSemicolonBefore {keywords : List Keyword} :
    (eatSemicolonBefore keywords).Tracks scope tokens stack stack := by
  refine tracks_sees_bind (tracks_ite (fun ahead => ?_) fun _ => tracks_pure)
  obtain ⟨token, rest, rfl, kind⟩ := startsWith_iff.mp ahead
  refine tracks_peekSecond_bind (tracks_ite (fun _ => ?_) fun _ => ?_)
  · exact tracks_skip_bind (Token.isPlain_of_mark kind rfl rfl) tracks_pure
  · exact tracks_left_bind tracks_record

/-- An item takes a token, so a list is not broken off before the tokens end. -/
theorem tracks_separated {bracket : Bracket} {context : Construct} {item : Parser α} {rounds : Nat}
    (opens : opener.kind = .punctuation bracket.opener)
    (each : ∀ rest, item.Tracks scope rest (opener :: stack) (opener :: stack))
    (takes : ∀ rest, item.Advances item 1 scope rest) (enough : tokens.length ≤ rounds) :
    (separated bracket context opener.location item rounds).Tracks scope tokens (opener :: stack)
      stack := by
  induction rounds generalizing tokens with
  | zero =>
    obtain rfl := List.eq_nil_of_length_eq_zero (Nat.le_zero.mp enough)
    exact tracks_fail_unclosed opens rfl
  | succ rounds ih =>
    refine tracks_peek_bind ?_
    cases tokens with
    | nil => exact tracks_fail_unclosed opens rfl
    | cons token tokens =>
      refine tracks_ite (fun _ => tracks_fail rfl) fun _ => ?_
      refine (each _).bind fun first rest read => ?_
      have fewer := (takes _).taken first read.1
      rw [read.2] at fewer
      refine tracks_eat_plain_bind rfl rfl ?_ (tracks_expectClosing opens).map
      rintro comma rest rfl
      refine tracks_sees_bind (tracks_ite (fun _ => tracks_fail rfl) fun _ => ?_)
      rw [List.length_cons, List.length_cons] at fewer
      rw [List.length_cons] at enough
      exact (ih (by omega)).bind fun _ _ _ => tracks_pure

/-- A list of items is read inside its bracket and closes it. -/
theorem tracks_delimited {bracket : Bracket} {context : Construct} {item : Parser α}
    (opens : opener.kind = .punctuation bracket.opener)
    (each : ∀ rest, item.Tracks scope rest (opener :: stack) (opener :: stack))
    (takes : ∀ rest, item.Advances item 1 scope rest) :
    (delimited bracket context opener.location item).Tracks scope tokens (opener :: stack) stack :=
  tracks_eat_closer_bind opens rfl (fun _ _ => tracks_pure) fun _ =>
    tracks_left_bind (tracks_separated opens each takes (Nat.le_refl _))

end Parser

namespace Grammar

open Oreo.Parser

/-- The grammar reads each part so that the brackets around it stay as they are, and takes at least
one token for it. A part that begins with a certain token is asked for where that token stands. -/
structure Tracks (parse : Grammar) : Prop where
  statement {scope : Scope} {tokens stack : List Token} :
    (parse .statement).Tracks scope tokens stack stack
  expression {scope : Scope} {tokens stack : List Token} :
    (parse .expression).Tracks scope tokens stack stack
  named {scope : Scope} {name : Token} {tokens stack : List Token} : name.isPlain = true →
    (parse .named).Tracks scope (name :: tokens) stack stack
  indexed {scope : Scope} {opener : Token} {tokens stack : List Token} {target : Node} :
    opener.kind = .punctuation Bracket.square.opener →
    (parse (.indexed target)).Tracks scope (opener :: tokens) stack stack
  conditional {scope : Scope} {keyword : Token} {tokens stack : List Token} :
    keyword.isPlain = true → (parse .conditional).Tracks scope (keyword :: tokens) stack stack
  /-- The rules advance. -/
  advances : ∀ bound, parse.Advances parse bound

namespace Tracks

variable {parse : Grammar} {scope : Scope} {token : Token} {tokens stack : List Token}
  (grammar : parse.Tracks)
include grammar

/-- A statement takes a token, so a block is not broken off before the tokens end. -/
theorem blockBody {opener : Token} {rounds : Nat}
    (opens : opener.kind = .punctuation Bracket.brace.opener) (enough : tokens.length ≤ rounds) :
    (parse.blockBody opener.location rounds).Tracks scope tokens (opener :: stack) stack := by
  induction rounds generalizing tokens with
  | zero =>
    obtain rfl := List.eq_nil_of_length_eq_zero (Nat.le_zero.mp enough)
    exact tracks_fail_unclosed opens rfl
  | succ rounds ih =>
    refine tracks_eat_closer_bind opens rfl (fun _ _ => tracks_pure) fun ahead => ?_
    refine tracks_atEnd_bind (tracks_ite (fun _ => tracks_fail_unclosed opens ahead) fun _ => ?_)
    refine grammar.statement.bind fun first rest read => ?_
    have fewer := ((grammar.advances _).statement (Nat.lt_succ_self _)).taken first read.1
    rw [read.2] at fewer
    have others (left : List Token) (shorter : left.length ≤ rest.length) :
        (parse.blockBody opener.location rounds).Tracks scope left (opener :: stack) stack :=
      ih (by omega)
    apply tracks_eat_plain_bind rfl rfl
    · rintro semicolon rest rfl
      exact (others rest (Nat.le_succ _)).bind fun _ _ _ => tracks_pure
    · exact (others rest (Nat.le_refl _)).bind fun _ _ _ => tracks_pure

/-- Statements in braces leave the brackets around them as they were. -/
theorem blockParts : parse.blockParts.Tracks scope tokens stack stack := by
  refine tracks_sees_bind (tracks_ite (fun ahead => ?_) fun _ => tracks_failHere fun _ => rfl)
  obtain ⟨opener, rest, rfl, kind⟩ := startsWith_iff.mp ahead
  have opens : opener.kind = .punctuation Bracket.brace.opener := kind
  refine tracks_nested fun _ => tracks_take_bind (openBehind_opener opens) (tracks_left_bind ?_)
  exact (grammar.blockBody opens (Nat.le_refl _)).bind fun _ _ _ => tracks_pure

/-- A block leaves the brackets around it as they were. -/
theorem block : parse.block.Tracks scope tokens stack stack :=
  grammar.blockParts.bind fun _ _ _ => tracks_pure

/-- A body leaves the brackets around it as they were. -/
theorem body : parse.body.Tracks scope tokens stack stack :=
  tracks_sees_bind (tracks_ite (fun _ => grammar.block) fun _ => grammar.statement)

/-- The members of an object leave the brackets as they were. -/
theorem members {object : Node} : (parse.members object).Tracks scope tokens stack stack := by
  refine tracks_peek_bind ?_
  cases ahead : tokens.head?.bind Token.separator? with
  | none => exact tracks_pure
  | some separator =>
    refine tracks_peekSecond_bind (tracks_ite (fun named => ?_) fun _ => tracks_pure)
    match tokens with
    | [] => cases ahead
    | [mark] => cases named
    | mark :: name :: tokens =>
      have property := Token.isPlain_of_isIdentifier named
      refine tracks_skip_bind (Token.isPlain_of_separator? ahead) ?_
      exact (tracks_nested fun _ => grammar.named property).bind fun _ _ _ => tracks_pure

/-- A list of values closes the bracket around it. -/
theorem values {opener : Token} {bracket : Bracket} {context : Construct}
    (opens : opener.kind = .punctuation bracket.opener) :
    (delimited bracket context opener.location (parse .expression)).Tracks scope tokens
      (opener :: stack) stack :=
  tracks_delimited opens (fun _ => grammar.expression) fun _ =>
    (grammar.advances _).expression (Nat.lt_succ_self _)

/-- The arguments of a call close their own parentheses. -/
theorem call {callee : Node} (opens : token.kind = .punctuation Bracket.paren.opener) :
    (parse.call callee).Tracks scope (token :: tokens) stack stack :=
  tracks_take_bind (openBehind_opener opens)
    ((tracks_nested fun _ => grammar.values opens).bind fun _ _ _ => grammar.members)

/-- An index closes its own brackets, and what follows the element leaves the others as they were.
-/
theorem indexedRule {target : Node} (opens : token.kind = .punctuation Bracket.square.opener) :
    (parse.indexed target).Tracks scope (token :: tokens) stack stack := by
  refine tracks_take_bind (openBehind_opener opens)
    ((tracks_nested fun _ => grammar.expression).bind fun index rest _ => ?_)
  refine (tracks_expectClosing opens).bind fun closed rest _ => ?_
  apply tracks_eat_plain_bind rfl rfl
  · intro _ _ _
    exact (tracks_nested fun _ => grammar.expression).bind fun _ _ _ => tracks_pure
  · refine tracks_sees_bind (tracks_ite (fun ahead => ?_) fun _ => ?_)
    · obtain ⟨opener, rest, rfl, kind⟩ := startsWith_iff.mp ahead
      exact grammar.call kind
    refine tracks_sees_bind (tracks_ite (fun ahead => ?_) fun _ => grammar.members)
    obtain ⟨opener, rest, rfl, kind⟩ := startsWith_iff.mp ahead
    exact tracks_nested fun _ => grammar.indexed kind

/-- A value that is assigned leaves the brackets as they were. -/
theorem assigned {target : Token} {operator : AssignmentOperator} :
    (parse.assigned target operator).Tracks scope tokens stack stack :=
  (tracks_nested fun _ => grammar.expression).bind fun _ _ _ => tracks_pure

/-- An assignment or an update by an operator leaves the brackets as they were. -/
theorem namedOperator {name : Token} {operator : Operator} (plain : token.isPlain = true) :
    (parse.namedOperator name operator).Tracks scope (token :: tokens) stack stack := by
  refine tracks_peekSecond_bind ?_
  cases tokens with
  | nil => exact tracks_pure
  | cons second tokens =>
    refine tracks_ite (fun equals => ?_) fun _ => tracks_ite (fun twice => ?_) fun _ => tracks_pure
    · have kind : second.kind = .punctuation .equals := by simpa using equals
      cases AssignmentOperator.compound? operator with
      | none => exact tracks_pure
      | some assignment =>
        exact tracks_skip_two_bind plain (Token.isPlain_of_mark kind rfl rfl) grammar.assigned
    · cases UpdateOperator.doubled? operator with
      | none => exact tracks_pure
      | some update =>
        exact tracks_skip_two_bind plain (Token.isPlain_of_operator? twice) tracks_pure

/-- A name and what it leads leaves the brackets as they were. -/
theorem namedRule {assignmentDue : Bool} (plain : token.isPlain = true) :
    (parse.named assignmentDue).Tracks scope (token :: tokens) stack stack := by
  refine tracks_peek_bind (tracks_skip_bind plain (tracks_peek_bind ?_))
  cases tokens with
  | nil => exact tracks_ite (fun _ => tracks_fail rfl) fun _ => tracks_pure
  | cons follower tokens =>
    obtain ⟨kind, location⟩ := follower
    cases kind with
    | operator operator => exact grammar.namedOperator rfl
    | punctuation mark =>
      cases mark with
      | equals => exact tracks_skip_bind rfl grammar.assigned
      | openParen => exact grammar.call rfl
      | dot | colon => exact grammar.members
      | openBracket => exact grammar.indexedRule rfl
      | _ => exact tracks_pure
    | _ => exact tracks_pure

/-- A value in parentheses closes them. -/
theorem parenthesized (opens : token.kind = .punctuation Bracket.paren.opener) :
    parse.parenthesized.Tracks scope (token :: tokens) stack stack := by
  refine tracks_take_bind (openBehind_opener opens)
    (tracks_atEnd_bind (tracks_ite (fun ended => ?_) fun _ => ?_))
  · obtain rfl := List.isEmpty_iff.mp ended
    exact tracks_fail_unclosed opens rfl
  refine tracks_eat_closer_bind opens rfl (fun _ _ => tracks_pure) fun _ => ?_
  refine grammar.expression.bind fun inner rest _ => ?_
  exact (tracks_expectClosing opens).bind fun _ _ _ => tracks_pure

/-- An array closes its own brackets. -/
theorem array (opens : token.kind = .punctuation Bracket.square.opener) :
    parse.array.Tracks scope (token :: tokens) stack stack :=
  tracks_take_bind (openBehind_opener opens) ((grammar.values opens).bind fun _ _ _ => tracks_pure)

/-- A computed key is closed before the value of its entry is read. -/
theorem entry : parse.entry.Tracks scope tokens stack stack := by
  apply tracks_eat_bind
  · intro opener rest _ kind
    have opens : opener.kind = .punctuation Bracket.square.opener := kind
    refine ⟨opener :: stack, openBehind_opener opens, ?_⟩
    refine (tracks_nested fun _ => grammar.expression).bind fun key rest _ => ?_
    refine (tracks_expectClosing opens).bind fun _ rest _ => ?_
    exact tracks_eat_plain_bind rfl rfl (fun _ _ _ => grammar.expression.map) tracks_pure
  · intro _
    have item : (Entry.item <$> parse .expression).Tracks scope tokens stack stack :=
      grammar.expression.map
    refine tracks_peek_bind ?_
    cases ahead : tokens.head?.filter Token.isIdentifier with
    | none => exact item
    | some name =>
      refine tracks_peekSecond_bind (tracks_ite (fun equals => ?_) fun _ => item)
      match tokens with
      | [] => cases ahead
      | [token] => cases equals
      | token :: second :: tokens =>
        obtain ⟨⟨⟩, named⟩ := Option.filter_eq_some_iff.mp ahead
        have kind : second.kind = .punctuation .equals := by simpa using equals
        exact tracks_skip_two_bind (Token.isPlain_of_isIdentifier named)
          (Token.isPlain_of_mark kind rfl rfl) grammar.expression.map

/-- An object literal closes its own braces. -/
theorem object (opens : token.kind = .punctuation Bracket.brace.opener) :
    parse.object.Tracks scope (token :: tokens) stack stack := by
  refine tracks_take_bind (openBehind_opener opens) (Tracks.bind ?_ fun _ _ _ => tracks_pure)
  exact tracks_delimited opens (fun _ => grammar.entry) fun _ =>
    (grammar.advances _).entry (Nat.lt_succ_self _)

/-- A negation leaves the brackets as they were. -/
theorem negation (plain : token.isPlain = true) :
    parse.negation.Tracks scope (token :: tokens) stack stack := by
  refine tracks_take_bind (openBehind_plain plain)
    (tracks_atEnd_bind (tracks_ite (fun _ => tracks_fail rfl) fun _ => ?_))
  exact grammar.expression.bind fun _ _ _ => tracks_pure

/-- A function without a name closes the parentheses of its parameters. -/
theorem lambda (plain : token.isPlain = true) :
    parse.lambda.Tracks scope (token :: tokens) stack stack := by
  refine tracks_take_bind (openBehind_plain plain)
    (tracks_eat_bind ?_ fun _ => tracks_failHere fun _ => rfl)
  intro opener rest _ kind
  have opens : opener.kind = .punctuation Bracket.paren.opener := kind
  refine ⟨opener :: stack, openBehind_opener opens, ?_⟩
  refine (tracks_delimited opens (fun _ => tracks_expectIdentifier)
    fun _ => advances_expectIdentifier).bind fun _ rest _ => ?_
  exact grammar.body.bind fun _ _ _ => tracks_pure

/-- An operand leaves the brackets as they were. -/
theorem primary : parse.primary.Tracks scope tokens stack stack := by
  refine tracks_peek_bind ?_
  cases tokens with
  | nil => exact tracks_failAtEnd
  | cons token tokens =>
    obtain ⟨kind, location⟩ := token
    cases kind with
    | punctuation mark =>
      cases mark with
      | openParen => exact tracks_nested fun _ => grammar.parenthesized rfl
      | openBracket => exact tracks_nested fun _ => grammar.array rfl
      | openBrace => exact tracks_nested fun _ => grammar.object rfl
      | bang => exact tracks_nested fun _ => grammar.negation rfl
      | _ => exact tracks_fail rfl
    | identifier name => exact grammar.namedRule rfl
    | keyword keyword =>
      cases keyword with
      | fn => exact tracks_nested fun _ => grammar.lambda rfl
      | _ => exact tracks_skip_bind rfl tracks_pure
    | otherMark character unknown => exact tracks_fail rfl
    | _ => exact tracks_skip_bind rfl tracks_pure

/-- Operators and their operands leave the brackets as they were. -/
theorem climb {rounds : Nat} {left : Node} {strength : Nat} :
    (parse.climb rounds left strength).Tracks scope tokens stack stack := by
  induction rounds generalizing tokens left strength with
  | zero => exact tracks_pure
  | succ rounds ih =>
    refine tracks_peek_bind ?_
    cases ahead : tokens.head?.bind Token.operator? with
    | none => exact tracks_pure
    | some operator =>
      refine tracks_ite (fun _ => tracks_pure) fun _ => ?_
      cases tokens with
      | nil => cases ahead
      | cons token tokens =>
        refine tracks_skip_bind (Token.isPlain_of_operator? ahead) ?_
        exact grammar.primary.bind fun operand rest _ => ih.bind fun right rest _ => ih

/-- An expression leaves the brackets as they were. -/
theorem expressionRule : parse.expression.Tracks scope tokens stack stack := by
  refine grammar.primary.bind fun operand rest _ => ?_
  refine tracks_peek_bind (tracks_ite (fun _ => ?_) fun _ => tracks_pure)
  refine tracks_peekSecond_bind (tracks_ite (fun _ => ?_) fun _ => tracks_pure)
  exact tracks_left_bind grammar.climb

/-- A declaration leaves the brackets as they were. -/
theorem declaration (plain : token.isPlain = true) :
    parse.declaration.Tracks scope (token :: tokens) stack stack := by
  refine tracks_take_bind (openBehind_plain plain)
    (tracks_expectIdentifier.bind fun name rest _ => ?_)
  refine tracks_eat_plain_bind rfl rfl (fun _ _ _ => ?_) tracks_pure
  exact grammar.expression.bind fun _ _ _ => tracks_pure

/-- What follows `else` leaves the brackets as they were. -/
theorem alternate : parse.alternate.Tracks scope tokens stack stack := by
  refine tracks_seesKeyword_bind (tracks_ite (fun ahead => ?_) fun _ => ?_)
  · obtain ⟨keyword, rest, rfl, kind⟩ := startsWithKeyword_iff.mp ahead
    exact tracks_skip_bind (Token.isPlain_of_keyword kind) grammar.block.map
  refine tracks_seesKeyword_bind (tracks_ite (fun ahead => ?_) fun _ => tracks_pure)
  obtain ⟨keyword, rest, rfl, kind⟩ := startsWithKeyword_iff.mp ahead
  exact (tracks_nested fun _ => grammar.conditional (Token.isPlain_of_keyword kind)).map

/-- An `if` leaves the brackets as they were. -/
theorem conditionalRule (plain : token.isPlain = true) :
    (Grammar.conditional parse).Tracks scope (token :: tokens) stack stack := by
  refine tracks_take_bind (openBehind_plain plain) (grammar.expression.bind fun test rest _ => ?_)
  refine grammar.body.bind fun consequent rest _ => ?_
  refine tracks_eatSemicolonBefore.bind fun _ rest _ => ?_
  exact grammar.alternate.bind fun _ _ _ => tracks_pure

/-- A `while` loop leaves the brackets as they were. -/
theorem whileLoop (plain : token.isPlain = true) :
    parse.whileLoop.Tracks scope (token :: tokens) stack stack := by
  refine tracks_take_bind (openBehind_plain plain) (grammar.expression.bind fun test rest _ => ?_)
  exact grammar.body.bind fun _ _ _ => tracks_pure

/-- A `do` loop leaves the brackets as they were. -/
theorem doWhileLoop (plain : token.isPlain = true) :
    parse.doWhileLoop.Tracks scope (token :: tokens) stack stack := by
  refine tracks_take_bind (openBehind_plain plain) (grammar.body.bind fun body rest _ => ?_)
  refine tracks_eatSemicolonBefore.bind fun _ rest _ => tracks_seesKeyword_bind ?_
  refine tracks_ite (fun ahead => ?_) fun _ => tracks_failHere fun _ => rfl
  obtain ⟨keyword, rest, rfl, kind⟩ := startsWithKeyword_iff.mp ahead
  exact tracks_skip_bind (Token.isPlain_of_keyword kind)
    (grammar.expression.bind fun _ _ _ => tracks_pure)

/-- The step of a `for` loop leaves the brackets as they were. -/
theorem forUpdate {initial : Node} :
    (parse.forUpdate initial).Tracks scope tokens stack stack := by
  refine tracks_eat_plain_bind rfl rfl (fun _ _ _ => grammar.statement) ?_
  cases initial with
  | declaration name value location =>
    refine tracks_atEnd_bind (tracks_ite (fun _ => ?_) fun _ => tracks_pure)
    exact tracks_failHere fun _ => rfl
  | _ => exact tracks_failHere fun _ => rfl

/-- A `for` loop leaves the brackets as they were. -/
theorem forLoop (plain : token.isPlain = true) :
    parse.forLoop.Tracks scope (token :: tokens) stack stack := by
  refine tracks_take_bind (openBehind_plain plain) (grammar.statement.bind fun initial rest _ => ?_)
  refine tracks_eat_plain_bind rfl rfl (fun _ _ _ => ?_) (tracks_failHere fun _ => rfl)
  refine grammar.expression.bind fun test rest _ => grammar.forUpdate.bind fun update rest _ => ?_
  exact grammar.body.bind fun _ _ _ => tracks_pure

omit grammar in
/-- Looking through the entries of a switch for cases takes no tokens. -/
theorem clausesOf {shown : String} {entries : List Node} :
    (Grammar.clausesOf shown entries).Tracks scope tokens stack stack := by
  induction entries with
  | nil => exact tracks_pure
  | cons entry entries ih =>
    unfold Grammar.clausesOf
    cases entry.clause? with
    | none => exact tracks_fail rfl
    | some branch => exact ih.map

/-- A switch leaves the brackets around it as they were. -/
theorem switch (plain : token.isPlain = true) :
    parse.switch.Tracks scope (token :: tokens) stack stack := by
  refine tracks_take_bind (openBehind_plain plain)
    (grammar.expression.bind fun subject rest _ => ?_)
  refine grammar.blockParts.bind fun _ rest _ => ?_
  exact clausesOf.bind fun _ _ _ => tracks_pure

/-- Further values of a case leave the brackets as they were. -/
theorem alternatives {rounds : Nat} :
    (parse.alternatives rounds).Tracks scope tokens stack stack := by
  induction rounds generalizing tokens with
  | zero => exact tracks_pure
  | succ rounds ih =>
    refine tracks_eat_plain_bind rfl rfl (fun _ _ _ => ?_) tracks_pure
    exact grammar.expression.bind fun _ _ _ => ih.bind fun _ _ _ => tracks_pure

/-- The keyword and the values of a case leave the brackets as they were. -/
theorem clauseHead (plain : token.isPlain = true) :
    parse.clauseHead.Tracks scope (token :: tokens) stack stack := by
  refine tracks_seesKeyword_bind (tracks_ite (fun _ => ?_) fun _ => ?_)
  · exact tracks_skip_bind plain tracks_pure
  refine tracks_skip_bind plain (grammar.expression.bind fun first rest _ => ?_)
  exact tracks_left_bind (grammar.alternatives.bind fun _ _ _ => tracks_pure)

/-- The body of a case leaves the brackets around it as they were. -/
theorem clauseBody : parse.clauseBody.Tracks scope tokens stack stack := by
  refine tracks_sees_bind (tracks_ite (fun _ => grammar.block) fun _ => ?_)
  exact tracks_eat_plain_bind rfl rfl (fun _ _ _ => grammar.statement)
    (tracks_failHere fun _ => rfl)

/-- A case leaves the brackets around it as they were. -/
theorem clause (plain : token.isPlain = true) :
    parse.clause.Tracks scope (token :: tokens) stack stack := by
  refine tracks_look_bind rfl ((grammar.clauseHead plain).bind fun _ rest _ => ?_)
  exact grammar.clauseBody.bind fun _ _ _ => tracks_pure

omit grammar in
/-- Looking through the arguments of a signature for names takes no tokens. -/
theorem parametersOf {arguments : List Node} :
    (Grammar.parametersOf arguments).Tracks scope tokens stack stack := by
  induction arguments with
  | nil => exact tracks_pure
  | cons argument arguments ih =>
    unfold Grammar.parametersOf
    cases argument.identifier? with
    | none => exact tracks_fail rfl
    | some name => exact ih.map

/-- A function with a name leaves the brackets around it as they were. -/
theorem namedFunction (plain : token.isPlain = true) :
    parse.namedFunction.Tracks scope (token :: tokens) stack stack := by
  refine tracks_take_bind (openBehind_plain plain) (tracks_peek_bind ?_)
  refine tracks_ite (fun named => ?_) fun _ => tracks_failHere fun _ => rfl
  cases tokens with
  | nil => cases named
  | cons name tokens =>
    have title := Token.isPlain_of_isIdentifier named
    refine (grammar.namedRule title).bind fun title rest _ => ?_
    cases title.signature? with
    | none => exact tracks_failHere fun _ => rfl
    | some signature =>
      refine parametersOf.bind fun _ rest _ => ?_
      exact grammar.body.bind fun _ _ _ => tracks_pure

/-- The end of a function leaves the brackets as they were. -/
theorem returns (plain : token.isPlain = true) :
    parse.returns.Tracks scope (token :: tokens) stack stack := by
  refine tracks_take_bind (openBehind_plain plain) (tracks_peek_bind ?_)
  cases tokens with
  | nil => exact tracks_pure
  | cons next tokens =>
    refine tracks_ite (fun _ => tracks_pure) fun _ => ?_
    exact grammar.expression.bind fun _ _ _ => tracks_pure

/-- The statement of a keyword leaves the brackets as they were. -/
theorem keywordStatement {keyword : Located Keyword} (plain : token.isPlain = true) :
    (parse.keywordStatement keyword).Tracks scope (token :: tokens) stack stack := by
  obtain ⟨keyword, location⟩ := keyword
  cases keyword with
  | «let» | var => exact grammar.declaration plain
  | «if» => exact grammar.conditionalRule plain
  | «while» => exact grammar.whileLoop plain
  | «do» => exact grammar.doWhileLoop plain
  | «for» => exact grammar.forLoop plain
  | switch => exact grammar.switch plain
  | case | default => exact grammar.clause plain
  | fn =>
    refine tracks_peekSecond_bind (tracks_ite (fun _ => ?_) fun _ => ?_)
    · exact grammar.lambda plain
    · exact grammar.namedFunction plain
  | «return» => exact grammar.returns plain
  | «else» | elseif => exact tracks_fail rfl

/-- A statement leaves the brackets around it as they were. -/
theorem statementRule : parse.statement.Tracks scope tokens stack stack := by
  refine tracks_nested fun _ => tracks_peek_bind ?_
  cases tokens with
  | nil => exact tracks_failAtEnd
  | cons token tokens =>
    refine tracks_look_bind rfl ?_
    obtain ⟨kind, location⟩ := token
    cases kind with
    | keyword keyword => exact grammar.keywordStatement rfl
    | identifier name => exact grammar.namedRule rfl
    | lineComment text | blockComment text => exact tracks_skip_bind rfl tracks_pure
    | _ => exact tracks_fail rfl

/-- If the grammar below tracks brackets, so does the one that is built from it. -/
theorem step : parse.step.Tracks where
  statement := grammar.statementRule
  expression := grammar.expressionRule
  named := grammar.namedRule
  indexed := grammar.indexedRule
  conditional := grammar.conditionalRule
  advances bound := by
    cases bound with
    | zero => constructor <;> intros <;> contradiction
    | succ bound => exact (grammar.advances bound).step

/-- Statements up to the end of the source leave the brackets as they were. -/
theorem statements {rounds : Nat} : (parse.statements rounds).Tracks scope tokens stack stack := by
  induction rounds generalizing tokens with
  | zero => exact tracks_pure
  | succ rounds ih =>
    refine tracks_atEnd_bind (tracks_ite (fun _ => tracks_pure) fun _ => ?_)
    refine grammar.statementRule.bind fun first rest _ => ?_
    exact tracks_eat_plain_bind rfl rfl (fun _ _ _ => ih.bind fun _ _ _ => tracks_pure)
      (ih.bind fun _ _ _ => tracks_pure)

/-- A program leaves the brackets as they were. -/
theorem program : parse.program.Tracks scope tokens stack stack := by
  refine tracks_left_bind (grammar.statements.bind fun statements rest _ => ?_)
  cases statements.findSome? Node.clause? with
  | none => exact tracks_pure
  | some branch => exact tracks_fail rfl

end Tracks

/-- With any number of calls left the grammar tracks brackets. -/
theorem tracks_below (bound : Nat) : (below bound).Tracks := by
  induction bound with
  | zero =>
    refine ⟨tracks_failAtEnd, tracks_failAtEnd, fun _ => tracks_failAtEnd,
      fun _ => tracks_failAtEnd, fun _ => tracks_failAtEnd, fun bound => ?_⟩
    constructor <;> intros <;> exact advances_failAtEnd
  | succ bound ih => exact ih.step

/-- The grammar of the language is the one for the number of tokens in front of it. -/
theorem tracks_full : full.Tracks where
  statement := ⟨(tracks_below _).statement.passes, (tracks_below _).statement.blames⟩
  expression := ⟨(tracks_below _).expression.passes, (tracks_below _).expression.blames⟩
  named plain := ⟨((tracks_below _).named plain).passes, ((tracks_below _).named plain).blames⟩
  indexed opens :=
    ⟨((tracks_below _).indexed opens).passes, ((tracks_below _).indexed opens).blames⟩
  conditional plain :=
    ⟨((tracks_below _).conditional plain).passes, ((tracks_below _).conditional plain).blames⟩
  advances _ := advances_full_self

end Grammar

/-- Brackets are balanced, and an error about a bracket names the right one. The brackets of a
program are properly nested. Where the tokens are refused since a bracket is not closed, the
innermost bracket that is open before the token at which reading stops is the one that the error is
about: it opens the pair that the error names, at the place of the error, and the token at which
reading stops does not close it. -/
theorem brackets_of_parseTokens (options : Options) (tokens : List Token) :
    (∀ program, (parseTokens options tokens).outcome = .ok program → Balanced tokens) ∧
    (∀ bracket context found location, (parseTokens options tokens).outcome =
        .error ⟨.unclosedBracket bracket context found, location⟩ →
      (∃ outer, openBrackets [] (tokens.take ((parseTokens options tokens).cursor tokens)) =
          some (⟨.punctuation bracket.opener, location⟩ :: outer)) ∧
        ∀ next, tokens[(parseTokens options tokens).cursor tokens]? = some next →
          next.kind ≠ .punctuation bracket.closer) := by
  have tracks : Parser.program.Tracks (Scope.ofTokens options tokens) tokens [] [] :=
    Grammar.tracks_full.program
  constructor
  · intro program found
    obtain ⟨front, whole, behind⟩ := tracks.passes program found
    have ended := (reads_of_yields_program ⟨found, rfl⟩).2.1
    rw [ended, List.append_nil] at whole
    rwa [whole, ← balanced_iff] at behind
  · intro bracket context found location refused
    obtain ⟨⟨kind, place⟩, outer, ⟨front, whole, behind⟩, opens, same, ahead⟩ :=
      tracks.blames _ bracket refused rfl
    cases opens
    cases same
    change front ++ (parseTokens options tokens).rest = tokens at whole
    change startsWith bracket.closer (parseTokens options tokens).rest = false at ahead
    have stop : (parseTokens options tokens).cursor tokens = front.length :=
      Reply.cursor_of_append whole
    refine ⟨⟨outer, ?_⟩, fun next stands closes => ?_⟩
    · rwa [stop, ← whole, List.take_left]
    · rw [stop, ← whole, List.getElem?_append_right (Nat.le_refl _), Nat.sub_self,
        ← List.head?_eq_getElem?] at stands
      simp [startsWith, stands, closes] at ahead

/-- In `f([a}` the bracket before the brace is not closed, and the parenthesis around it is not
blamed. With the brackets closed in order there is a program. -/
theorem brackets_of_parseTokens_call :
    let begins : List Token := [⟨.identifier "f", ⟨0, 1, 1, 1⟩⟩,
      ⟨.punctuation .openParen, ⟨1, 2, 1, 2⟩⟩, ⟨.punctuation .openBracket, ⟨2, 3, 1, 3⟩⟩,
      ⟨.identifier "a", ⟨3, 4, 1, 4⟩⟩]
    let refused : List Token := begins ++ [⟨.punctuation .closeBrace, ⟨4, 5, 1, 5⟩⟩]
    let accepted : List Token := begins ++ [⟨.punctuation .closeBracket, ⟨4, 5, 1, 5⟩⟩,
      ⟨.punctuation .closeParen, ⟨5, 6, 1, 6⟩⟩]
    (parseTokens {} refused).outcome =
        .error ⟨.unclosedBracket .square .array (some "\x7d"), ⟨2, 3, 1, 3⟩⟩ ∧
      (∃ outer, openBrackets [] begins =
        some (⟨.punctuation .openBracket, ⟨2, 3, 1, 3⟩⟩ :: outer)) ∧
      (parseTokens {} accepted).outcome = .ok [.call (.leaf ⟨.identifier "f", ⟨0, 1, 1, 1⟩⟩)
        [.array [.leaf ⟨.identifier "a", ⟨3, 4, 1, 4⟩⟩] ⟨2, 5, 1, 3⟩] ⟨0, 6, 1, 1⟩] ∧
      Balanced accepted := by
  intro begins refused accepted
  have error : (parseTokens {} refused).outcome =
      .error ⟨.unclosedBracket .square .array (some "\x7d"), ⟨2, 3, 1, 3⟩⟩ := rfl
  have stop : (parseTokens {} refused).cursor refused = 4 := rfl
  have program : (parseTokens {} accepted).outcome =
      .ok [.call (.leaf ⟨.identifier "f", ⟨0, 1, 1, 1⟩⟩)
        [.array [.leaf ⟨.identifier "a", ⟨3, 4, 1, 4⟩⟩] ⟨2, 5, 1, 3⟩] ⟨0, 6, 1, 1⟩] := by
    simp only [accepted, begins, List.cons_append, List.nil_append]
    rfl
  have blamed := ((brackets_of_parseTokens {} refused).2 _ _ _ _ error).1
  rw [stop] at blamed
  exact ⟨error, blamed, program, (brackets_of_parseTokens {} accepted).1 _ program⟩

end Oreo
