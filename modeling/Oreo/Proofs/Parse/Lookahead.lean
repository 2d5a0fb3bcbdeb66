import Oreo.Proofs.Parse.Limit
import Oreo.Proofs.Parse.Termination

/-!
# Two tokens of lookahead are enough

What a parser answers depends on the tokens that it takes and on the two that come next. Whatever
stands behind these may be replaced: the parser stops at the same place with the same outcome, also
if it fails. The end of the source counts as something that comes next, and so does its place.

A parser is `Nearsighted` if this holds of it wherever it is run. Two nearsighted parsers in order
are nearsighted, for what the first leaves begins with what the second takes. So the walk through
the grammar needs to know nothing of the tokens; only the loops are given the number of tokens that
are left, which nobody who sees two tokens can know, and it takes the fact that they end by
themselves to see that they do not use it.
-/

namespace Oreo

/-- A list that begins as a shorter one does, and goes on no further, is that list. -/
theorem eq_of_take_eq {tokens other : List Token} {count : Nat}
    (same : other.take count = tokens.take count) (short : tokens.length < count) :
    other = tokens := by
  rw [List.take_of_length_le (Nat.le_of_lt short)] at same
  have lengths := congrArg List.length same
  rw [List.length_take] at lengths
  rwa [List.take_of_length_le (by omega)] at same

/-- Two sources look alike behind the tokens that were taken from both: the same two tokens come
next, and where fewer than two come, both sources end there in the same way. As many levels may be
opened in the one as in the other. -/
structure LooksAlike (scope other : Scope) (rest left : List Token) : Prop where
  /-- The limits are the same. -/
  limit_eq : other.limit = scope.limit
  /-- The same levels are left. -/
  room_eq : other.room = scope.room
  /-- The same two tokens are ahead. -/
  ahead : left.take 2 = rest.take 2
  /-- The last token is the same where it can be seen. -/
  last_eq : rest.length < 2 → other.last = scope.last

namespace LooksAlike

variable {scope other : Scope} {rest left : List Token}

/-- The same token comes next. -/
theorem head?_eq (alike : LooksAlike scope other rest left) : left.head? = rest.head? := by
  have same := congrArg List.head? alike.ahead
  simpa [List.head?_take] using same

/-- The same token comes behind the next. -/
theorem second_eq (alike : LooksAlike scope other rest left) :
    left.tail.head? = rest.tail.head? := by
  have same := congrArg (fun tokens : List Token => tokens[1]?) alike.ahead
  rw [← List.drop_one, ← List.drop_one, List.head?_drop, List.head?_drop]
  simpa [List.getElem?_take] using same

/-- Where fewer than two tokens come, nothing can be replaced. -/
theorem eq_of_short (alike : LooksAlike scope other rest left) (short : rest.length < 2) :
    left = rest :=
  eq_of_take_eq alike.ahead short

/-- Sources that look alike do so from any earlier place. -/
theorem before (alike : LooksAlike scope other rest left) (front : List Token) :
    LooksAlike scope other (front ++ rest) (front ++ left) where
  limit_eq := alike.limit_eq
  room_eq := alike.room_eq
  ahead := by
    have fewer (tokens : List Token) :
        (tokens.take 2).take (2 - front.length) = tokens.take (2 - front.length) := by
      rw [List.take_take, Nat.min_eq_left (Nat.sub_le _ _)]
    rw [List.take_append, List.take_append, ← fewer left, alike.ahead, fewer]
  last_eq short := alike.last_eq (by rw [List.length_append] at short; omega)

/-- Where both sources end, they end in the same place. -/
theorem finish_eq (alike : LooksAlike scope other [] left) : other.finish = scope.finish :=
  Parser.finish_congr (alike.last_eq Nat.two_pos)

end LooksAlike

namespace Parser

/-- The parser sees two tokens ahead at most: wherever it stops, what it leaves may be replaced by
what looks alike, and it stops there with the same outcome. -/
structure Nearsighted {α : Type} (parser : Parser α) : Prop where
  /-- A back part of the tokens is left. -/
  suffix : ∀ scope tokens, (parser scope tokens).rest <:+ tokens
  /-- What is left may be replaced. -/
  same : ∀ {scope other : Scope} {front tokens left : List Token},
    front ++ (parser scope tokens).rest = tokens →
    LooksAlike scope other (parser scope tokens).rest left →
    (parser other (front ++ left)).outcome = (parser scope tokens).outcome ∧
      (parser other (front ++ left)).rest = left

variable {α β : Type}

/-- A parser that takes nothing is nearsighted if its outcome is the same for tokens that look
alike. -/
theorem nearsighted_of_still {parser : Parser α} (still : ∀ scope tokens,
      (parser scope tokens).rest = tokens)
    (outcome : ∀ scope other tokens left, LooksAlike scope other tokens left →
      (parser other left).outcome = (parser scope tokens).outcome) :
    parser.Nearsighted where
  suffix scope tokens := ⟨[], still scope tokens⟩
  same := by
    intro scope other front tokens left whole alike
    rw [still] at whole alike
    obtain rfl : front = [] := List.append_left_eq_self.mp whole
    exact ⟨outcome scope other tokens left alike, still other left⟩

/-- A value that is given does not depend on what comes next. -/
theorem nearsighted_pure {value : α} : (pure value : Parser α).Nearsighted :=
  nearsighted_of_still (fun _ _ => rfl) fun _ _ _ _ _ => rfl

/-- A fault that is given does not depend on what comes next. -/
theorem nearsighted_fail {fault : ParseFault} {location : Location} :
    (fail fault location : Parser α).Nearsighted :=
  nearsighted_of_still (fun _ _ => rfl) fun _ _ _ _ _ => rfl

/-- A record does not depend on what comes next. -/
theorem nearsighted_record {event : Event} : (record event).Nearsighted :=
  nearsighted_of_still (fun _ _ => rfl) fun _ _ _ _ _ => rfl

/-- The current token is the first of the two. -/
theorem nearsighted_peek : peek.Nearsighted :=
  nearsighted_of_still (fun _ _ => rfl) fun _ _ _ _ alike => congrArg Except.ok alike.head?_eq

/-- The token behind the current one is the second of the two. -/
theorem nearsighted_peekSecond : peekSecond.Nearsighted :=
  nearsighted_of_still (fun _ _ => rfl) fun _ _ _ _ alike => congrArg Except.ok alike.second_eq

/-- The place of the end is seen where no token is left. -/
theorem nearsighted_here : here.Nearsighted := by
  refine nearsighted_of_still (fun _ _ => rfl) fun scope other tokens left alike => ?_
  cases tokens with
  | nil =>
    obtain rfl := alike.eq_of_short Nat.two_pos
    exact congrArg Except.ok alike.finish_eq
  | cons token tokens =>
    have same : left.head? = some token := alike.head?_eq
    simp only [here, same, List.head?_cons, Option.elim_some]

/-- A token that is skipped is taken, or the source ends in both cases. -/
theorem nearsighted_skip {count : Nat} : (skip count).Nearsighted where
  suffix scope tokens := List.drop_suffix count tokens
  same := by
    intro scope other front tokens left whole alike
    refine ⟨rfl, ?_⟩
    change front ++ tokens.drop count = tokens at whole
    change (front ++ left).drop count = left
    have lengths := congrArg List.length whole
    rw [List.length_append, List.length_drop] at lengths
    by_cases inside : count ≤ tokens.length
    · exact List.drop_left' (by omega)
    · have ended : tokens.drop count = [] := List.drop_eq_nil_of_le (by omega)
      obtain rfl : left = tokens.drop count := alike.eq_of_short (by
        change (tokens.drop count).length < 2
        rw [ended]
        exact Nat.two_pos)
      rw [whole]

/-- Two parsers in order are nearsighted if each is. -/
theorem Nearsighted.bind {first : Parser α} {next : α → Parser β} (begins : first.Nearsighted)
    (goes : ∀ value, (next value).Nearsighted) : (first >>= next).Nearsighted := by
  constructor
  · intro scope tokens
    have suffix := begins.suffix scope tokens
    rcases answer : first scope tokens with ⟨error | value, middle, events⟩
    · rw [bind_of_error answer]
      rwa [answer] at suffix
    · rw [bind_of_ok answer]
      rw [answer] at suffix
      exact ((goes value).suffix scope middle).trans suffix
  · intro scope other front tokens left whole alike
    obtain ⟨passed, taken⟩ := begins.suffix scope tokens
    rcases answer : first scope tokens with ⟨error | value, middle, events⟩
    · rw [bind_of_error answer] at whole alike ⊢
      have again : (first other (front ++ left)).outcome = (first scope tokens).outcome ∧
          (first other (front ++ left)).rest = left :=
        begins.same (by rw [answer]; exact whole) (by rw [answer]; exact alike)
      rw [answer] at again
      rcases second : first other (front ++ left) with ⟨outcome, rest, events⟩
      rw [second] at again
      obtain ⟨rfl, rfl⟩ := again
      rw [bind_of_error second]
      exact ⟨rfl, rfl⟩
    · rw [bind_of_ok answer] at whole alike ⊢
      rw [answer] at taken
      change front ++ (next value scope middle).rest = tokens at whole
      change LooksAlike scope other (next value scope middle).rest left at alike
      obtain ⟨between, same⟩ := (goes value).suffix scope middle
      obtain rfl : front = passed ++ between := by
        have parts : passed ++ between ++ (next value scope middle).rest = tokens := by
          rw [List.append_assoc, same, taken]
        exact List.append_cancel_right (whole.trans parts.symm)
      have alikeBefore := alike.before between
      rw [same] at alikeBefore
      have again : (first other (passed ++ (between ++ left))).outcome =
            (first scope tokens).outcome ∧
          (first other (passed ++ (between ++ left))).rest = between ++ left :=
        begins.same (by rw [answer]; exact taken) (by rw [answer]; exact alikeBefore)
      rw [answer, ← List.append_assoc] at again
      rcases second : first other (passed ++ between ++ left) with ⟨outcome, rest, events⟩
      rw [second] at again
      obtain ⟨rfl, rfl⟩ := again
      rw [bind_of_ok second]
      exact (goes value).same same alike

/-- What is built from a value sees no further than the value. -/
theorem Nearsighted.map {build : α → β} {parser : Parser α} (nearsighted : parser.Nearsighted) :
    (build <$> parser).Nearsighted :=
  nearsighted.bind fun _ => nearsighted_pure

/-- Of two nearsighted parsers the one that is run is nearsighted. -/
theorem nearsighted_ite {condition : Prop} [Decidable condition] {first second : Parser α}
    (yes : first.Nearsighted) (no : second.Nearsighted) :
    (if condition then first else second).Nearsighted := by
  split
  · exact yes
  · exact no

/-- Both runs have the same room, so a level is refused in both or in none. -/
theorem nearsighted_nested {parser : Parser α} (nearsighted : parser.Nearsighted) :
    (nested parser).Nearsighted := by
  have refused (limit : Nat) :
      (here >>= fail (.nestingTooDeep limit) : Parser α).Nearsighted :=
    nearsighted_here.bind fun _ => nearsighted_fail
  constructor
  · rintro ⟨limit, room, last⟩ tokens
    cases room with
    | zero => exact (refused limit).suffix ⟨limit, 0, last⟩ tokens
    | succ room => exact nearsighted.suffix ⟨limit, room, last⟩ tokens
  · rintro ⟨limit, room, last⟩ ⟨otherLimit, otherRoom, otherLast⟩ front tokens left whole alike
    obtain rfl : otherLimit = limit := alike.limit_eq
    obtain rfl : otherRoom = room := alike.room_eq
    cases otherRoom with
    | zero => exact (refused otherLimit).same whole alike
    | succ room =>
      exact nearsighted.same whole
        ({ alike with room_eq := rfl } : LooksAlike ⟨otherLimit, room, last⟩
          ⟨otherLimit, room, otherLast⟩ _ left)

/-- A token is taken or the place of the end is, both of which come next. -/
theorem nearsighted_take : take.Nearsighted :=
  nearsighted_here.bind fun _ => nearsighted_skip.bind fun _ => nearsighted_pure

/-- The end is seen in the next token. -/
theorem nearsighted_atEnd : atEnd.Nearsighted :=
  nearsighted_peek.bind fun _ => nearsighted_pure

/-- A mark is seen in the next token. -/
theorem nearsighted_sees {mark : Punctuation} : (sees mark).Nearsighted :=
  nearsighted_peek.bind fun _ => nearsighted_pure

/-- A keyword is seen in the next token. -/
theorem nearsighted_seesKeyword {keyword : Keyword} : (seesKeyword keyword).Nearsighted :=
  nearsighted_peek.bind fun _ => nearsighted_pure

/-- A mark is taken only if it comes next. -/
theorem nearsighted_eat {mark : Punctuation} : (eat mark).Nearsighted :=
  nearsighted_sees.bind fun _ => nearsighted_ite nearsighted_take.map nearsighted_pure

/-- A fault at the current token shows the next token. -/
theorem nearsighted_failHere {fault : Option String → ParseFault} :
    (failHere fault : Parser α).Nearsighted :=
  nearsighted_peek.bind fun _ => nearsighted_here.bind fun _ => nearsighted_fail

/-- An open bracket is blamed by the next token alone. -/
theorem nearsighted_failUnclosed {bracket : Bracket} {context : Construct} {opened : Location} :
    (failUnclosed bracket context opened : Parser α).Nearsighted :=
  nearsighted_peek.bind fun _ => nearsighted_fail

/-- The last token of the source is looked at where no other is left. -/
theorem nearsighted_peek_or_end {context : Construct} {next : Option Token → Parser α}
    (missing : next none = failAtEnd context)
    (present : ∀ token, (next (some token)).Nearsighted) : (peek >>= next).Nearsighted := by
  have ended (scope : Scope) : (peek >>= next) scope [] = failAtEnd context scope [] := by
    rw [← missing]
    rfl
  have failed (scope : Scope) : (failAtEnd context scope [] : Reply α).rest = [] := by
    unfold failAtEnd
    split <;> rfl
  constructor
  · intro scope tokens
    cases tokens with
    | nil =>
      have nothing : ((peek >>= next) scope []).rest = [] := by rw [ended, failed]
      exact ⟨[], nothing⟩
    | cons token tokens => exact (present token).suffix scope (token :: tokens)
  · intro scope other front tokens left whole alike
    cases tokens with
    | nil =>
      rw [ended] at whole alike ⊢
      rw [failed] at whole alike
      obtain rfl : front = [] := (List.append_eq_nil_iff.mp whole).1
      obtain rfl := alike.eq_of_short Nat.two_pos
      have last := alike.last_eq Nat.two_pos
      rw [List.append_nil, ended]
      refine ⟨?_, failed other⟩
      simp only [failAtEnd, last, alike.finish_eq]
      cases scope.last <;> rfl
    | cons token tokens =>
      have ahead : (front ++ left).head? = some token := by
        have same := (alike.before front).head?_eq
        rwa [whole] at same
      have seen : (peek >>= next) other (front ++ left) =
          next (some token) other (front ++ left) := by
        rw [← ahead]
        rfl
      rw [seen]
      exact (present token).same whole alike

/-- A name that is due comes next or is missing. -/
theorem nearsighted_expectIdentifier {context : Construct} :
    (expectIdentifier context).Nearsighted := by
  refine nearsighted_peek.bind fun token => ?_
  cases token with
  | none => exact nearsighted_failHere
  | some token =>
    exact nearsighted_ite (nearsighted_skip.bind fun _ => nearsighted_pure) nearsighted_failHere

/-- A closer that is due comes next or is missing. -/
theorem nearsighted_expectClosing {bracket : Bracket} {context : Construct} {opened : Location} :
    (expectClosing bracket context opened).Nearsighted := by
  refine nearsighted_eat.bind fun closed => ?_
  cases closed with
  | none => exact nearsighted_failUnclosed
  | some closed => exact nearsighted_pure

/-- How many tokens stand behind a semicolon that is put back is recorded, and not answered. -/
theorem nearsighted_eatSemicolonBefore {keywords : List Keyword} :
    (eatSemicolonBefore keywords).Nearsighted := by
  refine nearsighted_sees.bind fun _ => nearsighted_ite ?_ nearsighted_pure
  refine nearsighted_peekSecond.bind fun _ => nearsighted_ite nearsighted_skip ?_
  exact nearsighted_of_still (fun _ _ => rfl) fun _ _ _ _ _ => rfl

/-- A parser is nearsighted if, for any number of tokens, it answers as some nearsighted parser
does on no more tokens than that. -/
theorem nearsighted_of_eq {parser : Parser α} (nearby : Nat → Parser α)
    (nearsighted : ∀ bound, (nearby bound).Nearsighted)
    (same : ∀ bound scope tokens, tokens.length ≤ bound →
      nearby bound scope tokens = parser scope tokens) : parser.Nearsighted := by
  constructor
  · intro scope tokens
    rw [← same tokens.length scope tokens (Nat.le_refl _)]
    exact (nearsighted _).suffix scope tokens
  · intro scope other front tokens left whole alike
    have first := same (max tokens.length (front ++ left).length) scope tokens
      (Nat.le_max_left ..)
    have second := same (max tokens.length (front ++ left).length) other (front ++ left)
      (Nat.le_max_right ..)
    rw [← first] at whole alike ⊢
    rw [← second]
    exact (nearsighted _).same whole alike

/-- A loop that ends by itself does not use the number of tokens that it is told. -/
theorem nearsighted_left_bind {loop : Nat → Parser α}
    (nearsighted : ∀ rounds, (loop rounds).Nearsighted)
    (ends : ∀ scope tokens, Grammar.EndsAlone loop scope tokens) :
    (left >>= loop).Nearsighted :=
  nearsighted_of_eq loop nearsighted fun rounds scope tokens enough =>
    ends scope tokens rounds enough

/-- Items between commas see no further than an item does. -/
theorem nearsighted_separated {bracket : Bracket} {context : Construct} {opened : Location}
    {item : Parser α} (each : item.Nearsighted) (rounds : Nat) :
    (separated bracket context opened item rounds).Nearsighted := by
  induction rounds with
  | zero => exact nearsighted_fail
  | succ rounds ih =>
    refine nearsighted_peek.bind fun token => ?_
    cases token with
    | none => exact nearsighted_fail
    | some token =>
      refine nearsighted_ite nearsighted_fail
        (each.bind fun first => nearsighted_eat.bind fun comma => ?_)
      cases comma with
      | none => exact nearsighted_expectClosing.bind fun _ => nearsighted_pure
      | some comma =>
        refine nearsighted_sees.bind fun _ => nearsighted_ite nearsighted_fail ?_
        exact ih.bind fun others => nearsighted_pure

/-- Items in brackets see no further than an item does, if each takes a token. -/
theorem nearsighted_delimited {bracket : Bracket} {context : Construct} {opened : Location}
    {item : Parser α} (each : item.Nearsighted)
    (takes : ∀ scope tokens, item.Advances item 1 scope tokens) :
    (delimited bracket context opened item).Nearsighted := by
  refine nearsighted_eat.bind fun closed => ?_
  cases closed with
  | some closed => exact nearsighted_pure
  | none =>
    refine nearsighted_left_bind (nearsighted_separated each) fun scope tokens rounds enough => ?_
    exact (advances_separated (fun rest _ => takes scope rest) enough (Nat.le_refl _)).same

end Parser

namespace Grammar

open Oreo.Parser

/-- The grammar reads each part without looking further ahead than two tokens, and takes at least
one token for it. -/
structure Nearsighted (parse : Grammar) : Prop where
  /-- What the rules ask for sees two tokens ahead. -/
  part : ∀ goal, (parse goal).Nearsighted
  /-- The rules advance. -/
  advances : ∀ bound, parse.Advances parse bound

/-- What comes behind a loop is run once, so the loop and it end alone if the loop does. -/
theorem EndsAlone.bind {α β : Type} {loop : Nat → Parser α} {next : α → Parser β} {scope : Scope}
    {tokens : List Token} (ends : EndsAlone loop scope tokens) :
    EndsAlone (fun rounds => loop rounds >>= next) scope tokens := by
  intro rounds enough
  change Parser.bind (loop rounds) next scope tokens = Parser.bind (loop _) next scope tokens
  simp only [Parser.bind, ends rounds enough]

namespace Nearsighted

variable {parse : Grammar} (grammar : parse.Nearsighted)
include grammar

/-- The loops of the grammar end by themselves. -/
theorem loopsEnd (scope : Scope) (tokens : List Token) : parse.LoopsEnd scope tokens :=
  (grammar.advances _).loopsEnd (Nat.lt_succ_self _)

/-- An expression takes a token. -/
theorem expressionTakes (scope : Scope) (tokens : List Token) :
    (parse .expression).Advances (parse .expression) 1 scope tokens :=
  (grammar.advances _).expression (Nat.lt_succ_self _)

/-- Statements up to a closing brace see two tokens ahead. -/
theorem blockBody {opened : Location} (rounds : Nat) :
    (parse.blockBody opened rounds).Nearsighted := by
  induction rounds with
  | zero => exact nearsighted_fail
  | succ rounds ih =>
    refine nearsighted_eat.bind fun closed => ?_
    cases closed with
    | some closed => exact nearsighted_pure
    | none =>
      refine nearsighted_atEnd.bind fun _ => nearsighted_ite nearsighted_fail ?_
      refine (grammar.part .statement).bind fun first => nearsighted_eat.bind fun _ => ?_
      exact ih.bind fun others => nearsighted_pure

/-- Statements in braces see two tokens ahead. -/
theorem blockParts : parse.blockParts.Nearsighted := by
  refine nearsighted_sees.bind fun _ => nearsighted_ite (nearsighted_nested ?_)
    nearsighted_failHere
  refine nearsighted_take.bind fun opened => ?_
  refine nearsighted_left_bind (fun rounds => ?_)
    fun scope tokens => ((grammar.loopsEnd scope tokens).block opened).bind
  exact (grammar.blockBody rounds).bind fun _ => nearsighted_pure

/-- A block sees two tokens ahead. -/
theorem block : parse.block.Nearsighted := grammar.blockParts.bind fun _ => nearsighted_pure

/-- A body sees two tokens ahead. -/
theorem body : parse.body.Nearsighted :=
  nearsighted_sees.bind fun _ => nearsighted_ite grammar.block (grammar.part .statement)

/-- A member is told by a separator and the name behind it. -/
theorem members (object : Node) : (parse.members object).Nearsighted := by
  refine nearsighted_peek.bind fun token => ?_
  cases token.bind Token.separator? with
  | none => exact nearsighted_pure
  | some separator =>
    refine nearsighted_peekSecond.bind fun _ => nearsighted_ite ?_ nearsighted_pure
    refine nearsighted_skip.bind fun _ => ?_
    exact (nearsighted_nested (grammar.part .named)).bind fun property => nearsighted_pure

/-- A list of values sees two tokens ahead. -/
theorem values {bracket : Bracket} {context : Construct} {opened : Location} :
    (delimited bracket context opened (parse .expression)).Nearsighted :=
  nearsighted_delimited (grammar.part .expression) grammar.expressionTakes

/-- A call sees two tokens ahead. -/
theorem call (callee : Node) : (parse.call callee).Nearsighted := by
  refine nearsighted_take.bind fun opened => ?_
  exact (nearsighted_nested grammar.values).bind fun arguments => grammar.members _

/-- An index and what follows it see two tokens ahead. -/
theorem indexedRule (target : Node) : (parse.indexed target).Nearsighted := by
  refine nearsighted_take.bind fun opened => ?_
  refine (nearsighted_nested (grammar.part .expression)).bind fun index => ?_
  refine nearsighted_expectClosing.bind fun closed => nearsighted_eat.bind fun equals => ?_
  cases equals with
  | some equals =>
    exact (nearsighted_nested (grammar.part .expression)).bind fun _ => nearsighted_pure
  | none =>
    refine nearsighted_sees.bind fun _ => nearsighted_ite (grammar.call _) ?_
    refine nearsighted_sees.bind fun _ => nearsighted_ite ?_ (grammar.members _)
    exact nearsighted_nested (grammar.part (.indexed _))

/-- A value that is assigned sees two tokens ahead. -/
theorem assigned (target : Token) (operator : AssignmentOperator) :
    (parse.assigned target operator).Nearsighted :=
  (nearsighted_nested (grammar.part .expression)).bind fun _ => nearsighted_pure

/-- An assignment or an update is told by an operator and the token behind it. -/
theorem namedOperator (name : Token) (operator : Operator) :
    (parse.namedOperator name operator).Nearsighted := by
  refine nearsighted_peekSecond.bind fun second => ?_
  cases second with
  | none => exact nearsighted_pure
  | some second =>
    refine nearsighted_ite ?_ (nearsighted_ite ?_ nearsighted_pure)
    · cases AssignmentOperator.compound? operator with
      | none => exact nearsighted_pure
      | some assignment => exact nearsighted_skip.bind fun _ => grammar.assigned name assignment
    · cases UpdateOperator.doubled? operator with
      | none => exact nearsighted_pure
      | some update => exact nearsighted_skip.bind fun _ => nearsighted_pure

/-- A name sees two tokens ahead to find what it leads. -/
theorem namedRule (assignmentDue : Bool) : (parse.named assignmentDue).Nearsighted := by
  refine nearsighted_peek_or_end rfl fun name => ?_
  refine nearsighted_skip.bind fun _ => nearsighted_peek.bind fun follower => ?_
  cases follower with
  | none => exact nearsighted_ite nearsighted_fail nearsighted_pure
  | some follower =>
    obtain ⟨kind, location⟩ := follower
    cases kind with
    | operator operator => exact grammar.namedOperator name operator
    | punctuation mark =>
      cases mark with
      | equals => exact nearsighted_skip.bind fun _ => grammar.assigned name .assign
      | openParen => exact grammar.call (.leaf name)
      | dot | colon => exact grammar.members (.leaf name)
      | openBracket => exact grammar.indexedRule (.leaf name)
      | _ => exact nearsighted_pure
    | _ => exact nearsighted_pure

/-- A value in parentheses sees two tokens ahead. -/
theorem parenthesized : parse.parenthesized.Nearsighted := by
  refine nearsighted_take.bind fun opened => ?_
  refine nearsighted_atEnd.bind fun _ => nearsighted_ite nearsighted_fail ?_
  refine nearsighted_eat.bind fun closed => ?_
  cases closed with
  | some closed => exact nearsighted_pure
  | none =>
    refine (grammar.part .expression).bind fun inner => ?_
    exact nearsighted_expectClosing.bind fun _ => nearsighted_pure

/-- An array sees two tokens ahead. -/
theorem array : parse.array.Nearsighted :=
  nearsighted_take.bind fun _ => grammar.values.bind fun _ => nearsighted_pure

/-- An entry of an object literal is told by a name and the token behind it. -/
theorem entry : parse.entry.Nearsighted := by
  refine nearsighted_eat.bind fun opened => ?_
  cases opened with
  | some opened =>
    refine (nearsighted_nested (grammar.part .expression)).bind fun key => ?_
    refine nearsighted_expectClosing.bind fun _ => nearsighted_eat.bind fun equals => ?_
    cases equals with
    | some equals => exact (grammar.part .expression).map
    | none => exact nearsighted_pure
  | none =>
    refine nearsighted_peek.bind fun token => ?_
    cases token.filter Token.isIdentifier with
    | none => exact (grammar.part .expression).map
    | some name =>
      refine nearsighted_peekSecond.bind fun _ =>
        nearsighted_ite ?_ (grammar.part .expression).map
      exact nearsighted_skip.bind fun _ => (grammar.part .expression).map

/-- An object literal sees two tokens ahead. -/
theorem object : parse.object.Nearsighted := by
  refine nearsighted_take.bind fun _ => Nearsighted.bind ?_ fun _ => nearsighted_pure
  exact nearsighted_delimited grammar.entry fun scope tokens =>
    (grammar.advances _).entry (Nat.lt_succ_self _)

/-- A negation sees two tokens ahead. -/
theorem negation : parse.negation.Nearsighted := by
  refine nearsighted_take.bind fun bang => ?_
  refine nearsighted_atEnd.bind fun _ => nearsighted_ite nearsighted_fail ?_
  exact (grammar.part .expression).bind fun operand => nearsighted_pure

/-- A function without a name sees two tokens ahead. -/
theorem lambda : parse.lambda.Nearsighted := by
  refine nearsighted_take.bind fun keyword => nearsighted_eat.bind fun opened => ?_
  cases opened with
  | none => exact nearsighted_failHere
  | some opened =>
    refine Nearsighted.bind (nearsighted_delimited nearsighted_expectIdentifier
      fun _ _ => advances_expectIdentifier) fun parameters => ?_
    exact grammar.body.bind fun body => nearsighted_pure

/-- An operand sees two tokens ahead. -/
theorem primary : parse.primary.Nearsighted := by
  refine nearsighted_peek_or_end rfl fun token => ?_
  obtain ⟨kind, location⟩ := token
  cases kind with
  | punctuation mark =>
    cases mark with
    | openParen => exact nearsighted_nested grammar.parenthesized
    | openBracket => exact nearsighted_nested grammar.array
    | openBrace => exact nearsighted_nested grammar.object
    | bang => exact nearsighted_nested grammar.negation
    | _ => exact nearsighted_fail
  | identifier name => exact grammar.namedRule false
  | keyword keyword =>
    cases keyword with
    | fn => exact nearsighted_nested grammar.lambda
    | _ => exact nearsighted_skip.bind fun _ => nearsighted_pure
  | otherMark character unknown => exact nearsighted_fail
  | _ => exact nearsighted_skip.bind fun _ => nearsighted_pure

/-- An operator and its operands see two tokens ahead. -/
theorem climb (rounds : Nat) (left : Node) (strength : Nat) :
    (parse.climb rounds left strength).Nearsighted := by
  induction rounds generalizing left strength with
  | zero => exact nearsighted_pure
  | succ rounds ih =>
    refine nearsighted_peek.bind fun symbol => ?_
    cases symbol.bind Token.operator? with
    | none => exact nearsighted_pure
    | some operator =>
      refine nearsighted_ite nearsighted_pure (nearsighted_skip.bind fun _ => ?_)
      exact grammar.primary.bind fun operand => (ih operand _).bind fun right => ih _ strength

/-- An expression sees two tokens ahead to find an operator with an operand behind it. -/
theorem expressionRule : parse.expression.Nearsighted := by
  refine grammar.primary.bind fun operand => nearsighted_peek.bind fun _ => ?_
  refine nearsighted_ite (nearsighted_peekSecond.bind fun _ => ?_) nearsighted_pure
  refine nearsighted_ite ?_ nearsighted_pure
  exact nearsighted_left_bind (fun rounds => grammar.climb rounds operand 0)
    fun scope tokens => (grammar.loopsEnd scope tokens).operators operand 0

/-- A declaration sees two tokens ahead. -/
theorem declaration : parse.declaration.Nearsighted := by
  refine nearsighted_take.bind fun keyword => nearsighted_expectIdentifier.bind fun name => ?_
  refine nearsighted_eat.bind fun equals => ?_
  cases equals with
  | some equals => exact (grammar.part .expression).bind fun value => nearsighted_pure
  | none => exact nearsighted_pure

/-- What follows `else` sees two tokens ahead. -/
theorem alternate : parse.alternate.Nearsighted := by
  refine nearsighted_seesKeyword.bind fun _ => nearsighted_ite ?_ ?_
  · exact nearsighted_skip.bind fun _ => grammar.block.map
  refine nearsighted_seesKeyword.bind fun _ => nearsighted_ite ?_ nearsighted_pure
  exact (nearsighted_nested (grammar.part .conditional)).map

/-- An `if` sees two tokens ahead. -/
theorem conditionalRule : (Grammar.conditional parse).Nearsighted := by
  refine nearsighted_take.bind fun keyword => (grammar.part .expression).bind fun test => ?_
  refine grammar.body.bind fun consequent => nearsighted_eatSemicolonBefore.bind fun _ => ?_
  exact grammar.alternate.bind fun alternate => nearsighted_pure

/-- A `while` loop sees two tokens ahead. -/
theorem whileLoop : parse.whileLoop.Nearsighted := by
  refine nearsighted_take.bind fun keyword => (grammar.part .expression).bind fun test => ?_
  exact grammar.body.bind fun body => nearsighted_pure

/-- A `do` loop sees two tokens ahead. -/
theorem doWhileLoop : parse.doWhileLoop.Nearsighted := by
  refine nearsighted_take.bind fun keyword => grammar.body.bind fun body => ?_
  refine nearsighted_eatSemicolonBefore.bind fun _ => nearsighted_seesKeyword.bind fun _ => ?_
  refine nearsighted_ite (nearsighted_skip.bind fun _ => ?_) nearsighted_failHere
  exact (grammar.part .expression).bind fun test => nearsighted_pure

/-- The step of a `for` loop sees two tokens ahead. -/
theorem forUpdate (initial : Node) : (parse.forUpdate initial).Nearsighted := by
  refine nearsighted_eat.bind fun comma => ?_
  cases comma with
  | some comma => exact grammar.part .statement
  | none =>
    cases initial with
    | declaration name value location =>
      exact nearsighted_atEnd.bind fun _ => nearsighted_ite nearsighted_failHere nearsighted_pure
    | _ => exact nearsighted_failHere

/-- A `for` loop sees two tokens ahead. -/
theorem forLoop : parse.forLoop.Nearsighted := by
  refine nearsighted_take.bind fun keyword => (grammar.part .statement).bind fun initial => ?_
  refine nearsighted_eat.bind fun comma => ?_
  cases comma with
  | none => exact nearsighted_failHere
  | some comma =>
    refine (grammar.part .expression).bind fun test => ?_
    refine (grammar.forUpdate initial).bind fun update => ?_
    exact grammar.body.bind fun body => nearsighted_pure

omit grammar in
/-- Looking through the entries of a switch for cases sees no token at all. -/
theorem clausesOf {shown : String} (entries : List Node) :
    (Grammar.clausesOf shown entries).Nearsighted := by
  induction entries with
  | nil => exact nearsighted_pure
  | cons entry entries ih =>
    unfold Grammar.clausesOf
    cases entry.clause? with
    | none => exact nearsighted_fail
    | some branch => exact ih.map

/-- A switch sees two tokens ahead. -/
theorem switch : parse.switch.Nearsighted := by
  refine nearsighted_take.bind fun keyword => (grammar.part .expression).bind fun subject => ?_
  refine grammar.blockParts.bind fun parts => ?_
  exact (clausesOf parts.1).bind fun _ => nearsighted_pure

/-- Further values of a case see two tokens ahead. -/
theorem alternatives (rounds : Nat) : (parse.alternatives rounds).Nearsighted := by
  induction rounds with
  | zero => exact nearsighted_pure
  | succ rounds ih =>
    refine nearsighted_eat.bind fun bar => ?_
    cases bar with
    | none => exact nearsighted_pure
    | some bar =>
      exact (grammar.part .expression).bind fun _ => ih.bind fun _ => nearsighted_pure

/-- The keyword and the values of a case see two tokens ahead. -/
theorem clauseHead : parse.clauseHead.Nearsighted := by
  refine nearsighted_seesKeyword.bind fun _ => nearsighted_ite ?_ ?_
  · exact nearsighted_skip.bind fun _ => nearsighted_pure
  refine nearsighted_skip.bind fun _ => (grammar.part .expression).bind fun first => ?_
  refine nearsighted_left_bind (fun rounds => ?_)
    fun scope tokens => (grammar.loopsEnd scope tokens).alternatives.bind
  exact (grammar.alternatives rounds).bind fun others => nearsighted_pure

/-- The body of a case sees two tokens ahead. -/
theorem clauseBody : parse.clauseBody.Nearsighted := by
  refine nearsighted_sees.bind fun _ => nearsighted_ite grammar.block ?_
  refine nearsighted_eat.bind fun colon => ?_
  cases colon with
  | some colon => exact grammar.part .statement
  | none => exact nearsighted_failHere

/-- A case sees two tokens ahead. -/
theorem clause : parse.clause.Nearsighted := by
  refine nearsighted_here.bind fun keyword => grammar.clauseHead.bind fun values => ?_
  exact grammar.clauseBody.bind fun body => nearsighted_pure

omit grammar in
/-- Looking through the arguments of a signature for names sees no token at all. -/
theorem parametersOf (arguments : List Node) : (Grammar.parametersOf arguments).Nearsighted := by
  induction arguments with
  | nil => exact nearsighted_pure
  | cons argument arguments ih =>
    unfold Grammar.parametersOf
    cases argument.identifier? with
    | none => exact nearsighted_fail
    | some name => exact ih.map

/-- A function with a name sees two tokens ahead. -/
theorem namedFunction : parse.namedFunction.Nearsighted := by
  refine nearsighted_take.bind fun keyword => nearsighted_peek.bind fun _ => ?_
  refine nearsighted_ite ((grammar.namedRule false).bind fun title => ?_) nearsighted_failHere
  cases title.signature? with
  | none => exact nearsighted_failHere
  | some signature =>
    refine (parametersOf signature.2).bind fun parameters => ?_
    exact grammar.body.bind fun body => nearsighted_pure

/-- The end of a function sees two tokens ahead. -/
theorem returns : parse.returns.Nearsighted := by
  refine nearsighted_take.bind fun keyword => nearsighted_peek.bind fun token => ?_
  cases token with
  | none => exact nearsighted_pure
  | some token =>
    refine nearsighted_ite nearsighted_pure ?_
    exact (grammar.part .expression).bind fun value => nearsighted_pure

/-- The statement of a keyword sees two tokens ahead. -/
theorem keywordStatement (keyword : Located Keyword) :
    (parse.keywordStatement keyword).Nearsighted := by
  obtain ⟨keyword, location⟩ := keyword
  cases keyword with
  | «let» | var => exact grammar.declaration
  | «if» => exact grammar.conditionalRule
  | «while» => exact grammar.whileLoop
  | «do» => exact grammar.doWhileLoop
  | «for» => exact grammar.forLoop
  | switch => exact grammar.switch
  | case | default => exact grammar.clause
  | fn =>
    exact nearsighted_peekSecond.bind fun _ =>
      nearsighted_ite grammar.lambda grammar.namedFunction
  | «return» => exact grammar.returns
  | «else» | elseif => exact nearsighted_fail

/-- A statement sees two tokens ahead. -/
theorem statementRule : parse.statement.Nearsighted := by
  refine nearsighted_nested (nearsighted_peek_or_end rfl fun token => ?_)
  refine nearsighted_record.bind fun _ => ?_
  obtain ⟨kind, location⟩ := token
  cases kind with
  | keyword keyword => exact grammar.keywordStatement ⟨keyword, location⟩
  | identifier name => exact grammar.namedRule true
  | lineComment text | blockComment text => exact nearsighted_skip.bind fun _ => nearsighted_pure
  | _ => exact nearsighted_fail

/-- If the grammar below sees two tokens ahead, so does the one that is built from it. -/
theorem step : parse.step.Nearsighted where
  part goal := by
    cases goal with
    | statement => exact grammar.statementRule
    | expression => exact grammar.expressionRule
    | named => exact grammar.namedRule false
    | indexed target => exact grammar.indexedRule target
    | conditional => exact grammar.conditionalRule
  advances bound := by
    cases bound with
    | zero => constructor <;> intros <;> contradiction
    | succ bound => exact (grammar.advances bound).step

/-- Every routine of the grammar sees two tokens ahead. -/
theorem routine (routine : Routine) : (routine.parser parse).Nearsighted := by
  cases routine with
  | statement => exact grammar.statementRule
  | expression => exact grammar.expressionRule
  | primary => exact grammar.primary
  | named assignmentDue => exact grammar.namedRule assignmentDue
  | block => exact grammar.block
  | body => exact grammar.body

end Nearsighted

/-- A grammar that fails at once sees nothing at all. -/
theorem nearsighted_fails (fault : ParseFault) (location : Location) :
    Grammar.Nearsighted fun _ => fail fault location where
  part _ := nearsighted_fail
  advances _ := by constructor <;> intros <;> exact advances_fail

/-- With any number of calls the grammar sees two tokens ahead, if what is below the last one does.
-/
theorem nearsighted_unrolled {stuck : Grammar} (nearsighted : stuck.Nearsighted) (calls : Nat) :
    (unrolled stuck calls).Nearsighted := by
  induction calls with
  | zero => exact nearsighted
  | succ calls ih => exact ih.step

end Grammar

open Grammar

/-- Each routine of the language sees two tokens ahead at most. -/
theorem nearsighted_routine (routine : Routine) : (routine.parser full).Nearsighted := by
  refine Parser.nearsighted_of_eq (fun bound => routine.parser
    (unrolled (fun _ => Parser.fail (.unexpectedEnd .expression "") {}) (bound + 1))) ?_ ?_
  · exact fun bound => (nearsighted_unrolled (nearsighted_fails _ _) _).routine routine
  · intro bound scope tokens short
    exact ((advances_full (Nat.le_refl _)).routine routine (Nat.lt_succ_of_le short)).same

/-- What a routine answers from a place among the tokens of a source on, where so many levels of
nesting are open. -/
def Routine.answer (routine : Routine) (options : Options) (depth position : Nat)
    (tokens : List Token) : Reply Node :=
  routine.parser full
    { Scope.ofTokens options tokens with room := options.maxDepth - depth } (tokens.drop position)

/-- What begins as a list does, up to a place and further, goes on from that place as the list
does. -/
theorem exists_append_of_take_eq {front rest tokens other : List Token} {count : Nat}
    (whole : front ++ rest = tokens)
    (same : other.take (front.length + count) = tokens.take (front.length + count)) :
    ∃ left, front ++ left = other ∧ left.take count = rest.take count := by
  have begins : other.take front.length = front := by
    have shorter := congrArg (List.take front.length) same
    rwa [List.take_take, List.take_take, Nat.min_eq_left (Nat.le_add_right _ count), ← whole,
      List.take_left] at shorter
  have split : front ++ other.drop front.length = other := by
    calc front ++ other.drop front.length
        = other.take front.length ++ other.drop front.length := by rw [begins]
      _ = other := List.take_append_drop front.length other
  refine ⟨other.drop front.length, split, ?_⟩
  rw [← whole, ← split, List.take_length_add_append, List.take_length_add_append] at same
  exact List.append_cancel_left same

/-- Two tokens of lookahead are enough. A routine, run from any place among the tokens of a source,
with any limit and any number of levels that are open already, stops at some place with some
outcome. Every other source with the same tokens up to there and two tokens further makes it stop at
the same place with the same outcome. -/
theorem Routine.answer_of_take_eq (routine : Routine) (options : Options) (depth position : Nat)
    {tokens other : List Token}
    (same : other.take ((routine.answer options depth position tokens).cursor tokens + 2) =
      tokens.take ((routine.answer options depth position tokens).cursor tokens + 2)) :
    (routine.answer options depth position other).outcome =
        (routine.answer options depth position tokens).outcome ∧
      (routine.answer options depth position other).cursor other =
        (routine.answer options depth position tokens).cursor tokens := by
  have nearsighted := nearsighted_routine routine
  obtain ⟨front, taken⟩ := nearsighted.suffix
    { Scope.ofTokens options tokens with room := options.maxDepth - depth } (tokens.drop position)
  change front ++ (routine.answer options depth position tokens).rest = _ at taken
  by_cases inside : position ≤ tokens.length
  · have whole : tokens.take position ++ front ++
        (routine.answer options depth position tokens).rest = tokens := by
      rw [List.append_assoc, taken, List.take_append_drop]
    have stop : (routine.answer options depth position tokens).cursor tokens =
        (tokens.take position ++ front).length := Reply.cursor_of_append whole
    rw [stop] at same ⊢
    obtain ⟨left, split, ahead⟩ := exists_append_of_take_eq whole same
    have alike : LooksAlike
        { Scope.ofTokens options tokens with room := options.maxDepth - depth }
        { Scope.ofTokens options other with room := options.maxDepth - depth }
        (routine.answer options depth position tokens).rest left := by
      refine ⟨rfl, rfl, ahead, fun short => ?_⟩
      rw [← split, eq_of_take_eq ahead short, whole]
    have begins : other.drop position = front ++ left := by
      rw [← split, List.append_assoc]
      exact List.drop_left' (List.length_take_of_le inside)
    have again := nearsighted.same taken alike
    rw [← begins] at again
    have left_eq : (routine.answer options depth position other).rest = left := again.2
    rw [← left_eq] at split
    exact ⟨again.1, Reply.cursor_of_append split⟩
  · -- Nothing is left at a place behind the last token, and the sources are the same.
    have ended : (routine.answer options depth position tokens).rest = [] := by
      rw [List.drop_eq_nil_of_le (by omega)] at taken
      exact (List.append_eq_nil_iff.mp taken).2
    have equal : other = tokens := eq_of_take_eq same (by
      rw [Reply.cursor, ended]
      exact Nat.lt_add_of_pos_right Nat.two_pos)
    rw [equal]
    exact ⟨rfl, rfl⟩

/-- The statement `if a b++` stops before the semicolon behind it, since the token behind that is
no `else`. What follows makes no difference, be it the end of the source or a bracket. -/
theorem Routine.answer_of_take_eq_conditional :
    let tokens : List Token := [⟨.keyword .if, ⟨0, 2, 1, 1⟩⟩, ⟨.identifier "a", ⟨3, 4, 1, 4⟩⟩,
      ⟨.identifier "b", ⟨5, 6, 1, 6⟩⟩, ⟨.operator .add, ⟨6, 7, 1, 7⟩⟩,
      ⟨.operator .add, ⟨7, 8, 1, 8⟩⟩, ⟨.punctuation .semicolon, ⟨8, 9, 1, 9⟩⟩,
      ⟨.identifier "c", ⟨10, 11, 1, 11⟩⟩]
    let other : List Token := tokens ++ [⟨.punctuation .closeParen, ⟨11, 12, 1, 12⟩⟩]
    (Routine.statement.answer {} 3 0 tokens).outcome = .ok
        (.conditional (.leaf ⟨.identifier "a", ⟨3, 4, 1, 4⟩⟩)
          (.update ⟨.identifier "b", ⟨5, 6, 1, 6⟩⟩ .increment ⟨5, 8, 1, 6⟩) none ⟨0, 8, 1, 1⟩) ∧
      (Routine.statement.answer {} 3 0 other).outcome =
        (Routine.statement.answer {} 3 0 tokens).outcome ∧
      (Routine.statement.answer {} 3 0 other).cursor other = 5 := by
  intro tokens other
  have outcome : (Routine.statement.answer {} 3 0 tokens).outcome = .ok
      (.conditional (.leaf ⟨.identifier "a", ⟨3, 4, 1, 4⟩⟩)
        (.update ⟨.identifier "b", ⟨5, 6, 1, 6⟩⟩ .increment ⟨5, 8, 1, 6⟩) none ⟨0, 8, 1, 1⟩) := rfl
  have stop : (Routine.statement.answer {} 3 0 tokens).cursor tokens = 5 := rfl
  have ahead : other.take ((Routine.statement.answer {} 3 0 tokens).cursor tokens + 2) =
      tokens.take ((Routine.statement.answer {} 3 0 tokens).cursor tokens + 2) := by
    rw [stop]
    rfl
  have same := Routine.answer_of_take_eq .statement {} 3 0 ahead
  exact ⟨outcome, same.1, same.2.trans stop⟩

end Oreo
