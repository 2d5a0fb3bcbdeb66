import Oreo.Parse.Session
import Oreo.Proofs.Parse.Success

/-!
# The limit on nesting is a cut-off

Whatever a parser answers, it answers with every larger limit too, unless the answer is that
the limit was reached. And a limit that is larger than the number of tokens is never reached: a
level passes a token before it opens another one, so there is at most one level more than tokens.

Both are properties of the same walk through the grammar, and are shown together. A parser is
`Measured` on some tokens in some scope if it leaves no more tokens than it was given, does not
reach the limit where there is ample room, and answers the same in every wider scope unless it
reaches the limit. What ample room is, each rule says for itself: a hypothesis
`ample → tokens.length + 1 ≤ scope.room` asks for one level more than there are tokens.
-/

namespace Oreo

/-- The reading ended because no further level could be opened. -/
def Reply.TooDeep {α : Type} (reply : Reply α) : Prop :=
  ∃ limit location, reply.outcome = .error ⟨.nestingTooDeep limit, location⟩

namespace Parser

/-- What the parser answers on the tokens: it does not leave more tokens than there are, does not
reach the limit if there is ample room, and answers the same in a wider scope. -/
structure Measured {α : Type} (parser : Parser α) (ample : Prop) (scope : Scope)
    (tokens : List Token) : Prop where
  /-- No token comes back. -/
  fewer : (parser scope tokens).rest.length ≤ tokens.length
  /-- Ample room is enough. -/
  fits : ample → ¬ (parser scope tokens).TooDeep
  /-- More room makes no difference. -/
  steady : ∀ wider : Scope, wider.last = scope.last → scope.room ≤ wider.room →
    ¬ (parser scope tokens).TooDeep → parser wider tokens = parser scope tokens

variable {α β : Type} {ample : Prop} {scope : Scope} {tokens : List Token}

/-- A parser that answers the same in all scopes with the same last token, reads forward and does
not refuse a level, is measured. -/
theorem measured_of_eq {parser : Parser α} (reply : Reply α)
    (same : ∀ other : Scope, other.last = scope.last → parser other tokens = reply)
    (fewer : reply.rest.length ≤ tokens.length) (shallow : ¬ reply.TooDeep) :
    parser.Measured ample scope tokens := by
  have here := same scope rfl
  refine ⟨by rw [here]; exact fewer, fun _ => by rw [here]; exact shallow, ?_⟩
  intro wider last _ _
  rw [here, same wider last]

/-- An answer that is a value is no refusal. -/
theorem not_tooDeep_ok {value : α} {rest : List Token} {events : List Event} :
    ¬ (Reply.mk (.ok value) rest events).TooDeep := by
  rintro ⟨limit, location, same⟩
  cases same

/-- A value that is given opens no level. -/
theorem measured_pure {value : α} : (pure value : Parser α).Measured ample scope tokens :=
  measured_of_eq ⟨.ok value, tokens, []⟩ (fun _ _ => rfl) (Nat.le_refl _) not_tooDeep_ok

/-- A fault of any other kind is no refusal of a level. -/
theorem measured_fail {fault : ParseFault} {location : Location}
    (other : ∀ limit, fault ≠ .nestingTooDeep limit) :
    (fail fault location : Parser α).Measured ample scope tokens := by
  apply measured_of_eq ⟨.error ⟨fault, location⟩, tokens, []⟩ (fun _ _ => rfl) (Nat.le_refl _)
  rintro ⟨limit, place, same⟩
  cases same
  exact other limit rfl

/-- Two parsers in order are measured if each is, the second on what the first leaves. -/
theorem Measured.bind_of_yields {first : Parser α} {next : α → Parser β}
    (begins : first.Measured ample scope tokens)
    (goes : ∀ value rest, first.Yields scope tokens value rest →
      (next value).Measured ample scope rest) :
    (first >>= next).Measured ample scope tokens := by
  rcases answer : first scope tokens with ⟨error | value, rest, events⟩
  · -- The first parser fails, and so do both, in the same way.
    have whole : (first >>= next) scope tokens = ⟨.error error, rest, events⟩ :=
      bind_of_error answer
    have alike : ((first >>= next) scope tokens).TooDeep ↔ (first scope tokens).TooDeep := by
      rw [whole, answer]
      unfold Reply.TooDeep
      simp
    refine ⟨?_, fun room deep => begins.fits room (alike.mp deep), ?_⟩
    · have fewer := begins.fewer
      rw [answer] at fewer
      rw [whole]
      exact fewer
    · intro wider last room shallow
      have same := begins.steady wider last room (fun deep => shallow (alike.mpr deep))
      rw [whole, bind_of_error (same.trans answer)]
  · have fewer : rest.length ≤ tokens.length := by
      have fewer := begins.fewer
      rw [answer] at fewer
      exact fewer
    have goes := goes value rest (by rw [Yields, answer]; exact ⟨rfl, rfl⟩)
    have whole : (first >>= next) scope tokens =
        { next value scope rest with events := events ++ (next value scope rest).events } :=
      bind_of_ok answer
    refine ⟨?_, ?_, ?_⟩
    · rw [whole]
      exact Nat.le_trans goes.fewer fewer
    · rw [whole]
      exact goes.fits
    · intro wider last room shallow
      have shallow : ¬ (next value scope rest).TooDeep := by
        rw [whole] at shallow
        exact shallow
      have first_same := begins.steady wider last room (by rw [answer]; exact not_tooDeep_ok)
      have next_same := goes.steady wider last room shallow
      rw [whole, bind_of_ok (first_same.trans answer), next_same]

/-- A parser that succeeds leaves no more tokens than it was given. -/
theorem Measured.length_le {parser : Parser α} {value : α} {rest : List Token}
    (measured : parser.Measured ample scope tokens)
    (read : parser.Yields scope tokens value rest) : rest.length ≤ tokens.length := by
  rw [← read.2]
  exact measured.fewer

/-- A parser and one that goes on with what it left are measured together. -/
theorem Measured.bind {first : Parser α} {next : α → Parser β}
    (begins : first.Measured ample scope tokens)
    (goes : ∀ value rest, rest.length ≤ tokens.length →
      (next value).Measured ample scope rest) :
    (first >>= next).Measured ample scope tokens :=
  begins.bind_of_yields fun value rest read => goes value rest (begins.length_le read)

/-- What is built from a value is measured as the value is. -/
theorem Measured.map {build : α → β} {parser : Parser α}
    (measured : parser.Measured ample scope tokens) :
    (build <$> parser).Measured ample scope tokens :=
  measured.bind fun _ _ _ => measured_pure

/-- Of two parsers the one is measured whose condition holds. -/
theorem measured_ite {condition : Prop} [Decidable condition] {first second : Parser α}
    (yes : condition → first.Measured ample scope tokens)
    (no : ¬ condition → second.Measured ample scope tokens) :
    (if condition then first else second).Measured ample scope tokens := by
  split
  · exact yes ‹_›
  · exact no ‹_›

/-- A level is opened where there is room for it, and what is read there has one level less. -/
theorem measured_nested {parser : Parser α} (enough : ample → 0 < scope.room)
    (inner : ∀ room, scope.room = room + 1 →
      parser.Measured ample { scope with room } tokens) :
    (nested parser).Measured ample scope tokens := by
  obtain ⟨limit, room, last⟩ := scope
  cases room with
  | zero =>
    have refused : (nested parser ⟨limit, 0, last⟩ tokens).TooDeep := ⟨_, _, rfl⟩
    refine ⟨Nat.le_refl _, ?_, ?_⟩
    · intro room
      exact absurd (enough room) (Nat.lt_irrefl 0)
    · intro wider _ _ shallow
      exact absurd refused shallow
  | succ room =>
    have inner := inner room rfl
    refine ⟨inner.fewer, inner.fits, ?_⟩
    intro wider same larger shallow
    obtain ⟨widerLimit, widerRoom, widerLast⟩ := wider
    obtain ⟨widerRoom, rfl⟩ : ∃ fewer, widerRoom = fewer + 1 := ⟨widerRoom - 1, by
      simp only at larger
      omega⟩
    have alike := inner.steady ⟨widerLimit, widerRoom, widerLast⟩ same
      (Nat.le_of_succ_le_succ larger) shallow
    change ({ parser ⟨widerLimit, widerRoom, widerLast⟩ tokens with events := _ } : Reply α) = _
    rw [alike]
    rfl

/-- A parser that goes on as another does, behind the tokens that it passes, is measured if the
other is. -/
theorem Measured.of_eq {parser other : Parser α} {rest : List Token}
    (measured : other.Measured ample scope rest)
    (same : ∀ scope : Scope, parser scope tokens = other scope rest)
    (fewer : rest.length ≤ tokens.length) : parser.Measured ample scope tokens := by
  refine ⟨?_, ?_, ?_⟩
  · rw [same]
    exact Nat.le_trans measured.fewer fewer
  · rw [same]
    exact measured.fits
  · intro wider last room shallow
    rw [same] at shallow ⊢
    rw [same]
    exact measured.steady wider last room shallow

/-- A look at the current token opens no level. -/
theorem measured_peek_bind {next : Option Token → Parser α}
    (measured : (next tokens.head?).Measured ample scope tokens) :
    (peek >>= next).Measured ample scope tokens :=
  measured.of_eq (fun _ => rfl) (Nat.le_refl _)

/-- A look at the token behind the current one opens no level. -/
theorem measured_peekSecond_bind {next : Option Token → Parser α}
    (measured : (next tokens.tail.head?).Measured ample scope tokens) :
    (peekSecond >>= next).Measured ample scope tokens :=
  measured.of_eq (fun _ => rfl) (Nat.le_refl _)

/-- Counting what is left opens no level. -/
theorem measured_left_bind {next : Nat → Parser α}
    (measured : (next tokens.length).Measured ample scope tokens) :
    (left >>= next).Measured ample scope tokens :=
  measured.of_eq (fun _ => rfl) (Nat.le_refl _)

/-- A look for a mark opens no level. -/
theorem measured_sees_bind {mark : Punctuation} {next : Bool → Parser α}
    (measured : (next (startsWith mark tokens)).Measured ample scope tokens) :
    (sees mark >>= next).Measured ample scope tokens :=
  measured.of_eq (fun _ => rfl) (Nat.le_refl _)

/-- A look for a keyword opens no level. -/
theorem measured_seesKeyword_bind {keyword : Keyword} {next : Bool → Parser α}
    (measured : (next (startsWithKeyword keyword tokens)).Measured ample scope tokens) :
    (seesKeyword keyword >>= next).Measured ample scope tokens :=
  measured.of_eq (fun _ => rfl) (Nat.le_refl _)

/-- A look for the end opens no level. -/
theorem measured_atEnd_bind {next : Bool → Parser α}
    (measured : (next tokens.isEmpty).Measured ample scope tokens) :
    (atEnd >>= next).Measured ample scope tokens := by
  cases tokens with
  | nil => exact measured.of_eq (fun _ => rfl) (Nat.le_refl _)
  | cons token tokens => exact measured.of_eq (fun _ => rfl) (Nat.le_refl _)

/-- Asking for the place of a token opens no level. -/
theorem measured_here_bind {token : Token} {next : Location → Parser α}
    (measured : (next token.location).Measured ample scope (token :: tokens)) :
    (here >>= next).Measured ample scope (token :: tokens) :=
  measured.of_eq (fun _ => rfl) (Nat.le_refl _)

/-- Skipping tokens leaves fewer of them. -/
theorem measured_skip_bind {count : Nat} {next : Unit → Parser α}
    (measured : (next ()).Measured ample scope (tokens.drop count)) :
    (skip count >>= next).Measured ample scope tokens :=
  measured.of_eq (fun _ => rfl) (by rw [List.length_drop]; omega)

/-- Taking a token leaves one less. -/
theorem measured_take_bind {token : Token} {next : Location → Parser α}
    (measured : (next token.location).Measured ample scope tokens) :
    (take >>= next).Measured ample scope (token :: tokens) :=
  measured.of_eq (fun _ => rfl) (by rw [List.length_cons]; omega)

/-- A record opens no level. -/
theorem measured_record {event : Event} : (record event).Measured ample scope tokens :=
  measured_of_eq ⟨.ok (), tokens, [event]⟩ (fun _ _ => rfl) (Nat.le_refl _) not_tooDeep_ok

/-- Behind a record all is as it was before it. -/
theorem measured_record_bind {event : Event} {next : Unit → Parser α}
    (measured : (next ()).Measured ample scope tokens) :
    (record event >>= next).Measured ample scope tokens := by
  refine measured_record.bind_of_yields ?_
  rintro _ _ ⟨_, rfl⟩
  exact measured

/-- The end of the source is known from its last token alone. -/
theorem finish_congr {scope other : Scope} (last : other.last = scope.last) :
    other.finish = scope.finish := by
  unfold Scope.finish
  rw [last]

/-- The end of the source, where a part is missing, is reached at any limit. -/
theorem measured_failAtEnd {context : Construct} :
    (failAtEnd context : Parser α).Measured ample scope tokens := by
  cases last : scope.last with
  | none =>
    apply measured_of_eq ⟨.error ⟨.unexpectedEnd context "", scope.finish⟩, tokens, []⟩
    · intro other same
      simp only [failAtEnd, same, last, finish_congr same]
      rfl
    · exact Nat.le_refl _
    · rintro ⟨limit, location, refused⟩
      cases refused
  | some token =>
    apply measured_of_eq ⟨.error ⟨.unexpectedEnd context token.text, token.location⟩, tokens, []⟩
    · intro other same
      simp only [failAtEnd, same, last]
      rfl
    · exact Nat.le_refl _
    · rintro ⟨limit, location, refused⟩
      cases refused

/-- A fault at the current token that is not about the limit is reached at any limit. -/
theorem measured_failHere {fault : Option String → ParseFault}
    (other : ∀ found limit, fault found ≠ .nestingTooDeep limit) :
    (failHere fault : Parser α).Measured ample scope tokens := by
  refine measured_peek_bind ?_
  cases tokens with
  | cons token tokens => exact measured_here_bind (measured_fail (other _))
  | nil =>
    apply measured_of_eq ⟨.error ⟨fault none, scope.finish⟩, [], []⟩
    · intro wider last
      rw [← finish_congr last]
      rfl
    · exact Nat.le_refl _
    · rintro ⟨limit, location, refused⟩
      injection refused with same
      injection same with kind _
      exact other none limit kind

/-- A bracket that is not closed is so at any limit. -/
theorem measured_failUnclosed {bracket : Bracket} {context : Construct} {opened : Location} :
    (failUnclosed bracket context opened : Parser α).Measured ample scope tokens :=
  measured_peek_bind (measured_fail (by simp))

/-- A mark that may be missing is passed when it stands there. -/
theorem measured_eat_bind {mark : Punctuation} {next : Option Location → Parser α}
    (present : ∀ token rest, tokens = token :: rest →
      (next (some token.location)).Measured ample scope rest)
    (absent : startsWith mark tokens = false → (next none).Measured ample scope tokens) :
    (eat mark >>= next).Measured ample scope tokens := by
  cases ahead : startsWith mark tokens with
  | false =>
    refine (absent ahead).of_eq (fun scope => ?_) (Nat.le_refl _)
    exact bind_of_ok (eat_of_not_startsWith ahead)
  | true =>
    obtain ⟨token, rest, rfl, _⟩ := startsWith_iff.mp ahead
    refine (present token rest rfl).of_eq (fun scope => ?_) (Nat.le_succ _)
    exact bind_of_ok (eat_of_startsWith ahead)

/-- A name that is due opens no level. -/
theorem measured_expectIdentifier {context : Construct} :
    (expectIdentifier context).Measured ample scope tokens := by
  refine measured_peek_bind ?_
  cases tokens with
  | nil => exact measured_failHere (by simp)
  | cons token tokens =>
    apply measured_ite
    · exact fun _ => measured_skip_bind measured_pure
    · exact fun _ => measured_failHere (by simp)

/-- A closer that is due opens no level. -/
theorem measured_expectClosing {bracket : Bracket} {context : Construct} {opened : Location} :
    (expectClosing bracket context opened).Measured ample scope tokens :=
  measured_eat_bind (fun _ _ _ => measured_pure) fun _ => measured_failUnclosed

/-- A bracket is closed by a token, which is passed. -/
theorem measured_expectClosing_bind {bracket : Bracket} {context : Construct} {opened : Location}
    {next : Location → Parser α}
    (goes : ∀ token rest, tokens = token :: rest →
      (next token.location).Measured ample scope rest) :
    (expectClosing bracket context opened >>= next).Measured ample scope tokens := by
  refine measured_expectClosing.bind_of_yields fun closed rest read => ?_
  obtain ⟨token, rfl, _, rfl⟩ := yields_expectClosing.mp read
  exact goes token rest rfl

/-- An optional semicolon opens no level. -/
theorem measured_eatSemicolonBefore {keywords : List Keyword} :
    (eatSemicolonBefore keywords).Measured ample scope tokens := by
  refine measured_sees_bind (measured_ite (fun _ => ?_) fun _ => measured_pure)
  refine measured_peekSecond_bind (measured_ite (fun _ => ?_) fun _ => ?_)
  · exact measured_skip_bind measured_pure
  · exact measured_left_bind measured_record

/-- Items between commas are measured if an item is, on whatever tokens are left for it. -/
theorem measured_separated {bracket : Bracket} {context : Construct} {opened : Location}
    {item : Parser α} {budget : Nat}
    (each : ∀ rest : List Token, rest.length ≤ tokens.length → item.Measured ample scope rest) :
    (separated bracket context opened item budget).Measured ample scope tokens := by
  induction budget generalizing tokens with
  | zero => exact measured_fail (by simp)
  | succ budget ih =>
    refine measured_peek_bind ?_
    cases tokens with
    | nil => exact measured_fail (by simp)
    | cons token tokens =>
      refine measured_ite (fun _ => measured_fail (by simp)) fun _ => ?_
      refine (each _ (Nat.le_refl _)).bind fun first rest fewer => ?_
      refine measured_eat_bind ?_ fun _ => measured_expectClosing.map
      rintro comma rest rfl
      refine measured_sees_bind (measured_ite (fun _ => measured_fail (by simp)) fun _ => ?_)
      have others : ∀ left : List Token, left.length ≤ rest.length →
          item.Measured ample scope left := fun left shorter =>
        each left (by simp only [List.length_cons] at fewer ⊢; omega)
      exact (ih others).bind fun _ _ _ => measured_pure

/-- Items in brackets are measured if each item is. -/
theorem measured_delimited {bracket : Bracket} {context : Construct} {opened : Location}
    {item : Parser α}
    (each : ∀ rest : List Token, rest.length ≤ tokens.length → item.Measured ample scope rest) :
    (delimited bracket context opened item).Measured ample scope tokens :=
  measured_eat_bind (fun _ _ _ => measured_pure) fun _ =>
    measured_left_bind (measured_separated each)

end Parser

namespace Grammar

open Oreo.Parser

/-- The grammar is measured, part by part. A part needs one level for each token in front of it;
a statement opens its own level before it has passed a token, and a value before it has passed a
bracket, so these need one more. -/
structure Measured (parse : Grammar) : Prop where
  statement {ample : Prop} {scope : Scope} {tokens : List Token} :
    (ample → tokens.length + 1 ≤ scope.room) → (parse .statement).Measured ample scope tokens
  expression {ample : Prop} {scope : Scope} {tokens : List Token} :
    (ample → tokens.length + 1 ≤ scope.room) → (parse .expression).Measured ample scope tokens
  named {ample : Prop} {scope : Scope} {tokens : List Token} :
    (ample → tokens.length ≤ scope.room) → (parse .named).Measured ample scope tokens
  indexed {ample : Prop} {scope : Scope} {opened : Token} {tokens : List Token} {target : Node} :
    (ample → tokens.length + 2 ≤ scope.room) →
      (parse (.indexed target)).Measured ample scope (opened :: tokens)
  conditional {ample : Prop} {scope : Scope} {keyword : Token} {tokens : List Token} :
    (ample → tokens.length + 1 ≤ scope.room) →
      (parse .conditional).Measured ample scope (keyword :: tokens)

variable {parse : Grammar} {ample : Prop} {scope : Scope} {token : Token} {tokens : List Token}

/-- Statements up to a closing brace are measured. -/
theorem Measured.blockBody (grammar : parse.Measured) {opened : Location} {budget : Nat}
    (enough : ample → tokens.length + 1 ≤ scope.room) :
    (parse.blockBody opened budget).Measured ample scope tokens := by
  induction budget generalizing tokens with
  | zero => exact measured_fail (by simp)
  | succ budget ih =>
    refine measured_eat_bind (fun _ _ _ => measured_pure) fun _ => ?_
    refine measured_atEnd_bind (measured_ite (fun _ => measured_fail (by simp)) fun _ => ?_)
    refine (grammar.statement enough).bind fun first rest fewer => ?_
    have others (left : List Token) (shorter : left.length ≤ rest.length) :
        (parse.blockBody opened budget).Measured ample scope left := ih (by grind)
    apply measured_eat_bind
    · rintro semicolon rest rfl
      exact (others rest (Nat.le_succ _)).bind fun _ _ _ => measured_pure
    · exact fun _ => (others rest (Nat.le_refl _)).bind fun _ _ _ => measured_pure

/-- Statements in braces open a level behind the brace. -/
theorem Measured.blockParts (grammar : parse.Measured)
    (enough : ample → tokens.length + 1 ≤ scope.room) :
    parse.blockParts.Measured ample scope tokens := by
  refine measured_sees_bind (measured_ite (fun ahead => ?_) fun _ => measured_failHere (by simp))
  obtain ⟨token, rest, rfl, _⟩ := startsWith_iff.mp ahead
  refine measured_nested (by grind) fun room less => ?_
  refine measured_take_bind (measured_left_bind ?_)
  exact (grammar.blockBody (by grind)).bind fun _ _ _ => measured_pure

/-- A block opens a level behind its brace. -/
theorem Measured.block (grammar : parse.Measured)
    (enough : ample → tokens.length + 1 ≤ scope.room) :
    parse.block.Measured ample scope tokens :=
  (grammar.blockParts enough).bind fun _ _ _ => measured_pure

/-- A body has room if there is one level more than tokens. -/
theorem Measured.body (grammar : parse.Measured)
    (enough : ample → tokens.length + 1 ≤ scope.room) :
    parse.body.Measured ample scope tokens :=
  measured_sees_bind
    (measured_ite (fun _ => grammar.block enough) fun _ => grammar.statement enough)

/-- A member opens a level behind its separator. -/
theorem Measured.members (grammar : parse.Measured) {object : Node}
    (enough : ample → tokens.length + 1 ≤ scope.room) :
    (parse.members object).Measured ample scope tokens := by
  refine measured_peek_bind ?_
  cases ahead : tokens.head?.bind Token.separator? with
  | none => exact measured_pure
  | some separator =>
    cases tokens with
    | nil => cases ahead
    | cons token tokens =>
      refine measured_peekSecond_bind (measured_ite (fun _ => ?_) fun _ => measured_pure)
      refine measured_skip_bind (Measured.bind ?_ fun _ _ _ => measured_pure)
      refine measured_nested (by grind) fun room less => ?_
      exact grammar.named (by grind)

/-- The arguments are one level deeper than the parenthesis that is passed for them. -/
theorem Measured.call (grammar : parse.Measured) {callee : Node}
    (enough : ample → tokens.length + 2 ≤ scope.room) :
    (parse.call callee).Measured ample scope (token :: tokens) := by
  refine measured_take_bind ((measured_nested (by grind) fun room less => ?_).bind ?_)
  · exact measured_delimited fun rest fewer => grammar.expression (by grind)
  · exact fun _ rest fewer => grammar.members (by grind)

/-- An index that is indexed again is one level deeper than the two brackets between them. -/
theorem Measured.indexedRule (grammar : parse.Measured) {target : Node}
    (enough : ample → tokens.length + 2 ≤ scope.room) :
    (parse.indexed target).Measured ample scope (token :: tokens) := by
  refine measured_take_bind ((measured_nested (by grind) fun room less => ?_).bind ?_)
  · exact grammar.expression (by grind)
  intro index rest fewer
  apply measured_expectClosing_bind
  rintro closed rest rfl
  apply measured_eat_bind
  · rintro equals rest rfl
    refine (measured_nested (by grind) fun room less => ?_).bind fun _ _ _ => measured_pure
    exact grammar.expression (by grind)
  · intro _
    refine measured_sees_bind (measured_ite (fun ahead => ?_) fun _ => ?_)
    · obtain ⟨opened, rest, rfl, _⟩ := startsWith_iff.mp ahead
      exact grammar.call (by grind)
    refine measured_sees_bind (measured_ite (fun ahead => ?_) fun _ => ?_)
    · obtain ⟨opened, rest, rfl, _⟩ := startsWith_iff.mp ahead
      exact measured_nested (by grind) fun room less => grammar.indexed (by grind)
    · exact grammar.members (by grind)

/-- A value that is assigned opens a level behind the name and the sign. -/
theorem Measured.assigned (grammar : parse.Measured) {target : Token}
    {operator : AssignmentOperator} (enough : ample → tokens.length + 2 ≤ scope.room) :
    (parse.assigned target operator).Measured ample scope tokens := by
  refine (measured_nested (by grind) fun room less => ?_).bind fun _ _ _ => measured_pure
  exact grammar.expression (by grind)

/-- An assignment or an update by an operator opens at most one level. -/
theorem Measured.namedOperator (grammar : parse.Measured) {name : Token} {operator : Operator}
    (enough : ample → tokens.length + 2 ≤ scope.room) :
    (parse.namedOperator name operator).Measured ample scope (token :: tokens) := by
  refine measured_peekSecond_bind ?_
  cases tokens with
  | nil => exact measured_pure
  | cons second tokens =>
    refine measured_ite (fun _ => ?_) fun _ => measured_ite (fun _ => ?_) fun _ => measured_pure
    · cases AssignmentOperator.compound? operator with
      | none => exact measured_pure
      | some assignment => exact measured_skip_bind (grammar.assigned (by grind))
    · cases UpdateOperator.doubled? operator with
      | none => exact measured_pure
      | some update => exact measured_skip_bind measured_pure

/-- What follows a name is read at the level of the name. -/
theorem Measured.namedRule (grammar : parse.Measured) {assignmentDue : Bool}
    (enough : ample → tokens.length ≤ scope.room) :
    (parse.named assignmentDue).Measured ample scope tokens := by
  refine measured_peek_bind ?_
  cases tokens with
  | nil => exact measured_failAtEnd
  | cons name tokens =>
    refine measured_skip_bind (measured_peek_bind ?_)
    cases tokens with
    | nil => exact measured_ite (fun _ => measured_fail (by simp)) fun _ => measured_pure
    | cons follower tokens =>
      have enough : ample → tokens.length + 2 ≤ scope.room := enough
      obtain ⟨kind, location⟩ := follower
      cases kind with
      | operator operator => exact grammar.namedOperator enough
      | punctuation mark =>
        cases mark with
        | equals => exact measured_skip_bind (grammar.assigned enough)
        | openParen => exact grammar.call enough
        | dot | colon => exact grammar.members enough
        | openBracket => exact grammar.indexedRule enough
        | _ => exact measured_pure
      | _ => exact measured_pure

/-- A value in parentheses has room behind the opener. -/
theorem Measured.parenthesized (grammar : parse.Measured)
    (enough : ample → tokens.length + 1 ≤ scope.room) :
    parse.parenthesized.Measured ample scope (token :: tokens) := by
  refine measured_take_bind (measured_atEnd_bind (measured_ite (fun _ => ?_) fun _ => ?_))
  · exact measured_fail (by simp)
  refine measured_eat_bind (fun _ _ _ => measured_pure) fun _ => ?_
  refine (grammar.expression enough).bind fun inner rest fewer => ?_
  exact measured_expectClosing.bind fun _ _ _ => measured_pure

/-- The elements of an array have room behind the opener. -/
theorem Measured.array (grammar : parse.Measured)
    (enough : ample → tokens.length + 1 ≤ scope.room) :
    parse.array.Measured ample scope (token :: tokens) := by
  refine measured_take_bind (Measured.bind ?_ fun _ _ _ => measured_pure)
  exact measured_delimited fun rest fewer => grammar.expression (by grind)

/-- A key in brackets is one level deeper than the bracket that is passed for it. -/
theorem Measured.entry (grammar : parse.Measured)
    (enough : ample → tokens.length + 1 ≤ scope.room) :
    parse.entry.Measured ample scope tokens := by
  apply measured_eat_bind
  · rintro opened tokens rfl
    refine (measured_nested (by grind) fun room less => ?_).bind ?_
    · exact grammar.expression (by grind)
    intro key rest fewer
    refine measured_expectClosing.bind fun _ rest shorter => ?_
    refine measured_eat_bind ?_ fun _ => measured_pure
    rintro equals rest rfl
    exact (grammar.expression (by grind)).map
  · intro _
    have item : (Entry.item <$> parse .expression).Measured ample scope tokens :=
      (grammar.expression enough).map
    refine measured_peek_bind ?_
    cases tokens.head?.filter Token.isIdentifier with
    | none => exact item
    | some name =>
      refine measured_peekSecond_bind (measured_ite (fun _ => ?_) fun _ => item)
      exact measured_skip_bind (grammar.expression (by grind)).map

/-- The entries of an object literal have room behind the opener. -/
theorem Measured.object (grammar : parse.Measured)
    (enough : ample → tokens.length + 1 ≤ scope.room) :
    parse.object.Measured ample scope (token :: tokens) := by
  refine measured_take_bind (Measured.bind ?_ fun _ _ _ => measured_pure)
  exact measured_delimited fun rest fewer => grammar.entry (by grind)

/-- The operand of a negation has room behind the mark. -/
theorem Measured.negation (grammar : parse.Measured)
    (enough : ample → tokens.length + 1 ≤ scope.room) :
    parse.negation.Measured ample scope (token :: tokens) := by
  refine measured_take_bind (measured_atEnd_bind (measured_ite (fun _ => ?_) fun _ => ?_))
  · exact measured_fail (by simp)
  · exact (grammar.expression enough).bind fun _ _ _ => measured_pure

/-- A function without a name has room behind its keyword. -/
theorem Measured.lambda (grammar : parse.Measured)
    (enough : ample → tokens.length + 1 ≤ scope.room) :
    parse.lambda.Measured ample scope (token :: tokens) := by
  refine measured_take_bind (measured_eat_bind ?_ fun _ => measured_failHere (by simp))
  rintro opened tokens rfl
  refine (measured_delimited fun _ _ => measured_expectIdentifier).bind fun _ rest fewer => ?_
  exact (grammar.body (by grind)).bind fun _ _ _ => measured_pure

/-- A form in brackets opens its level before it passes the bracket. -/
theorem Measured.primary (grammar : parse.Measured)
    (enough : ample → tokens.length + 1 ≤ scope.room) :
    parse.primary.Measured ample scope tokens := by
  refine measured_peek_bind ?_
  cases tokens with
  | nil => exact measured_failAtEnd
  | cons token tokens =>
    obtain ⟨kind, location⟩ := token
    cases kind with
    | punctuation mark =>
      cases mark with
      | openParen =>
        exact measured_nested (by grind) fun room less => grammar.parenthesized (by grind)
      | openBracket => exact measured_nested (by grind) fun room less => grammar.array (by grind)
      | openBrace => exact measured_nested (by grind) fun room less => grammar.object (by grind)
      | bang => exact measured_nested (by grind) fun room less => grammar.negation (by grind)
      | _ => exact measured_fail (by simp)
    | identifier name => exact grammar.namedRule (by grind)
    | keyword keyword =>
      cases keyword with
      | fn => exact measured_nested (by grind) fun room less => grammar.lambda (by grind)
      | _ => exact measured_skip_bind measured_pure
    | otherMark character unknown => exact measured_fail (by simp)
    | _ => exact measured_skip_bind measured_pure

/-- Operators and their operands open no level of their own. -/
theorem Measured.climb (grammar : parse.Measured) {budget : Nat} {left : Node} {strength : Nat}
    (enough : ample → tokens.length + 1 ≤ scope.room) :
    (parse.climb budget left strength).Measured ample scope tokens := by
  induction budget generalizing left strength tokens with
  | zero => exact measured_pure
  | succ budget ih =>
    refine measured_peek_bind ?_
    cases tokens.head?.bind Token.operator? with
    | none => exact measured_pure
    | some operator =>
      refine measured_ite (fun _ => measured_pure) fun _ => measured_skip_bind ?_
      refine (grammar.primary (by grind)).bind fun operand rest fewer => ?_
      refine (ih (by grind)).bind fun right rest fewer => ?_
      exact ih (by grind)

/-- An expression opens no level of its own. -/
theorem Measured.expressionRule (grammar : parse.Measured)
    (enough : ample → tokens.length + 1 ≤ scope.room) :
    parse.expression.Measured ample scope tokens := by
  refine (grammar.primary enough).bind fun operand rest fewer => ?_
  refine measured_peek_bind (measured_ite (fun _ => ?_) fun _ => measured_pure)
  refine measured_peekSecond_bind (measured_ite (fun _ => ?_) fun _ => measured_pure)
  exact measured_left_bind (grammar.climb (by grind))

/-- A declaration has room behind its keyword. -/
theorem Measured.declaration (grammar : parse.Measured)
    (enough : ample → tokens.length + 1 ≤ scope.room) :
    parse.declaration.Measured ample scope (token :: tokens) := by
  refine measured_take_bind (measured_expectIdentifier.bind fun name rest fewer => ?_)
  refine measured_eat_bind ?_ fun _ => measured_pure
  rintro equals rest rfl
  exact (grammar.expression (by grind)).bind fun _ _ _ => measured_pure

/-- A further test opens its level before it passes its keyword. -/
theorem Measured.alternate (grammar : parse.Measured)
    (enough : ample → tokens.length + 1 ≤ scope.room) :
    parse.alternate.Measured ample scope tokens := by
  refine measured_seesKeyword_bind (measured_ite (fun _ => ?_) fun _ => ?_)
  · exact measured_skip_bind (grammar.block (by grind)).map
  refine measured_seesKeyword_bind (measured_ite (fun ahead => ?_) fun _ => measured_pure)
  obtain ⟨keyword, rest, rfl, _⟩ := startsWithKeyword_iff.mp ahead
  refine Measured.map ?_
  exact measured_nested (by grind) fun room less => grammar.conditional (by grind)

/-- An `if` has room behind its keyword. -/
theorem Measured.conditionalRule (grammar : parse.Measured)
    (enough : ample → tokens.length + 1 ≤ scope.room) :
    (Grammar.conditional parse).Measured ample scope (token :: tokens) := by
  refine measured_take_bind ?_
  refine (grammar.expression enough).bind fun test rest fewer => ?_
  refine (grammar.body (by grind)).bind fun consequent rest fewer => ?_
  refine measured_eatSemicolonBefore.bind fun _ rest fewer => ?_
  exact (grammar.alternate (by grind)).bind fun _ _ _ => measured_pure

/-- A `while` loop has room behind its keyword. -/
theorem Measured.whileLoop (grammar : parse.Measured)
    (enough : ample → tokens.length + 1 ≤ scope.room) :
    parse.whileLoop.Measured ample scope (token :: tokens) := by
  refine measured_take_bind ?_
  refine (grammar.expression enough).bind fun test rest fewer => ?_
  exact (grammar.body (by grind)).bind fun _ _ _ => measured_pure

/-- A `do` loop has room behind its keyword. -/
theorem Measured.doWhileLoop (grammar : parse.Measured)
    (enough : ample → tokens.length + 1 ≤ scope.room) :
    parse.doWhileLoop.Measured ample scope (token :: tokens) := by
  refine measured_take_bind ?_
  refine (grammar.body enough).bind fun body rest fewer => ?_
  refine measured_eatSemicolonBefore.bind fun _ rest fewer => ?_
  refine measured_seesKeyword_bind (measured_ite (fun _ => ?_) fun _ => ?_)
  · refine measured_skip_bind (Measured.bind ?_ fun _ _ _ => measured_pure)
    exact grammar.expression (by grind)
  · exact measured_failHere (by simp)

/-- The step of a `for` loop has room behind the comma. -/
theorem Measured.forUpdate (grammar : parse.Measured) {initial : Node}
    (enough : ample → tokens.length + 1 ≤ scope.room) :
    (parse.forUpdate initial).Measured ample scope tokens := by
  have missing : (failHere (.expectedToken "'comma'" .forLoop) : Parser Node).Measured ample scope
      tokens := measured_failHere (by simp)
  apply measured_eat_bind
  · rintro comma rest rfl
    exact grammar.statement (by grind)
  · intro _
    cases initial with
    | declaration name value location =>
      exact measured_atEnd_bind (measured_ite (fun _ => missing) fun _ => measured_pure)
    | _ => exact missing

/-- A `for` loop has room behind its keyword. -/
theorem Measured.forLoop (grammar : parse.Measured)
    (enough : ample → tokens.length + 1 ≤ scope.room) :
    parse.forLoop.Measured ample scope (token :: tokens) := by
  refine measured_take_bind ?_
  refine (grammar.statement enough).bind fun initial rest fewer => ?_
  refine measured_eat_bind ?_ fun _ => measured_failHere (by simp)
  rintro comma rest rfl
  refine (grammar.expression (by grind)).bind fun test rest fewer => ?_
  refine (grammar.forUpdate (by grind)).bind fun update rest fewer => ?_
  exact (grammar.body (by grind)).bind fun _ _ _ => measured_pure

/-- Looking through the entries of a switch for cases opens no level. -/
theorem measured_clausesOf {shown : String} {entries : List Node} :
    (clausesOf shown entries).Measured ample scope tokens := by
  induction entries with
  | nil => exact measured_pure
  | cons entry entries ih =>
    unfold clausesOf
    cases entry.clause? with
    | none => exact measured_fail (by simp)
    | some branch => exact ih.map

/-- A switch has room behind its keyword. -/
theorem Measured.switch (grammar : parse.Measured)
    (enough : ample → tokens.length + 1 ≤ scope.room) :
    parse.switch.Measured ample scope (token :: tokens) := by
  refine measured_take_bind ?_
  refine (grammar.expression enough).bind fun subject rest fewer => ?_
  refine (grammar.blockParts (by grind)).bind fun _ rest fewer => ?_
  exact measured_clausesOf.bind fun _ _ _ => measured_pure

/-- Further values of a case open no level of their own. -/
theorem Measured.alternatives (grammar : parse.Measured) {budget : Nat}
    (enough : ample → tokens.length + 1 ≤ scope.room) :
    (parse.alternatives budget).Measured ample scope tokens := by
  induction budget generalizing tokens with
  | zero => exact measured_pure
  | succ budget ih =>
    refine measured_eat_bind ?_ fun _ => measured_pure
    rintro bar tokens rfl
    refine (grammar.expression (by grind)).bind fun value rest fewer => ?_
    exact (ih (by grind)).bind fun _ _ _ => measured_pure

/-- The keyword of a case is passed with its values, so there are fewer tokens behind them. -/
theorem Measured.clauseHead_bind {α : Type} (grammar : parse.Measured)
    {next : Clause.Kind × Pattern → Parser α} (enough : ample → tokens.length + 1 ≤ scope.room)
    (goes : ∀ head rest, rest.length ≤ tokens.length → (next head).Measured ample scope rest) :
    (parse.clauseHead >>= next).Measured ample scope (token :: tokens) := by
  have values : (do
      let first ← parse .expression
      let others ← parse.alternatives (← left)
      return (.case, .ofValues first others) : Parser (Clause.Kind × Pattern)).Measured ample scope
        tokens := by
    refine (grammar.expression enough).bind fun first rest fewer => measured_left_bind ?_
    exact (grammar.alternatives (by grind)).bind fun _ _ _ => measured_pure
  have whole : parse.clauseHead.Measured ample scope (token :: tokens) := by
    refine measured_seesKeyword_bind (measured_ite (fun _ => ?_) fun _ => ?_)
    · exact measured_skip_bind measured_pure
    · exact measured_skip_bind values
  refine whole.bind_of_yields fun head rest read => goes head rest ?_
  rcases yields_ite.mp (yields_seesKeyword_bind.mp read) with ⟨_, read⟩ | ⟨_, read⟩
  · have read := yields_skip_bind.mp read
    obtain ⟨_, rfl⟩ := yields_pure.mp read
    exact Nat.le_refl _
  · exact values.length_le (yields_skip_bind.mp read)

/-- The body of a case has room if there is one level more than tokens. -/
theorem Measured.clauseBody (grammar : parse.Measured)
    (enough : ample → tokens.length + 1 ≤ scope.room) :
    parse.clauseBody.Measured ample scope tokens := by
  refine measured_sees_bind (measured_ite (fun _ => grammar.block enough) fun _ => ?_)
  refine measured_eat_bind ?_ fun _ => measured_failHere (by simp)
  rintro colon rest rfl
  exact grammar.statement (by grind)

/-- A case has room behind its keyword. -/
theorem Measured.clause (grammar : parse.Measured)
    (enough : ample → tokens.length + 1 ≤ scope.room) :
    parse.clause.Measured ample scope (token :: tokens) := by
  refine measured_here_bind (grammar.clauseHead_bind enough fun _ rest fewer => ?_)
  exact (grammar.clauseBody (by grind)).bind fun _ _ _ => measured_pure

/-- Looking through the arguments of a signature for names opens no level. -/
theorem measured_parametersOf {arguments : List Node} :
    (parametersOf arguments).Measured ample scope tokens := by
  induction arguments with
  | nil => exact measured_pure
  | cons argument arguments ih =>
    unfold parametersOf
    cases argument.identifier? with
    | none => exact measured_fail (by simp)
    | some name => exact ih.map

/-- A function with a name has room behind its keyword. -/
theorem Measured.namedFunction (grammar : parse.Measured)
    (enough : ample → tokens.length + 1 ≤ scope.room) :
    parse.namedFunction.Measured ample scope (token :: tokens) := by
  refine measured_take_bind (measured_peek_bind (measured_ite (fun _ => ?_) fun _ => ?_))
  · refine (grammar.namedRule (by grind)).bind fun title rest fewer => ?_
    cases title.signature? with
    | none => exact measured_failHere (by simp)
    | some signature =>
      refine measured_parametersOf.bind fun _ rest fewer => ?_
      exact (grammar.body (by grind)).bind fun _ _ _ => measured_pure
  · exact measured_failHere (by simp)

/-- The end of a function has room behind its keyword. -/
theorem Measured.returns (grammar : parse.Measured)
    (enough : ample → tokens.length + 1 ≤ scope.room) :
    parse.returns.Measured ample scope (token :: tokens) := by
  refine measured_take_bind (measured_peek_bind ?_)
  cases tokens with
  | nil => exact measured_pure
  | cons next tokens =>
    refine measured_ite (fun _ => measured_pure) fun _ => ?_
    exact (grammar.expression enough).bind fun _ _ _ => measured_pure

/-- The statement of a keyword has room behind the keyword. -/
theorem Measured.keywordStatement (grammar : parse.Measured) {keyword : Located Keyword}
    (enough : ample → tokens.length + 1 ≤ scope.room) :
    (parse.keywordStatement keyword).Measured ample scope (token :: tokens) := by
  obtain ⟨keyword, location⟩ := keyword
  cases keyword with
  | «let» | var => exact grammar.declaration enough
  | «if» => exact grammar.conditionalRule enough
  | «while» => exact grammar.whileLoop enough
  | «do» => exact grammar.doWhileLoop enough
  | «for» => exact grammar.forLoop enough
  | switch => exact grammar.switch enough
  | case | default => exact grammar.clause enough
  | fn =>
    refine measured_peekSecond_bind (measured_ite (fun _ => ?_) fun _ => ?_)
    · exact grammar.lambda enough
    · exact grammar.namedFunction enough
  | «return» => exact grammar.returns enough
  | «else» | elseif => exact measured_fail (by simp)

/-- A statement opens its level before it passes its first token. -/
theorem Measured.statementRule (grammar : parse.Measured)
    (enough : ample → tokens.length + 1 ≤ scope.room) :
    parse.statement.Measured ample scope tokens := by
  refine measured_nested (by grind) fun room less => measured_peek_bind ?_
  cases tokens with
  | nil => exact measured_failAtEnd
  | cons token tokens =>
    refine measured_record_bind ?_
    obtain ⟨kind, location⟩ := token
    cases kind with
    | keyword keyword => exact grammar.keywordStatement (by grind)
    | identifier name => exact grammar.namedRule (by grind)
    | lineComment text | blockComment text => exact measured_skip_bind measured_pure
    | _ => exact measured_fail (by simp)

/-- If the grammar below is measured, so is the one that is built from it. -/
theorem Measured.step (grammar : parse.Measured) : parse.step.Measured where
  statement := grammar.statementRule
  expression := grammar.expressionRule
  named := grammar.namedRule
  indexed := grammar.indexedRule
  conditional := grammar.conditionalRule

/-- With any number of calls left the grammar is measured. -/
theorem measured_below (bound : Nat) : (below bound).Measured := by
  induction bound with
  | zero =>
    constructor
    all_goals exact fun _ => measured_failAtEnd
  | succ bound ih => exact ih.step

/-- The number of tokens in front of a part only chooses the grammar that reads it. -/
theorem measured_full_of_below {goal : Goal}
    (measured : (below (tokens.length + 1) goal).Measured ample scope tokens) :
    (full goal).Measured ample scope tokens :=
  measured.of_eq (fun _ => rfl) (Nat.le_refl _)

/-- The whole grammar is measured. -/
theorem measured_full : full.Measured where
  statement enough := measured_full_of_below ((measured_below _).statement enough)
  expression enough := measured_full_of_below ((measured_below _).expression enough)
  named enough := measured_full_of_below ((measured_below _).named enough)
  indexed enough := measured_full_of_below ((measured_below _).indexed enough)
  conditional enough := measured_full_of_below ((measured_below _).conditional enough)

/-- Statements up to the end of the source are measured. -/
theorem Measured.statements (grammar : parse.Measured) {budget : Nat}
    (enough : ample → tokens.length + 1 ≤ scope.room) :
    (parse.statements budget).Measured ample scope tokens := by
  induction budget generalizing tokens with
  | zero => exact measured_pure
  | succ budget ih =>
    refine measured_atEnd_bind (measured_ite (fun _ => measured_pure) fun _ => ?_)
    refine (grammar.statementRule enough).bind fun first rest fewer => ?_
    have others (left : List Token) (shorter : left.length ≤ rest.length) :
        (parse.statements budget).Measured ample scope left := ih (by grind)
    apply measured_eat_bind
    · rintro semicolon rest rfl
      exact (others rest (Nat.le_succ _)).bind fun _ _ _ => measured_pure
    · exact fun _ => (others rest (Nat.le_refl _)).bind fun _ _ _ => measured_pure

/-- A program is measured. -/
theorem Measured.program (grammar : parse.Measured)
    (enough : ample → tokens.length + 1 ≤ scope.room) :
    parse.program.Measured ample scope tokens := by
  refine measured_left_bind ((grammar.statements enough).bind fun statements rest fewer => ?_)
  cases statements.findSome? Node.clause? with
  | none => exact measured_pure
  | some branch => exact measured_fail (by simp)

end Grammar

namespace Session

/-- A limit that is not reached makes no difference: with every larger limit the answer is the
same, value or error, and so is the place where the reading stops. A limit that is larger than the
number of tokens is never reached. -/
theorem parse_larger_limit (session : Session) (wider : Options)
    (larger : session.options.maxDepth ≤ wider.maxDepth) :
    ((∀ limit location, session.parse.1 ≠ .error ⟨.nestingTooDeep limit, location⟩) →
      { session with options := wider }.parse.1 = session.parse.1 ∧
      { session with options := wider }.parse.2.position = session.parse.2.position) ∧
    (session.tokens.length < session.options.maxDepth →
      ∀ limit location, session.parse.1 ≠ .error ⟨.nestingTooDeep limit, location⟩) := by
  have measured : Parser.program.Measured (session.tokens.length < session.options.maxDepth)
      (Scope.ofTokens session.options session.tokens) session.rest := by
    refine Grammar.measured_full.program fun enough => ?_
    have shorter : session.rest.length ≤ session.tokens.length := by
      rw [Session.rest, List.length_drop]
      omega
    exact Nat.lt_of_le_of_lt shorter enough
  constructor
  · intro unreached
    have same := measured.steady (Scope.ofTokens wider session.tokens) rfl larger
      (by rintro ⟨limit, location, reached⟩; exact unreached limit location reached)
    constructor
    · exact congrArg Reply.outcome same
    · exact congrArg (fun reply => session.tokens.length - reply.rest.length) same
  · intro enough limit location reached
    exact measured.fits enough ⟨limit, location, reached⟩

/-- A call in a call opens three levels. Two are too few; with three the answer is the one that
the usual limit gives, though there are more tokens than levels. -/
theorem parse_larger_limit_call :
    let tokens : List Token := [⟨.identifier "f", {}⟩, ⟨.punctuation .openParen, {}⟩,
      ⟨.identifier "g", {}⟩, ⟨.punctuation .openParen, {}⟩, ⟨.punctuation .closeParen, {}⟩,
      ⟨.punctuation .closeParen, {}⟩]
    (Session.mk { maxDepth := 2 } tokens 0).parse.1 = .error ⟨.nestingTooDeep 2, {}⟩ ∧
    (Session.mk {} tokens 0).parse.1 = .ok
      [.call (.leaf ⟨.identifier "f", {}⟩) [.call (.leaf ⟨.identifier "g", {}⟩) [] {}] {}] ∧
    (Session.mk {} tokens 0).parse.2.position = 6 ∧
    ∀ limit location,
      (Session.mk { maxDepth := 7 } tokens 0).parse.1 ≠
        .error ⟨.nestingTooDeep limit, location⟩ := by
  intro tokens
  have narrow : (Session.mk { maxDepth := 3 } tokens 0).parse.1 = .ok
      [.call (.leaf ⟨.identifier "f", {}⟩) [.call (.leaf ⟨.identifier "g", {}⟩) [] {}] {}] := rfl
  obtain ⟨outcome, position⟩ := (parse_larger_limit (Session.mk { maxDepth := 3 } tokens 0) {}
    (by decide)).1 (by rw [narrow]; exact fun _ _ same => nomatch same)
  have stopped : (Session.mk { maxDepth := 3 } tokens 0).parse.2.position = 6 := by
    decide +kernel
  refine ⟨rfl, outcome.trans narrow, position.trans stopped, ?_⟩
  exact (parse_larger_limit (Session.mk { maxDepth := 7 } tokens 0) {} (by decide)).2 (by decide)

end Session

end Oreo
