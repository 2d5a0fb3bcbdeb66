import Oreo.Proofs.Parse.Progress

/-!
# Every reading ends

A reading that begins at a place among the tokens ends at a place that is not before it and not
behind the last token. It ends farther on if it succeeds, and a whole program ends behind all
tokens. That it ends at all does not rest on the limit on nesting, nor on the bounds that the
definitions hold:

* no rule calls another one so often, one call inside the other, that the grammar below the last
  call is asked for anything (`Grammar.Settles`);
* no loop goes round so often that it is stopped by the number of rounds that it is given
  (`Grammar.LoopsEnd`).
-/

namespace Oreo

/-- How many of the tokens stand before those that are left. -/
def Reply.cursor {α : Type} (reply : Reply α) (tokens : List Token) : Nat :=
  tokens.length - reply.rest.length

/-- The cursor behind a reply is the number of tokens it took. -/
theorem Reply.cursor_of_append {α : Type} {reply : Reply α} {front tokens : List Token}
    (whole : front ++ reply.rest = tokens) : reply.cursor tokens = front.length := by
  rw [Reply.cursor, ← whole, List.length_append, Nat.add_sub_cancel]

/-- A reading that began at the given place among the tokens has ended at a place among them that
is not before it. -/
structure Reply.StopsBehind {α : Type} (reply : Reply α) (tokens : List Token) (position : Nat) :
    Prop where
  /-- What is left are the tokens from a place on. -/
  rest : reply.rest = tokens.drop (reply.cursor tokens)
  /-- The place is not before the one where the reading began. -/
  behind : position ≤ reply.cursor tokens
  /-- The place is not behind the last token. -/
  inside : reply.cursor tokens ≤ tokens.length

/-- The routines that read one part of a program. -/
inductive Routine where
  | statement
  | expression
  | primary
  | named (assignmentDue : Bool)
  | block
  | body

/-- The routine, with the grammar that it uses for its parts. -/
def Routine.parser (parse : Grammar) : Routine → Parser Node
  | .statement => parse.statement
  | .expression => parse.expression
  | .primary => parse.primary
  | .named assignmentDue => parse.named assignmentDue
  | .block => parse.block
  | .body => parse.body

namespace Parser

variable {α : Type} {parser other : Parser α} {least position : Nat} {scope : Scope}
  {tokens : List Token}

/-- A parser that advances stops at or behind its start. -/
theorem Advances.stopsBehind (advances : parser.Advances other least scope (tokens.drop position))
    (inside : position ≤ tokens.length) :
    (parser scope (tokens.drop position)).StopsBehind tokens position := by
  have suffix := advances.suffix
  have short := suffix.length_le
  rw [List.length_drop] at short
  refine ⟨List.suffix_iff_eq_drop.mp (suffix.trans (List.drop_suffix position tokens)), ?_, ?_⟩
  · unfold Reply.cursor
    omega
  · exact Nat.sub_le _ _

/-- A parser that advances by a token stops behind its start when it succeeds. -/
theorem Advances.lt_cursor (advances : parser.Advances other 1 scope (tokens.drop position))
    (inside : position ≤ tokens.length) {value : α}
    (found : (parser scope (tokens.drop position)).outcome = .ok value) :
    position < (parser scope (tokens.drop position)).cursor tokens := by
  have taken := advances.taken value found
  rw [List.length_drop] at taken
  unfold Reply.cursor
  omega

end Parser

namespace Grammar

open Oreo.Parser

/-- The answer on the tokens is found with no more calls of the rules in one another than there are
tokens, and one: it is the same whatever answers the calls below. -/
def Settles {α : Type} (run : Grammar → Parser α) (scope : Scope) (tokens : List Token) : Prop :=
  ∀ stuck calls, tokens.length < calls →
    run (unrolled stuck calls) scope tokens = run full scope tokens

/-- The loop ends by itself: as many rounds as there are tokens are enough, and with more of them it
answers the same. -/
def EndsAlone {α : Type} (loop : Nat → Parser α) (scope : Scope) (tokens : List Token) : Prop :=
  ∀ rounds, tokens.length ≤ rounds → loop rounds scope tokens = loop tokens.length scope tokens

/-- All loops of the grammar end by themselves. -/
structure LoopsEnd (parse : Grammar) (scope : Scope) (tokens : List Token) : Prop where
  statements : EndsAlone parse.statements scope tokens
  block (opened : Location) : EndsAlone (parse.blockBody opened) scope tokens
  operators (left : Node) (strength : Nat) :
    EndsAlone (fun rounds => parse.climb rounds left strength) scope tokens
  alternatives : EndsAlone parse.alternatives scope tokens
  values (bracket : Bracket) (context : Construct) (opened : Location) :
    EndsAlone (separated bracket context opened (parse .expression)) scope tokens
  entries (bracket : Bracket) (context : Construct) (opened : Location) :
    EndsAlone (separated bracket context opened parse.entry) scope tokens
  parameters (bracket : Bracket) (context : Construct) (opened : Location) :
    EndsAlone (separated bracket context opened (expectIdentifier context)) scope tokens

variable {parse other : Grammar} {bound : Nat} {scope : Scope} {tokens : List Token}

/-- Each routine takes a token. -/
theorem Advances.routine (grammar : parse.Advances other bound) (routine : Routine)
    (fits : tokens.length < bound) :
    (routine.parser parse).Advances (routine.parser other) 1 scope tokens := by
  have reaches : tokens.length ≤ bound := Nat.le_of_lt fits
  cases routine with
  | statement => exact grammar.statementRule reaches
  | expression => exact grammar.expressionRule reaches
  | primary => exact grammar.primary reaches
  | named assignmentDue => exact grammar.namedRule reaches
  | block => exact grammar.block reaches
  | body => exact grammar.body fits

/-- In a grammar that advances every loop ends. -/
theorem Advances.loopsEnd (grammar : parse.Advances parse bound) (fits : tokens.length < bound) :
    parse.LoopsEnd scope tokens where
  statements _ enough := (grammar.statements (Nat.le_of_lt fits) enough (Nat.le_refl _)).same
  block _ _ enough := (grammar.blockBody fits enough (Nat.le_refl _)).same
  operators _ _ _ enough := (grammar.climb (Nat.le_of_lt fits) enough (Nat.le_refl _)).same
  alternatives _ enough := (grammar.alternatives fits enough (Nat.le_refl _)).same
  values _ _ _ _ enough := (advances_separated
    (fun _ fewer => grammar.expression (Nat.lt_of_le_of_lt fewer fits)) enough (Nat.le_refl _)).same
  entries _ _ _ _ enough := (advances_separated
    (fun _ fewer => grammar.entry (Nat.lt_of_le_of_lt fewer fits)) enough (Nat.le_refl _)).same
  parameters _ _ _ _ enough := (advances_separated
    (fun _ _ => advances_expectIdentifier) enough (Nat.le_refl _)).same

end Grammar

open Grammar

/-- Reading ends, and behind where it began, for all tokens, from each place among them, and with
any limit and any number of levels that are open already. Each routine ends among the tokens, and
farther on if it succeeds; a program that is read takes all tokens. Neither the calls of the rules
nor the rounds of the loops are ever stopped from outside. -/
theorem reading_ends (scope : Scope) {tokens : List Token} {position : Nat}
    (inside : position ≤ tokens.length) :
    (∀ routine : Routine,
      (routine.parser full scope (tokens.drop position)).StopsBehind tokens position ∧
      (∀ node, (routine.parser full scope (tokens.drop position)).outcome = .ok node →
        position < (routine.parser full scope (tokens.drop position)).cursor tokens) ∧
      Settles routine.parser scope (tokens.drop position)) ∧
    (Parser.program scope (tokens.drop position)).StopsBehind tokens position ∧
    (∀ program, (Parser.program scope (tokens.drop position)).outcome = .ok program →
      (Parser.program scope (tokens.drop position)).cursor tokens = tokens.length) ∧
    Settles Grammar.program scope (tokens.drop position) ∧
    full.LoopsEnd scope (tokens.drop position) := by
  have grammar (bound : Nat) : full.Advances full bound := advances_full_self
  refine ⟨fun routine => ?_, ?_, ?_, ?_, ?_⟩
  · have advances : (routine.parser full).Advances (routine.parser full) 1 scope
        (tokens.drop position) := (grammar _).routine routine (Nat.lt_succ_self _)
    refine ⟨advances.stopsBehind inside, fun node => advances.lt_cursor inside, ?_⟩
    intro stuck calls enough
    exact ((advances_full (Nat.le_refl calls)).routine routine enough).same
  · exact ((grammar _).program (Nat.le_refl _)).stopsBehind inside
  · intro program found
    have ended := (reads_of_yields_program ⟨found, rfl⟩).2.1
    rw [Reply.cursor, ended]
    rfl
  · intro stuck calls enough
    exact ((advances_full (Nat.le_refl calls)).program (Nat.le_of_lt enough)).same
  · exact (grammar _).loopsEnd (Nat.lt_succ_self _)

/-- In `f(a` a statement ends behind the last token although it fails. The largest limit does not
keep it from ending, with three levels open already. -/
theorem reading_ends_open_call :
    let tokens : List Token := [⟨.identifier "f", ⟨0, 1, 1, 1⟩⟩,
      ⟨.punctuation .openParen, ⟨1, 2, 1, 2⟩⟩, ⟨.identifier "a", ⟨2, 3, 1, 3⟩⟩]
    let scope : Scope := ⟨18446744073709551615, 18446744073709551612, tokens.getLast?⟩
    (Parser.statement scope tokens).outcome =
        .error ⟨.unclosedBracket .paren .arguments none, ⟨1, 2, 1, 2⟩⟩ ∧
      (Parser.statement scope tokens).cursor tokens = 3 ∧
      (Parser.statement scope tokens).StopsBehind tokens 0 ∧
      Settles Grammar.statement scope tokens := by
  intro tokens scope
  have ends := (reading_ends scope (Nat.zero_le tokens.length)).1 .statement
  exact ⟨rfl, rfl, ends.1, ends.2.2⟩

end Oreo
