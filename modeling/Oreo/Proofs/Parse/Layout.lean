import Oreo.Parse.Session
import Oreo.Proofs.Parse.Print

/-!
# Layout does not influence parsing

What is read depends on the tokens, and not on their places: two lists of the same tokens, laid out
differently, are read alike up to places.

Both are compared with the list of the same tokens without places. A parser that reads it answers
what it answers on the placed tokens, with all places taken out of the answer (`Parser.Erases`):
out of trees, errors and events. Each parser of the grammar is such, because what it decides, it
decides without looking at a place.
-/

namespace Oreo

/-- The event without its place. -/
def Event.unplaced : Event → Event
  | .entered token => .entered token.unplaced
  | .putBack behind => .putBack behind
  | .descended => .descended
  | .ascended => .ascended

/-- The answer without places. Those in its value are taken out as told. -/
def Reply.unplaced {α β : Type} (erase : α → β) (reply : Reply α) : Reply β where
  outcome :=
    match reply.outcome with
    | .ok value => .ok (erase value)
    | .error error => .error ⟨error.value, {}⟩
  rest := reply.rest.map Token.unplaced
  events := reply.events.map Event.unplaced

/-- A value that comes with a place, without places. -/
def unplacedPair {α β : Type} (erase : α → β) (pair : α × Location) : β × Location :=
  (erase pair.1, {})

/-- The value of a pair loses its places. -/
@[simp] theorem fst_unplacedPair {α β : Type} (erase : α → β) (pair : α × Location) :
    (unplacedPair erase pair).1 = erase pair.1 := rfl

/-- The place of a pair is taken out. -/
@[simp] theorem snd_unplacedPair {α β : Type} (erase : α → β) (pair : α × Location) :
    (unplacedPair erase pair).2 = {} := rfl

/-- A span without places ends without a place. -/
@[simp] theorem Location.through_empty : ({} : Location).through {} = {} := rfl

/-- A part that a rule asks for, without places. -/
def Goal.unplaced : Goal → Goal
  | .statement => .statement
  | .expression => .expression
  | .named => .named
  | .indexed target => .indexed target.unplaced
  | .conditional => .conditional

mutual

/-- No place is shown in the summary of a tree. -/
theorem Node.summary_unplaced : ∀ node : Node, node.unplaced.summary = node.summary
  | .member object property separator _ => by
    rw [Node.unplaced, Node.summary, Node.summary, object.summary_unplaced,
      property.summary_unplaced]
  | .clause branch => by
    rw [Node.unplaced, Node.summary, Node.summary, branch.summary_unplaced]
  | .leaf _ | .block .. | .declaration .. | .conditional .. | .whileLoop .. | .doWhileLoop ..
  | .forLoop .. | .switch .. | .function .. | .lambda .. | .returns .. | .binary ..
  | .negation .. | .update .. | .assignment .. | .call .. | .access .. | .elementAssignment ..
  | .array .. | .object .. | .unit .. => rfl

/-- No place is shown in the summary of a case. -/
theorem Clause.summary_unplaced : ∀ branch : Clause, branch.unplaced.summary = branch.summary
  | ⟨_, .none, _, _⟩ => rfl
  | ⟨_, .single value, _, _⟩ => by
    rw [Clause.unplaced, Pattern.unplaced, Clause.summary, Clause.summary, value.summary_unplaced]
  | ⟨_, .alternatives values, _, _⟩ => by
    rw [Clause.unplaced, Pattern.unplaced, Clause.summary, Clause.summary,
      Node.summaries_unplaced values]

/-- No place is shown in the summaries of trees. -/
theorem Node.summaries_unplaced : ∀ nodes : List Node,
    Node.summaries (Node.listUnplaced nodes) = Node.summaries nodes
  | [] => rfl
  | [node] => by
    rw [Node.listUnplaced, Node.listUnplaced, Node.summaries, Node.summaries, node.summary_unplaced]
  | node :: next :: others => by
    rw [Node.listUnplaced, Node.listUnplaced, Node.summaries, Node.summaries,
      node.summary_unplaced, ← Node.summaries_unplaced (next :: others), Node.listUnplaced]

end

/-- A case without places has no place. -/
theorem Clause.location_unplaced (branch : Clause) : branch.unplaced.location = {} := by
  cases branch
  rfl

/-- A node is a case with its places as it is without them. -/
theorem Node.clause?_unplaced (node : Node) :
    node.unplaced.clause? = node.clause?.map Clause.unplaced := by
  cases node <;> rfl

/-- Whether a token is a name does not depend on its place. -/
theorem Token.filter_isIdentifier_unplaced (token : Option Token) :
    (token.map Token.unplaced).filter Token.isIdentifier =
      (token.filter Token.isIdentifier).map Token.unplaced := by
  cases token with
  | none => rfl
  | some token =>
    have same : token.unplaced.isIdentifier = token.isIdentifier := rfl
    cases name : token.isIdentifier with
    | false => simp [Option.filter, same, name]
    | true => simp [Option.filter, same, name]

/-- A leaf is a name with its places as it is without them. -/
theorem Node.identifier?_unplaced (node : Node) :
    node.unplaced.identifier? = node.identifier?.map Token.unplaced := by
  cases node with
  | leaf token => exact Token.filter_isIdentifier_unplaced (some token)
  | _ => rfl

/-- The name and the arguments of a call lose their places with it. -/
theorem Node.signature?_unplaced (node : Node) :
    node.unplaced.signature? =
      node.signature?.map fun pair => (pair.1.unplaced, Node.listUnplaced pair.2) := by
  induction node using Node.signature?.induct with
  | case1 callee arguments location => rfl
  | case2 owner property separator location name arguments found ih =>
    simp [Node.signature?, ih, found]
  | case3 owner property separator location missing ih =>
    simp [Node.signature?, ih, missing]
  | case4 node notCall notMember =>
    cases node with
    | call callee arguments location => exact absurd rfl (notCall callee arguments location)
    | member owner property separator location =>
      exact absurd rfl (notMember owner property separator location)
    | _ => rfl

namespace Parser

/-- On tokens without places, the second parser answers what the first answers on the tokens, less
all places. The source has a last token, whose place is taken out too. -/
def Erases {α β : Type} (erase : α → β) (parser : Parser α) (other : Parser β) : Prop :=
  ∀ limit room last tokens,
    other ⟨limit, room, some last.unplaced⟩ (tokens.map Token.unplaced) =
      (parser ⟨limit, room, some last⟩ tokens).unplaced erase

variable {α β γ δ : Type}

/-- A value that is given loses its places. -/
theorem erases_pure {erase : α → β} {value : α} {result : β} (same : erase value = result) :
    (pure value : Parser α).Erases erase (pure result) := by
  intro limit room last tokens
  rw [← same]
  rfl

/-- Errors are the same but for their places. -/
theorem erases_fail {erase : α → β} {fault : ParseFault} {location : Location} :
    (fail fault location : Parser α).Erases erase (fail fault {}) :=
  fun _ _ _ _ => rfl

/-- Two parsers in order erase places if each does. -/
theorem Erases.bind {eraseFirst : α → β} {erase : γ → δ} {first : Parser α} {firstOther : Parser β}
    {next : α → Parser γ} {nextOther : β → Parser δ} (begins : first.Erases eraseFirst firstOther)
    (goes : ∀ value, (next value).Erases erase (nextOther (eraseFirst value))) :
    (first >>= next).Erases erase (firstOther >>= nextOther) := by
  intro limit room last tokens
  have begins := begins limit room last tokens
  rcases answer : first ⟨limit, room, some last⟩ tokens with ⟨error | value, rest, events⟩
  · rw [answer] at begins
    rw [bind_of_error begins, bind_of_error answer]
    rfl
  · rw [answer] at begins
    rw [bind_of_ok begins, bind_of_ok answer, goes value limit room last rest]
    simp only [Reply.unplaced, List.map_append]

/-- What is built from a value without places is what is built from the value, without places. -/
theorem Erases.map {erase : α → β} {eraseResult : γ → δ} {parser : Parser α} {other : Parser β}
    {build : α → γ} {buildOther : β → δ} (erases : parser.Erases erase other)
    (same : ∀ value, eraseResult (build value) = buildOther (erase value)) :
    (build <$> parser).Erases eraseResult (buildOther <$> other) :=
  erases.bind fun value => erases_pure (same value)

/-- A condition that does not depend on places chooses the same parser. -/
theorem erases_ite {condition conditionOther : Prop} [Decidable condition]
    [Decidable conditionOther] {erase : α → β} {first second : Parser α}
    {firstOther secondOther : Parser β} (same : condition ↔ conditionOther)
    (yes : first.Erases erase firstOther) (no : second.Erases erase secondOther) :
    (if condition then first else second).Erases erase
      (if conditionOther then firstOther else secondOther) := by
  by_cases holds : condition
  · rw [if_pos holds, if_pos (same.mp holds)]
    exact yes
  · rw [if_neg holds, if_neg (mt same.mpr holds)]
    exact no

/-- What is tested of a token that may be missing does not depend on its place if the test does
not. -/
theorem erases_ite_any {test : Token → Bool} {token : Option Token} {erase : α → β}
    {first second : Parser α} {firstOther secondOther : Parser β}
    (same : ∀ token : Token, test token.unplaced = test token)
    (yes : first.Erases erase firstOther) (no : second.Erases erase secondOther) :
    (if token.any test then first else second).Erases erase
      (if (token.map Token.unplaced).any test then firstOther else secondOther) := by
  refine erases_ite ?_ yes no
  cases token with
  | none => exact Iff.rfl
  | some token =>
    change test token = true ↔ test token.unplaced = true
    rw [same]

/-- An event loses its places. -/
theorem erases_record {event : Event} : (record event).Erases id (record event.unplaced) :=
  fun _ _ _ _ => rfl

/-- The current token loses its place. -/
theorem erases_peek : peek.Erases (Option.map Token.unplaced) peek := by
  intro limit room last tokens
  cases tokens <;> rfl

/-- The token behind the current one loses its place. -/
theorem erases_peekSecond : peekSecond.Erases (Option.map Token.unplaced) peekSecond := by
  intro limit room last tokens
  rcases tokens with _ | ⟨first, _ | ⟨second, tokens⟩⟩ <;> rfl

/-- There are as many tokens left without places. -/
theorem erases_left : left.Erases id left := by
  intro limit room last tokens
  unfold left
  rw [List.length_map]
  rfl

/-- As many tokens are skipped without places. -/
theorem erases_skip {count : Nat} : (skip count).Erases id (skip count) := by
  intro limit room last tokens
  unfold skip
  rw [← List.map_drop]
  rfl

/-- The end of the source, too, has no place if the last token has none. -/
theorem erases_here : here.Erases (fun _ => {}) here := by
  intro limit room last tokens
  cases tokens <;> rfl

/-- The end of the source, where a part is missing, is the same fault without places. -/
theorem erases_failAtEnd {erase : α → β} {context : Construct} :
    (failAtEnd context : Parser α).Erases erase (failAtEnd context) :=
  fun _ _ _ _ => rfl

/-- A level is opened for what is read without places as for what is read with them. -/
theorem erases_nested {erase : α → β} {parser : Parser α} {other : Parser β}
    (erases : parser.Erases erase other) : (nested parser).Erases erase (nested other) := by
  intro limit room last tokens
  cases room with
  | zero => exact (erases_here.bind fun _ => erases_fail) limit 0 last tokens
  | succ room =>
    have inner := erases limit room last tokens
    simp only [nested, inner, Reply.unplaced, List.map_cons, List.map_append, List.map_nil,
      Event.unplaced]

/-- The place of a token that is taken is taken out. -/
theorem erases_take : take.Erases (fun _ => {}) take :=
  erases_here.bind fun _ => erases_skip.bind fun _ => erases_pure rfl

/-- The end is in the same place without places. -/
theorem erases_atEnd : atEnd.Erases id atEnd :=
  erases_peek.bind fun token => erases_pure (by cases token <;> rfl)

/-- A mark is there or not, whatever its place. -/
theorem erases_sees {mark : Punctuation} : (sees mark).Erases id (sees mark) :=
  erases_peek.bind fun token => erases_pure (by cases token <;> rfl)

/-- A keyword is there or not, whatever its place. -/
theorem erases_seesKeyword {keyword : Keyword} :
    (seesKeyword keyword).Erases id (seesKeyword keyword) :=
  erases_peek.bind fun token => erases_pure (by cases token <;> rfl)

/-- A mark is taken if it is there, and its place is taken out. -/
theorem erases_eat {mark : Punctuation} : (eat mark).Erases (Option.map fun _ => {}) (eat mark) :=
  erases_sees.bind fun _ =>
    erases_ite Iff.rfl (erases_take.map fun _ => rfl) (erases_pure rfl)

/-- A fault at the current token shows its text, whatever its place. -/
theorem erases_failHere {erase : α → β} {fault : Option String → ParseFault} :
    (failHere fault : Parser α).Erases erase (failHere fault) := by
  refine erases_peek.bind fun token => erases_here.bind fun _ => ?_
  cases token <;> exact erases_fail

/-- An open bracket is the same fault without places. -/
theorem erases_failUnclosed {erase : α → β} {bracket : Bracket} {context : Construct}
    {opened : Location} :
    (failUnclosed bracket context opened : Parser α).Erases erase
      (failUnclosed bracket context {}) := by
  refine erases_peek.bind fun token => ?_
  cases token <;> exact erases_fail

/-- A name that is due is taken without its place. -/
theorem erases_expectIdentifier {context : Construct} :
    (expectIdentifier context).Erases Token.unplaced (expectIdentifier context) := by
  refine erases_peek.bind fun token => ?_
  cases token with
  | none => exact erases_failHere
  | some token =>
    exact erases_ite Iff.rfl (erases_skip.bind fun _ => erases_pure rfl) erases_failHere

/-- A closer that is due is taken, and its place is taken out. -/
theorem erases_expectClosing {bracket : Bracket} {context : Construct} {opened : Location} :
    (expectClosing bracket context opened).Erases (fun _ => {})
      (expectClosing bracket context {}) := by
  refine erases_eat.bind fun closed => ?_
  cases closed with
  | none => exact erases_failUnclosed
  | some closed => exact erases_pure rfl

/-- An optional semicolon is passed, whatever its place. -/
theorem erases_eatSemicolonBefore {keywords : List Keyword} :
    (eatSemicolonBefore keywords).Erases id (eatSemicolonBefore keywords) := by
  refine erases_sees.bind fun _ => erases_ite Iff.rfl ?_ (erases_pure rfl)
  refine erases_peekSecond.bind fun follower => erases_ite ?_ erases_skip ?_
  · cases follower <;> exact Iff.rfl
  · exact erases_left.bind fun _ => erases_record

/-- Items between commas lose their places one by one. -/
theorem erases_separated {erase : α → β} {bracket : Bracket} {context : Construct}
    {opened : Location} {item : Parser α} {itemOther : Parser β}
    (each : item.Erases erase itemOther) (rounds : Nat) :
    (separated bracket context opened item rounds).Erases (unplacedPair (List.map erase))
      (separated bracket context {} itemOther rounds) := by
  induction rounds with
  | zero => exact erases_fail
  | succ rounds ih =>
    refine erases_peek.bind fun token => ?_
    cases token with
    | none => exact erases_fail
    | some token =>
      refine erases_ite Iff.rfl erases_fail (each.bind fun first => erases_eat.bind fun comma => ?_)
      cases comma with
      | none => exact erases_expectClosing.bind fun _ => erases_pure rfl
      | some comma =>
        refine erases_sees.bind fun _ => erases_ite Iff.rfl erases_fail ?_
        exact ih.bind fun others => erases_pure rfl

/-- Items in brackets lose their places one by one. -/
theorem erases_delimited {erase : α → β} {bracket : Bracket} {context : Construct}
    {opened : Location} {item : Parser α} {itemOther : Parser β}
    (each : item.Erases erase itemOther) :
    (delimited bracket context opened item).Erases (unplacedPair (List.map erase))
      (delimited bracket context {} itemOther) := by
  refine erases_eat.bind fun closed => ?_
  cases closed with
  | none => exact erases_left.bind fun rounds => erases_separated each rounds
  | some closed => exact erases_pure rfl

end Parser

namespace Grammar

open Oreo.Parser

/-- The grammar reads each part without looking at places. -/
def Erases (parse : Grammar) : Prop :=
  ∀ goal, (parse goal).Erases Node.unplaced (parse goal.unplaced)

variable {parse : Grammar}

/-- Statements up to a closing brace lose their places. -/
theorem Erases.blockBody (grammar : parse.Erases) {opened : Location} (rounds : Nat) :
    (parse.blockBody opened rounds).Erases (unplacedPair Node.listUnplaced)
      (parse.blockBody {} rounds) := by
  induction rounds with
  | zero => exact erases_fail
  | succ rounds ih =>
    refine erases_eat.bind fun closed => ?_
    cases closed with
    | some closed => exact erases_pure rfl
    | none =>
      refine erases_atEnd.bind fun _ => erases_ite Iff.rfl erases_fail ?_
      refine (grammar .statement).bind fun first => erases_eat.bind fun _ => ?_
      exact ih.bind fun others => erases_pure rfl

/-- Statements in braces lose their places. -/
theorem Erases.blockParts (grammar : parse.Erases) :
    parse.blockParts.Erases (unplacedPair Node.listUnplaced) parse.blockParts := by
  refine erases_sees.bind fun _ => erases_ite Iff.rfl (erases_nested ?_) erases_failHere
  refine erases_take.bind fun opened => erases_left.bind fun rounds => ?_
  exact (grammar.blockBody rounds).bind fun _ => erases_pure rfl

/-- A block is read without places. -/
theorem Erases.block (grammar : parse.Erases) : parse.block.Erases Node.unplaced parse.block :=
  grammar.blockParts.bind fun _ => erases_pure rfl

/-- A body is read without places. -/
theorem Erases.body (grammar : parse.Erases) : parse.body.Erases Node.unplaced parse.body :=
  erases_sees.bind fun _ => erases_ite Iff.rfl grammar.block (grammar .statement)

/-- The members of an object are read without places. -/
theorem Erases.members (grammar : parse.Erases) (object : Node) :
    (parse.members object).Erases Node.unplaced (parse.members object.unplaced) := by
  refine erases_peek.bind fun token => ?_
  have same : (token.map Token.unplaced).bind Token.separator? = token.bind Token.separator? := by
    cases token <;> rfl
  rw [same]
  cases token.bind Token.separator? with
  | none => exact erases_pure rfl
  | some separator =>
    refine erases_peekSecond.bind fun _ => erases_ite_any (fun _ => rfl) ?_ (erases_pure rfl)
    refine erases_skip.bind fun _ => (erases_nested (grammar .named)).bind fun property => ?_
    exact erases_pure (by simp)

/-- Values in a list lose their places one by one. -/
theorem Erases.values (grammar : parse.Erases) {bracket : Bracket} {context : Construct}
    {opened : Location} :
    (delimited bracket context opened (parse .expression)).Erases (unplacedPair Node.listUnplaced)
      (delimited bracket context {} (parse .expression)) := by
  rw [funext Node.listUnplaced_eq]
  exact erases_delimited (grammar .expression)

/-- A call is read without places. -/
theorem Erases.call (grammar : parse.Erases) (callee : Node) :
    (parse.call callee).Erases Node.unplaced (parse.call callee.unplaced) := by
  refine erases_take.bind fun opened => (erases_nested grammar.values).bind fun arguments => ?_
  have erases := grammar.members (.call callee arguments.1 (callee.location.through arguments.2))
  simpa using erases

/-- An index and what follows it are read without places. -/
theorem Erases.indexedRule (grammar : parse.Erases) (target : Node) :
    (parse.indexed target).Erases Node.unplaced (parse.indexed target.unplaced) := by
  refine erases_take.bind fun opened => (erases_nested (grammar .expression)).bind fun index => ?_
  refine erases_expectClosing.bind fun closed => erases_eat.bind fun equals => ?_
  cases equals with
  | some equals =>
    refine (erases_nested (grammar .expression)).bind fun value => erases_pure ?_
    simp
  | none =>
    have access : (Node.access target index (target.location.through closed)).unplaced =
        .access target.unplaced index.unplaced (target.unplaced.location.through {}) := by simp
    refine erases_sees.bind fun _ => erases_ite Iff.rfl ?_ ?_
    · rw [← access]
      exact grammar.call _
    refine erases_sees.bind fun _ => erases_ite Iff.rfl ?_ ?_
    · rw [← access]
      exact erases_nested (grammar (.indexed _))
    · rw [← access]
      exact grammar.members _

/-- A value that is assigned is read without places. -/
theorem Erases.assigned (grammar : parse.Erases) (target : Token)
    (operator : AssignmentOperator) :
    (parse.assigned target operator).Erases Node.unplaced
      (parse.assigned target.unplaced operator) := by
  refine (erases_nested (grammar .expression)).bind fun value => erases_pure ?_
  simp [Token.unplaced]

/-- An assignment or an update by an operator is read without places. -/
theorem Erases.namedOperator (grammar : parse.Erases) (name : Token) (operator : Operator) :
    (parse.namedOperator name operator).Erases Node.unplaced
      (parse.namedOperator name.unplaced operator) := by
  refine erases_peekSecond.bind fun second => ?_
  cases second with
  | none => exact erases_pure rfl
  | some second =>
    refine erases_ite Iff.rfl ?_ (erases_ite Iff.rfl ?_ (erases_pure rfl))
    · cases AssignmentOperator.compound? operator with
      | none => exact erases_pure rfl
      | some assignment => exact erases_skip.bind fun _ => grammar.assigned name assignment
    · cases UpdateOperator.doubled? operator with
      | none => exact erases_pure rfl
      | some update => exact erases_skip.bind fun _ => erases_pure rfl

/-- A name and what it leads is read without places. -/
theorem Erases.namedRule (grammar : parse.Erases) (assignmentDue : Bool) :
    (parse.named assignmentDue).Erases Node.unplaced (parse.named assignmentDue) := by
  refine erases_peek.bind fun name => ?_
  cases name with
  | none => exact erases_failAtEnd
  | some name =>
    refine erases_skip.bind fun _ => erases_peek.bind fun follower => ?_
    cases follower with
    | none => exact erases_ite Iff.rfl erases_fail (erases_pure rfl)
    | some follower =>
      obtain ⟨kind, location⟩ := follower
      cases kind with
      | operator operator => exact grammar.namedOperator name operator
      | punctuation mark =>
        cases mark with
        | equals => exact erases_skip.bind fun _ => grammar.assigned name .assign
        | openParen => exact grammar.call (.leaf name)
        | dot | colon => exact grammar.members (.leaf name)
        | openBracket => exact grammar.indexedRule (.leaf name)
        | _ => exact erases_pure rfl
      | _ => exact erases_pure rfl

/-- A value in parentheses is read without places. -/
theorem Erases.parenthesized (grammar : parse.Erases) :
    parse.parenthesized.Erases Node.unplaced parse.parenthesized := by
  refine erases_take.bind fun opened => ?_
  refine erases_atEnd.bind fun _ => erases_ite Iff.rfl erases_fail ?_
  refine erases_eat.bind fun closed => ?_
  cases closed with
  | some closed => exact erases_pure rfl
  | none =>
    refine (grammar .expression).bind fun inner => ?_
    exact erases_expectClosing.bind fun _ => erases_pure rfl

/-- An array is read without places. -/
theorem Erases.array (grammar : parse.Erases) : parse.array.Erases Node.unplaced parse.array :=
  erases_take.bind fun _ => grammar.values.bind fun _ => erases_pure rfl

/-- An entry of an object literal is read without places. -/
theorem Erases.entry (grammar : parse.Erases) : parse.entry.Erases Entry.unplaced parse.entry := by
  have item : (Entry.item <$> parse .expression).Erases Entry.unplaced
      (Entry.item <$> parse .expression) := (grammar .expression).map fun _ => rfl
  refine erases_eat.bind fun opened => ?_
  cases opened with
  | some opened =>
    refine (erases_nested (grammar .expression)).bind fun key => ?_
    refine erases_expectClosing.bind fun _ => erases_eat.bind fun equals => ?_
    cases equals with
    | some equals => exact (grammar .expression).map fun _ => rfl
    | none => exact erases_pure rfl
  | none =>
    refine erases_peek.bind fun token => ?_
    rw [Token.filter_isIdentifier_unplaced]
    cases token.filter Token.isIdentifier with
    | none => exact item
    | some name =>
      refine erases_peekSecond.bind fun _ => erases_ite_any (fun _ => rfl) ?_ item
      exact erases_skip.bind fun _ => (grammar .expression).map fun _ => rfl

/-- An object literal is read without places. -/
theorem Erases.object (grammar : parse.Erases) :
    parse.object.Erases Node.unplaced parse.object := by
  have entries {opened : Location} : (delimited .brace .object opened parse.entry).Erases
      (unplacedPair Entry.listUnplaced) (delimited .brace .object {} parse.entry) := by
    rw [funext Entry.listUnplaced_eq]
    exact erases_delimited grammar.entry
  exact erases_take.bind fun _ => entries.bind fun _ => erases_pure rfl

/-- A negation is read without places. -/
theorem Erases.negation (grammar : parse.Erases) :
    parse.negation.Erases Node.unplaced parse.negation := by
  refine erases_take.bind fun bang => ?_
  refine erases_atEnd.bind fun _ => erases_ite Iff.rfl erases_fail ?_
  exact (grammar .expression).bind fun operand => erases_pure (by simp)

/-- A function without a name is read without places. -/
theorem Erases.lambda (grammar : parse.Erases) :
    parse.lambda.Erases Node.unplaced parse.lambda := by
  refine erases_take.bind fun keyword => erases_eat.bind fun opened => ?_
  cases opened with
  | none => exact erases_failHere
  | some opened =>
    refine (erases_delimited erases_expectIdentifier).bind fun parameters => ?_
    exact grammar.body.bind fun body => erases_pure (by simp)

/-- An operand is read without places. -/
theorem Erases.primary (grammar : parse.Erases) :
    parse.primary.Erases Node.unplaced parse.primary := by
  refine erases_peek.bind fun token => ?_
  cases token with
  | none => exact erases_failAtEnd
  | some token =>
    obtain ⟨kind, location⟩ := token
    cases kind with
    | punctuation mark =>
      cases mark with
      | openParen => exact erases_nested grammar.parenthesized
      | openBracket => exact erases_nested grammar.array
      | openBrace => exact erases_nested grammar.object
      | bang => exact erases_nested grammar.negation
      | _ => exact erases_fail
    | identifier name => exact grammar.namedRule false
    | keyword keyword =>
      cases keyword with
      | fn => exact erases_nested grammar.lambda
      | _ => exact erases_skip.bind fun _ => erases_pure rfl
    | otherMark character unknown => exact erases_fail
    | _ => exact erases_skip.bind fun _ => erases_pure rfl

/-- Operators and their operands are read without places. -/
theorem Erases.climb (grammar : parse.Erases) (rounds : Nat) (left : Node) (strength : Nat) :
    (parse.climb rounds left strength).Erases Node.unplaced
      (parse.climb rounds left.unplaced strength) := by
  induction rounds generalizing left strength with
  | zero => exact erases_pure rfl
  | succ rounds ih =>
    refine erases_peek.bind fun symbol => ?_
    have same : (symbol.map Token.unplaced).bind Token.operator? =
        symbol.bind Token.operator? := by
      cases symbol <;> rfl
    rw [same]
    cases symbol.bind Token.operator? with
    | none => exact erases_pure rfl
    | some operator =>
      refine erases_ite Iff.rfl (erases_pure rfl) (erases_skip.bind fun _ => ?_)
      refine grammar.primary.bind fun operand => (ih operand _).bind fun right => ?_
      have erases := ih (.binary operator left right (left.location.through right.location))
        strength
      simpa using erases

/-- An expression is read without places. -/
theorem Erases.expressionRule (grammar : parse.Erases) :
    parse.expression.Erases Node.unplaced parse.expression := by
  refine grammar.primary.bind fun operand => erases_peek.bind fun _ => ?_
  refine erases_ite_any (fun _ => rfl) (erases_peekSecond.bind fun _ => ?_) (erases_pure rfl)
  refine erases_ite_any (fun _ => rfl) ?_ (erases_pure rfl)
  exact erases_left.bind fun rounds => grammar.climb rounds operand 0

/-- A declaration is read without places. -/
theorem Erases.declaration (grammar : parse.Erases) :
    parse.declaration.Erases Node.unplaced parse.declaration := by
  refine erases_take.bind fun keyword => erases_expectIdentifier.bind fun name => ?_
  refine erases_eat.bind fun equals => ?_
  cases equals with
  | some equals => exact (grammar .expression).bind fun value => erases_pure (by simp)
  | none => exact erases_pure rfl

/-- What follows `else` is read without places. -/
theorem Erases.alternate (grammar : parse.Erases) :
    parse.alternate.Erases Node.optionUnplaced parse.alternate := by
  refine erases_seesKeyword.bind fun _ => erases_ite Iff.rfl ?_ ?_
  · exact erases_skip.bind fun _ => grammar.block.map fun _ => rfl
  refine erases_seesKeyword.bind fun _ => erases_ite Iff.rfl ?_ (erases_pure rfl)
  exact (erases_nested (grammar .conditional)).map fun _ => rfl

/-- An `if` is read without places. -/
theorem Erases.conditionalRule (grammar : parse.Erases) :
    (Grammar.conditional parse).Erases Node.unplaced (Grammar.conditional parse) := by
  refine erases_take.bind fun keyword => (grammar .expression).bind fun test => ?_
  refine grammar.body.bind fun consequent => erases_eatSemicolonBefore.bind fun _ => ?_
  refine grammar.alternate.bind fun alternate => erases_pure ?_
  cases alternate with
  | none => simp
  | some alternate => simp

/-- A `while` loop is read without places. -/
theorem Erases.whileLoop (grammar : parse.Erases) :
    parse.whileLoop.Erases Node.unplaced parse.whileLoop := by
  refine erases_take.bind fun keyword => (grammar .expression).bind fun test => ?_
  exact grammar.body.bind fun body => erases_pure (by simp)

/-- A `do` loop is read without places. -/
theorem Erases.doWhileLoop (grammar : parse.Erases) :
    parse.doWhileLoop.Erases Node.unplaced parse.doWhileLoop := by
  refine erases_take.bind fun keyword => grammar.body.bind fun body => ?_
  refine erases_eatSemicolonBefore.bind fun _ => erases_seesKeyword.bind fun _ => ?_
  refine erases_ite Iff.rfl (erases_skip.bind fun _ => ?_) erases_failHere
  exact (grammar .expression).bind fun test => erases_pure (by simp)

/-- The step of a `for` loop is read without places, written or not. -/
theorem Erases.forUpdate (grammar : parse.Erases) (initial : Node) :
    (parse.forUpdate initial).Erases Node.unplaced (parse.forUpdate initial.unplaced) := by
  refine erases_eat.bind fun comma => ?_
  cases comma with
  | some comma => exact grammar .statement
  | none =>
    cases initial with
    | declaration name value location =>
      refine erases_atEnd.bind fun _ => erases_ite Iff.rfl erases_failHere ?_
      exact erases_pure rfl
    | _ => exact erases_failHere

/-- A `for` loop is read without places. -/
theorem Erases.forLoop (grammar : parse.Erases) :
    parse.forLoop.Erases Node.unplaced parse.forLoop := by
  refine erases_take.bind fun keyword => (grammar .statement).bind fun initial => ?_
  refine erases_eat.bind fun comma => ?_
  cases comma with
  | none => exact erases_failHere
  | some comma =>
    refine (grammar .expression).bind fun test => ?_
    refine (grammar.forUpdate initial).bind fun update => ?_
    exact grammar.body.bind fun body => erases_pure (by simp)

/-- An entry of a switch that is no case is none without its places. -/
theorem erases_clausesOf {shown : String} (entries : List Node) :
    (clausesOf shown entries).Erases Clause.listUnplaced
      (clausesOf shown (Node.listUnplaced entries)) := by
  induction entries with
  | nil => exact erases_pure rfl
  | cons entry entries ih =>
    rw [Node.listUnplaced]
    unfold clausesOf
    rw [Node.clause?_unplaced]
    cases entry.clause? with
    | none =>
      rw [Node.location_unplaced]
      exact erases_fail
    | some branch => exact ih.map fun _ => rfl

/-- A switch is read without places. -/
theorem Erases.switch (grammar : parse.Erases) :
    parse.switch.Erases Node.unplaced parse.switch := by
  refine erases_take.bind fun keyword => (grammar .expression).bind fun subject => ?_
  refine grammar.blockParts.bind fun parts => ?_
  rw [Node.summary_unplaced]
  exact (erases_clausesOf parts.1).bind fun _ => erases_pure rfl

/-- Further values of a case are read without places. -/
theorem Erases.alternatives (grammar : parse.Erases) (rounds : Nat) :
    (parse.alternatives rounds).Erases Node.listUnplaced (parse.alternatives rounds) := by
  induction rounds with
  | zero => exact erases_pure rfl
  | succ rounds ih =>
    refine erases_eat.bind fun bar => ?_
    cases bar with
    | none => exact erases_pure rfl
    | some bar =>
      exact (grammar .expression).bind fun value => ih.bind fun others => erases_pure rfl

/-- The keyword and the values of a case are read without places. -/
theorem Erases.clauseHead (grammar : parse.Erases) :
    parse.clauseHead.Erases (Prod.map id Pattern.unplaced) parse.clauseHead := by
  refine erases_seesKeyword.bind fun _ => erases_ite Iff.rfl ?_ ?_
  · exact erases_skip.bind fun _ => erases_pure rfl
  refine erases_skip.bind fun _ => (grammar .expression).bind fun first => ?_
  refine erases_left.bind fun rounds => ?_
  refine (grammar.alternatives rounds).bind fun others => erases_pure ?_
  rw [Prod.map_apply, Pattern.unplaced_ofValues]
  rfl

/-- The body of a case is read without places. -/
theorem Erases.clauseBody (grammar : parse.Erases) :
    parse.clauseBody.Erases Node.unplaced parse.clauseBody := by
  refine erases_sees.bind fun _ => erases_ite Iff.rfl grammar.block ?_
  refine erases_eat.bind fun colon => ?_
  cases colon with
  | some colon => exact grammar .statement
  | none => exact erases_failHere

/-- A case is read without places. -/
theorem Erases.clause (grammar : parse.Erases) :
    parse.clause.Erases Node.unplaced parse.clause := by
  refine erases_here.bind fun keyword => grammar.clauseHead.bind fun head => ?_
  exact grammar.clauseBody.bind fun body => erases_pure (by simp)

/-- The parameters of a function are told from its arguments without places. -/
theorem erases_parametersOf (arguments : List Node) :
    (parametersOf arguments).Erases (List.map Token.unplaced)
      (parametersOf (Node.listUnplaced arguments)) := by
  induction arguments with
  | nil => exact erases_pure rfl
  | cons argument arguments ih =>
    rw [Node.listUnplaced]
    unfold parametersOf
    rw [Node.identifier?_unplaced, Node.summary_unplaced]
    cases argument.identifier? with
    | none =>
      rw [Node.location_unplaced]
      exact erases_fail
    | some name => exact ih.map fun _ => rfl

/-- A function with a name is read without places. -/
theorem Erases.namedFunction (grammar : parse.Erases) :
    parse.namedFunction.Erases Node.unplaced parse.namedFunction := by
  refine erases_take.bind fun keyword => erases_peek.bind fun _ => ?_
  refine erases_ite_any (fun _ => rfl) ((grammar.namedRule false).bind fun title => ?_)
    erases_failHere
  rw [Node.signature?_unplaced]
  cases title.signature? with
  | none => exact erases_failHere
  | some signature =>
    refine (erases_parametersOf signature.2).bind fun parameters => ?_
    exact grammar.body.bind fun body => erases_pure (by simp)

/-- The end of a function is read without places. -/
theorem Erases.returns (grammar : parse.Erases) :
    parse.returns.Erases Node.unplaced parse.returns := by
  refine erases_take.bind fun keyword => erases_peek.bind fun token => ?_
  cases token with
  | none => exact erases_pure rfl
  | some token =>
    refine erases_ite Iff.rfl (erases_pure rfl) ?_
    exact (grammar .expression).bind fun value => erases_pure (by simp)

/-- The statement of a keyword is read without places. -/
theorem Erases.keywordStatement (grammar : parse.Erases) (keyword : Located Keyword) :
    (parse.keywordStatement keyword).Erases Node.unplaced
      (parse.keywordStatement ⟨keyword.value, {}⟩) := by
  obtain ⟨keyword, location⟩ := keyword
  cases keyword with
  | «let» | var => exact grammar.declaration
  | «if» => exact grammar.conditionalRule
  | «while» => exact grammar.whileLoop
  | «do» => exact grammar.doWhileLoop
  | «for» => exact grammar.forLoop
  | switch => exact grammar.switch
  | case | default => exact grammar.clause
  | fn =>
    exact erases_peekSecond.bind fun _ =>
      erases_ite_any (fun _ => rfl) grammar.lambda grammar.namedFunction
  | «return» => exact grammar.returns
  | «else» | elseif => exact erases_fail

/-- A statement is read without places. -/
theorem Erases.statementRule (grammar : parse.Erases) :
    parse.statement.Erases Node.unplaced parse.statement := by
  refine erases_nested (erases_peek.bind fun token => ?_)
  cases token with
  | none => exact erases_failAtEnd
  | some token =>
    refine erases_record.bind fun _ => ?_
    obtain ⟨kind, location⟩ := token
    cases kind with
    | keyword keyword => exact grammar.keywordStatement ⟨keyword, location⟩
    | identifier name => exact grammar.namedRule true
    | lineComment text | blockComment text => exact erases_skip.bind fun _ => erases_pure rfl
    | _ => exact erases_fail

/-- If the grammar below reads without places, so does the one that is built from it. -/
theorem Erases.step (grammar : parse.Erases) : parse.step.Erases := by
  intro goal
  cases goal with
  | statement => exact grammar.statementRule
  | expression => exact grammar.expressionRule
  | named => exact grammar.namedRule false
  | indexed target => exact grammar.indexedRule target
  | conditional => exact grammar.conditionalRule

/-- With any number of calls left the grammar reads without places. -/
theorem erases_below (bound : Nat) : (below bound).Erases := by
  induction bound with
  | zero => exact fun _ => erases_failAtEnd
  | succ bound ih => exact ih.step

/-- The whole grammar reads without places. -/
theorem erases_full : full.Erases := by
  intro goal limit room last tokens
  unfold full
  rw [List.length_map]
  exact erases_below _ goal limit room last tokens

/-- Statements up to the end of the source are read without places. -/
theorem Erases.statements (grammar : parse.Erases) (rounds : Nat) :
    (parse.statements rounds).Erases Node.listUnplaced (parse.statements rounds) := by
  induction rounds with
  | zero => exact erases_pure rfl
  | succ rounds ih =>
    refine erases_atEnd.bind fun _ => erases_ite Iff.rfl (erases_pure rfl) ?_
    refine grammar.statementRule.bind fun first => erases_eat.bind fun _ => ?_
    exact ih.bind fun others => erases_pure rfl

/-- A case that is left outside all switches is found without its places as with them. -/
theorem findSome?_clause?_unplaced (statements : List Node) :
    (Node.listUnplaced statements).findSome? Node.clause? =
      (statements.findSome? Node.clause?).map Clause.unplaced := by
  induction statements with
  | nil => rfl
  | cons statement statements ih =>
    rw [Node.listUnplaced, List.findSome?_cons, List.findSome?_cons, Node.clause?_unplaced, ih]
    cases statement.clause? <;> rfl

/-- A program is read without places. -/
theorem Erases.program (grammar : parse.Erases) :
    parse.program.Erases Node.listUnplaced parse.program := by
  refine erases_left.bind fun rounds => (grammar.statements rounds).bind fun statements => ?_
  rw [findSome?_clause?_unplaced]
  cases statements.findSome? Node.clause? with
  | none => exact erases_pure rfl
  | some branch =>
    change Parser.Erases _ _ (fail (.caseOutsideSwitch branch.unplaced.summary)
      branch.unplaced.location)
    rw [Clause.summary_unplaced, Clause.location_unplaced]
    exact erases_fail

end Grammar

/-- Tokens of the same kinds are the same without places. -/
theorem Token.map_unplaced_eq {first second : List Token}
    (same : first.map Token.kind = second.map Token.kind) :
    first.map Token.unplaced = second.map Token.unplaced := by
  have erased (tokens : List Token) :
      tokens.map Token.unplaced = (tokens.map Token.kind).map fun kind => ⟨kind, {}⟩ := by
    rw [List.map_map]
    rfl
  rw [erased, erased, same]

/-- Answers that are the same without places have trees that are the same without places, or
errors that are the same but for their places. -/
theorem Reply.alike_of_unplaced_eq {first second : Reply (List Node)}
    (same : first.unplaced Node.listUnplaced = second.unplaced Node.listUnplaced) :
    (∃ program other, first.outcome = .ok program ∧ second.outcome = .ok other ∧
      program.map Node.unplaced = other.map Node.unplaced) ∨
    ∃ error other, first.outcome = .error error ∧ second.outcome = .error other ∧
      error.value = other.value := by
  have outcome := congrArg Reply.outcome same
  obtain ⟨firstOutcome, firstRest, firstEvents⟩ := first
  obtain ⟨secondOutcome, secondRest, secondEvents⟩ := second
  cases firstOutcome with
  | ok program =>
    cases secondOutcome with
    | ok other =>
      have trees : Node.listUnplaced program = Node.listUnplaced other := Except.ok.inj outcome
      rw [Node.listUnplaced_eq, Node.listUnplaced_eq] at trees
      exact .inl ⟨program, other, rfl, rfl, trees⟩
    | error other => cases outcome
  | error error =>
    cases secondOutcome with
    | ok other => cases outcome
    | error other =>
      have errors : (⟨error.value, {}⟩ : ParseError) = ⟨other.value, {}⟩ := Except.error.inj outcome
      exact .inr ⟨error, other, rfl, rfl, (Located.mk.inj errors).1⟩

/-- What is read from a place in a list, less all places, is what is read from there in the list
without places. -/
theorem unplaced_program (options : Options) (tokens : List Token) (position : Nat) :
    (Parser.program (Scope.ofTokens options tokens) (tokens.drop position)).unplaced
        Node.listUnplaced =
      Parser.program (Scope.ofTokens options (tokens.map Token.unplaced))
        ((tokens.map Token.unplaced).drop position) := by
  unfold Scope.ofTokens
  rw [← List.map_drop, List.getLast?_map]
  cases found : tokens.getLast? with
  | none =>
    -- Without a last token the end of the source has a place of its own, so the walk through the
    -- grammar does not cover this case; but then there is nothing to read.
    obtain rfl : tokens = [] := List.getLast?_eq_none_iff.mp found
    rw [List.drop_nil]
    rfl
  | some last => exact (Grammar.erases_full.program _ _ last (tokens.drop position)).symm

/-- Layout does not influence parsing. Two sessions over the same tokens at other places, with the
same limit and at the same place in their lists, stop at the same place; and they read programs
that are the same without places, or find faults that are the same. -/
theorem Session.parse_of_same_kinds {first second : Session}
    (limits : first.options.maxDepth = second.options.maxDepth)
    (positions : first.position = second.position)
    (kinds : first.tokens.map Token.kind = second.tokens.map Token.kind) :
    first.parse.2.position = second.parse.2.position ∧
      ((∃ program other, first.parse.1 = .ok program ∧ second.parse.1 = .ok other ∧
        program.map Node.unplaced = other.map Node.unplaced) ∨
      ∃ error other, first.parse.1 = .error error ∧ second.parse.1 = .error other ∧
        error.value = other.value) := by
  have scopes (tokens : List Token) :
      Scope.ofTokens first.options tokens = Scope.ofTokens second.options tokens := by
    rw [Scope.ofTokens, Scope.ofTokens, limits]
  have same :
      (Parser.program (Scope.ofTokens first.options first.tokens) first.rest).unplaced
          Node.listUnplaced =
        (Parser.program (Scope.ofTokens second.options second.tokens) second.rest).unplaced
          Node.listUnplaced := by
    rw [Session.rest, Session.rest, unplaced_program, unplaced_program,
      Token.map_unplaced_eq kinds, scopes, positions]
  refine ⟨?_, Reply.alike_of_unplaced_eq same⟩
  have tokens : first.tokens.length = second.tokens.length := by
    simpa using congrArg List.length kinds
  have rests := congrArg (fun reply : Reply (List Node) => reply.rest.length) same
  simp only [Reply.unplaced, List.length_map] at rests
  simp only [Session.parse, tokens, rests]

/-- The name `x` is given the value of `y` on one line, and over three lines: the places in the two
trees differ, and nothing else. -/
theorem Session.parse_of_same_kinds_lines :
    let first : Session := { options := { maxDepth := 2 }, tokens :=
      [⟨.identifier "x", ⟨0, 1, 1, 1⟩⟩, ⟨.punctuation .equals, ⟨2, 3, 1, 3⟩⟩,
        ⟨.identifier "y", ⟨4, 5, 1, 5⟩⟩] }
    let second : Session := { options := { maxDepth := 2 }, tokens :=
      [⟨.identifier "x", ⟨0, 1, 1, 1⟩⟩, ⟨.punctuation .equals, ⟨2, 3, 2, 1⟩⟩,
        ⟨.identifier "y", ⟨6, 7, 3, 3⟩⟩] }
    first.parse.1 = .ok [.assignment ⟨.identifier "x", ⟨0, 1, 1, 1⟩⟩ .assign
        (.leaf ⟨.identifier "y", ⟨4, 5, 1, 5⟩⟩) ⟨0, 5, 1, 1⟩] ∧
      second.parse.1 = .ok [.assignment ⟨.identifier "x", ⟨0, 1, 1, 1⟩⟩ .assign
        (.leaf ⟨.identifier "y", ⟨6, 7, 3, 3⟩⟩) ⟨0, 7, 1, 1⟩] ∧
      first.parse.2.position = second.parse.2.position := by
  intro first second
  exact ⟨rfl, rfl, (Session.parse_of_same_kinds rfl rfl rfl).1⟩

end Oreo
