import Oreo.Proofs.Parse.Failure
import Oreo.Proofs.Parse.Spans

/-!
# Where errors come from

An error of the parser tells a fault and a place, and both come from the tokens of the source. There
are a few ways only in which this happens, and `Raised` lists them: a token that stands in the wrong
place, or the end of the source in its stead; a bracket that was opened; a keyword; a node that was
read and does not fit where it stands; the last token, behind which something is missing.

That the list is complete is shown rule by rule. Where a rule has read something before it fails,
that was a reading (`Oreo.Proofs.Parse.Soundness`), so the tokens that are left are a back part of
the source, and a node that is blamed is made of its tokens.
-/

namespace Oreo

/-- What stands in the place of something else: the construct that was read, and the text of what
was found, none at the end of the source. -/
def ParseFault.found? : ParseFault → Option (Construct × Option String)
  | .expectedKind _ context found | .expectedToken _ context found
  | .unexpectedToken context found => some (context, found)
  | _ => none

/-- The text that tells what is expected, if something is. -/
def ParseFault.expected? : ParseFault → Option String
  | .expectedKind expected _ _ | .expectedToken expected _ _ => some expected
  | _ => none

/-- The texts that tell what is expected. -/
def ParseFault.expectations : List String :=
  ["identifier", "identifier or expression", "'('", "\"\x7b\"", "'while'", "'comma'"]

/-- Whether one of these texts tells what is expected, if something is. -/
def ParseFault.expectsKnown (fault : ParseFault) : Bool := fault.expected?.all expectations.contains

/-- What stands where the reading stops: a token, with its text and its place, or the end of the
source, which is said to be on the line and in the column of the last token. -/
inductive StopsAt (source : List Token) : Option String → Location → Prop where
  /-- The place is that of a token of the source. -/
  | token {token : Token} (listed : token ∈ source) :
      StopsAt source (some token.text) token.location
  /-- The place is the end of the last token. -/
  | ended {token : Token} (last : source.getLast? = some token) :
      StopsAt source none
        ⟨token.location.stop, token.location.stop, token.location.line, token.location.column⟩

/-- The ways in which an error comes from the tokens of a source. -/
inductive Raised (source : List Token) : ParseError → Prop where
  /-- What stands there is told, and its place. -/
  | misplaced {fault : ParseFault} {context : Construct} {found : Option String} {place : Location}
      (told : fault.found? = some (context, found)) (known : fault.expectsKnown = true)
      (stops : StopsAt source found place) :
      Raised source ⟨fault, place⟩
  /-- Nothing stands behind a negation; its mark is blamed. -/
  | operand {mark : Token} (listed : mark ∈ source) :
      Raised source ⟨.expectedKind "identifier or expression" .negation none, mark.location⟩
  /-- A parameter is no name. -/
  | parameter {argument : Node} (nested : argument.Nested source) :
      Raised source
        ⟨.expectedKind "identifier" .parameters (some argument.summary), argument.location⟩
  /-- A keyword begins no statement. -/
  | keyword {token : Token} {keyword : Keyword} (listed : token ∈ source)
      (keywordKind : token.kind = .keyword keyword) :
      Raised source ⟨.unexpectedKeyword keyword, token.location⟩
  /-- A bracket that was opened is not closed where the reading stops. -/
  | unclosed {opened : Token} {bracket : Bracket} {context : Construct} {found : Option String}
      {place : Location} (listed : opened ∈ source)
      (openedKind : opened.kind = .punctuation bracket.opener)
      (stops : StopsAt source found place) :
      Raised source ⟨.unclosedBracket bracket context found, opened.location⟩
  /-- A case was read outside all switches. -/
  | caseOutside {branch : Clause} (nested : (Node.clause branch).Nested source) :
      Raised source ⟨.caseOutsideSwitch branch.summary, branch.location⟩
  /-- Something else than a case was read in a switch, whose subject is shown. -/
  | nonCase {subject entry : Node} (subjectNested : subject.Nested source)
      (entryNested : entry.Nested source) :
      Raised source
        ⟨.nonCaseInSwitch ("switch " ++ subject.summary ++ " \x7b...\x7d"), entry.location⟩
  /-- Something is missing behind a token. -/
  | ended {token : Token} {context : Construct} (listed : token ∈ source) :
      Raised source ⟨.unexpectedEnd context token.text, token.location⟩
  /-- There is no room for a level where the reading stops. -/
  | tooDeep {limit : Nat} {found : Option String} {place : Location}
      (stops : StopsAt source found place) :
      Raised source ⟨.nestingTooDeep limit, place⟩

/-- The tokens are left of those of a source, and the scope knows the last of them. -/
structure Stands (source : List Token) (scope : Scope) (tokens : List Token) : Prop where
  /-- The tokens of the source are in order, and a back part of them is left. -/
  laid : Laid source [] tokens
  /-- The last token is the one of the source. -/
  last : scope.last = source.getLast?
  /-- There is one. -/
  nonempty : source ≠ []

namespace Stands

variable {source tokens rest : List Token} {scope : Scope} {token : Token}

/-- A back part of what is left may be left. -/
theorem of_suffix (stands : Stands source scope tokens) (suffix : rest <:+ tokens) :
    Stands source scope rest :=
  ⟨stands.laid.pass suffix, stands.last, stands.nonempty⟩

/-- Behind the first of the tokens the others are left. -/
theorem tail (stands : Stands source scope (token :: tokens)) : Stands source scope tokens :=
  stands.of_suffix (List.suffix_cons token tokens)

/-- Behind some of the tokens the others are left. -/
theorem drop (stands : Stands source scope tokens) (count : Nat) :
    Stands source scope (tokens.drop count) :=
  stands.of_suffix (List.drop_suffix count tokens)

/-- Behind a part that was read, tokens are left. -/
theorem after {part : Part} {room : Nat} {value : part.Result}
    (stands : Stands source scope tokens) (reads : Reads part room tokens value rest) :
    Stands source scope rest :=
  stands.of_suffix reads.suffix

/-- One level deeper the same tokens are left. -/
theorem deeper (stands : Stands source scope tokens) (room : Nat) :
    Stands source { scope with room } tokens :=
  ⟨stands.laid, stands.last, stands.nonempty⟩

/-- The first of the tokens that are left is one of the source. -/
theorem listed (stands : Stands source scope (token :: tokens)) : token ∈ source :=
  stands.laid.suffix.subset List.mem_cons_self

/-- The source has a last token, which the scope knows. -/
theorem exists_last (stands : Stands source scope tokens) :
    ∃ last, source.getLast? = some last ∧ scope.last = some last := by
  have found := List.getLast?_eq_some_getLast stands.nonempty
  exact ⟨source.getLast stands.nonempty, found, stands.last.trans found⟩

/-- The end of the source is a place where a reading may stop. -/
theorem ended (stands : Stands source scope tokens) : ∃ place, StopsAt source none place := by
  obtain ⟨last, found, _⟩ := stands.exists_last
  exact ⟨_, .ended found⟩

/-- The reading stops at the first token that is left, or at the end. -/
theorem stopsAt (stands : Stands source scope tokens) :
    StopsAt source (textAhead tokens) (scope.placeOf tokens) := by
  cases tokens with
  | nil =>
    obtain ⟨last, found, known⟩ := stands.exists_last
    have place : scope.placeOf [] = ⟨last.location.stop, last.location.stop, last.location.line,
        last.location.column⟩ := by
      simp only [Scope.placeOf, List.head?_nil, Option.elim_none, Scope.finish, known]
    rw [place]
    exact .ended found
  | cons token tokens => exact .token stands.listed

/-- A node that was read is made of tokens of the source. -/
theorem nested {part : Part} {room : Nat} {value : part.Result} {node : Node}
    (stands : Stands source scope tokens) (reads : Reads part room tokens value rest)
    (plain : part.Plain) (first : part.row [] = []) (held : .node node ∈ part.pieces value) :
    node.Nested source :=
  (reads.laid plain (first ▸ stands.laid)).sound (.node node) (by simpa using held)

/-- At the end of the source, the last token is blamed. -/
theorem failAtEnd {α : Type} {context : Construct} {error : ParseError}
    (stands : Stands source scope tokens)
    (failed : (Parser.failAtEnd context : Parser α).Fails scope tokens error) :
    Raised source error := by
  obtain ⟨last, found, known⟩ := stands.exists_last
  rw [(Parser.fails_failAtEnd known).mp failed]
  exact .ended (List.mem_of_getLast? found)

end Stands

open Oreo.Parser

variable {source tokens rest : List Token} {scope : Scope} {error : ParseError} {token : Token}
  {node : Node}

/-- A fault at the current token tells what stands there. -/
theorem raised_failHere {α : Type} {fault : Option String → ParseFault} {context : Construct}
    (stands : Stands source scope tokens)
    (told : ∀ found, (fault found).found? = some (context, found) ∧
      (fault found).expectsKnown = true)
    (failed : (failHere fault : Parser α).Fails scope tokens error) : Raised source error := by
  rw [fails_failHere.mp failed]
  exact .misplaced (told _).1 (told _).2 stands.stopsAt

/-- A level that cannot be opened is told where the reading stops. -/
theorem raised_nested {α : Type} {parser : Parser α} (stands : Stands source scope tokens)
    (inner : ∀ room, parser.Fails { scope with room } tokens error → Raised source error)
    (failed : (nested parser).Fails scope tokens error) : Raised source error := by
  rcases fails_nested.mp failed with ⟨_, rfl⟩ | ⟨room, _, failed⟩
  · exact .tooDeep stands.stopsAt
  · exact inner room failed

/-- A name that is missing is told by what stands in its place. -/
theorem raised_expectIdentifier {context : Construct} (stands : Stands source scope tokens)
    (failed : (expectIdentifier context).Fails scope tokens error) : Raised source error := by
  obtain ⟨_, rfl⟩ := fails_expectIdentifier.mp failed
  exact .misplaced rfl rfl stands.stopsAt

/-- A closer that is missing is told by the bracket that was opened. -/
theorem raised_expectClosing (bracket : Bracket) {context : Construct} {opened : Token}
    (stands : Stands source scope tokens) (listed : opened ∈ source)
    (openedKind : opened.kind = .punctuation bracket.opener)
    (failed : (expectClosing bracket context opened.location).Fails scope tokens error) :
    Raised source error := by
  obtain ⟨_, rfl⟩ := fails_expectClosing.mp failed
  exact .unclosed listed openedKind stands.stopsAt

/-- A comma that is out of place is told by its text. -/
theorem comma_stopsAt {comma : Token} (listed : comma ∈ source)
    (commaKind : comma.kind = .punctuation .comma) :
    StopsAt source (some ",") comma.location := by
  have text : comma.text = "," := by
    rw [Token.text, commaKind]
    rfl
  rw [← text]
  exact .token listed

/-- A list fails as one of its items does, at a comma, or because it is not closed. -/
theorem raised_separated (part : Part) {item : Parser part.Result} (bracket : Bracket)
    {context : Construct} {opened : Token} {budget : Nat}
    (stands : Stands source scope tokens) (listed : opened ∈ source)
    (openedKind : opened.kind = .punctuation bracket.opener)
    (sound : ∀ {tokens value rest}, item.Yields scope tokens value rest →
      Reads part scope.room tokens value rest)
    (each : ∀ {tokens}, Stands source scope tokens → item.Fails scope tokens error →
      Raised source error)
    (failed : (separated bracket context opened.location item budget).Fails scope tokens error) :
    Raised source error := by
  induction budget generalizing tokens with
  | zero =>
    -- No list gets here, but the parser says what it would answer: that the source has ended.
    obtain ⟨place, ended⟩ := stands.ended
    rw [fails_fail.mp failed]
    exact .unclosed listed openedKind ended
  | succ budget ih =>
    rw [separated, fails_peek_bind] at failed
    cases tokens with
    | nil =>
      rw [fails_fail.mp failed]
      exact .unclosed listed openedKind stands.stopsAt
    | cons token tokens =>
      simp only [List.head?_cons, fails_ite, fails_fail, Token.isMark_eq, beq_iff_eq] at failed
      rcases failed with ⟨commaKind, rfl⟩ | ⟨_, failed⟩
      · exact .misplaced rfl rfl (comma_stopsAt stands.listed commaKind)
      · rcases fails_bind.mp failed with failed | ⟨first, middle, read, failed⟩
        · exact each stands failed
        · have stands := stands.after (sound read)
          rcases fails_eat_bind.mp failed with ⟨comma, later, rfl, commaKind, failed⟩ | ⟨_, failed⟩
          · simp only [fails_sees_bind, fails_ite, fails_fail] at failed
            rcases failed with ⟨_, rfl⟩ | ⟨_, failed⟩
            · exact .misplaced rfl rfl (comma_stopsAt stands.listed commaKind)
            · rcases fails_bind.mp failed with failed | ⟨others, left, _, failed⟩
              · exact ih stands.tail failed
              · exact absurd failed not_fails_pure
          · rcases fails_bind.mp failed with failed | ⟨closed, left, _, failed⟩
            · exact raised_expectClosing bracket stands listed openedKind failed
            · exact absurd failed not_fails_pure

/-- Items in brackets fail as an item does, or by a comma or a closer that is missing or misplaced.
-/
theorem raised_delimited (part : Part) {item : Parser part.Result} (bracket : Bracket)
    {context : Construct} {opened : Token} (stands : Stands source scope tokens)
    (listed : opened ∈ source) (openedKind : opened.kind = .punctuation bracket.opener)
    (sound : ∀ {tokens value rest}, item.Yields scope tokens value rest →
      Reads part scope.room tokens value rest)
    (each : ∀ {tokens}, Stands source scope tokens → item.Fails scope tokens error →
      Raised source error)
    (failed : (delimited bracket context opened.location item).Fails scope tokens error) :
    Raised source error := by
  rcases fails_eat_bind.mp failed with ⟨_, _, _, _, failed⟩ | ⟨_, failed⟩
  · exact absurd failed not_fails_pure
  · exact raised_separated part bracket stands listed openedKind sound each failed

namespace Grammar

/-- Whatever error the parsers of the grammar end with comes from the tokens of the source. What
they read is a reading. -/
structure Raises (parse : Grammar) (source : List Token) : Prop where
  /-- What the rules ask for is read as it is described. -/
  sound : parse.Sound
  statement : ∀ {scope tokens error}, Stands source scope tokens →
    (parse .statement).Fails scope tokens error → Raised source error
  expression : ∀ {scope tokens error}, Stands source scope tokens →
    (parse .expression).Fails scope tokens error → Raised source error
  named : ∀ {scope tokens error}, Stands source scope tokens →
    (parse .named).Fails scope tokens error → Raised source error
  indexed : ∀ {target scope opened tokens error}, opened.kind = .punctuation .openBracket →
    Stands source scope (opened :: tokens) →
    (parse (.indexed target)).Fails scope (opened :: tokens) error → Raised source error
  conditional : ∀ {scope keyword tokens error}, Stands source scope (keyword :: tokens) →
    (parse .conditional).Fails scope (keyword :: tokens) error → Raised source error

namespace Raises

variable {parse : Grammar} (raises : parse.Raises source)
include raises

/-- Statements up to a closing brace fail as a statement does, or by the brace that is not closed.
-/
theorem blockBody {opened : Token} {budget : Nat} (stands : Stands source scope tokens)
    (listed : opened ∈ source) (openedKind : opened.kind = .punctuation .openBrace)
    (failed : (parse.blockBody opened.location budget).Fails scope tokens error) :
    Raised source error := by
  obtain ⟨place, ended⟩ := stands.ended
  induction budget generalizing tokens with
  | zero =>
    rw [fails_fail.mp failed]
    exact .unclosed listed openedKind ended
  | succ budget ih =>
    rcases fails_eat_bind.mp failed with ⟨_, _, _, _, failed⟩ | ⟨_, failed⟩
    · exact absurd failed not_fails_pure
    · simp only [fails_atEnd_bind, fails_ite, fails_fail] at failed
      rcases failed with ⟨_, rfl⟩ | ⟨_, failed⟩
      · exact .unclosed listed openedKind ended
      · rcases fails_bind.mp failed with failed | ⟨first, middle, read, failed⟩
        · exact raises.statement stands failed
        · have stands := (stands.after (raises.sound.statement read)).of_suffix
            (passSemicolon_suffix middle)
          rcases fails_bind.mp (fails_eat_semicolon.mp failed) with failed | ⟨_, _, _, failed⟩
          · exact ih stands failed
          · exact absurd failed not_fails_pure

/-- Statements in braces fail as a statement does, or by a brace. -/
theorem blockParts (stands : Stands source scope tokens)
    (failed : parse.blockParts.Fails scope tokens error) : Raised source error := by
  simp only [Grammar.blockParts, fails_sees_bind, fails_ite] at failed
  rcases failed with ⟨ahead, failed⟩ | ⟨_, failed⟩
  · obtain ⟨opened, later, rfl, openedKind⟩ := startsWith_iff.mp ahead
    refine raised_nested stands (fun room failed => ?_) failed
    rw [fails_take_bind, fails_left_bind] at failed
    rcases fails_bind.mp failed with failed | ⟨_, _, _, failed⟩
    · exact raises.blockBody (stands.deeper room).tail stands.listed openedKind failed
    · exact absurd failed not_fails_pure
  · exact raised_failHere stands (fun _ => ⟨rfl, rfl⟩) failed

/-- A block fails as its statements do, or by a brace. -/
theorem block (stands : Stands source scope tokens)
    (failed : parse.block.Fails scope tokens error) : Raised source error := by
  rcases fails_bind.mp failed with failed | ⟨_, _, _, failed⟩
  · exact raises.blockParts stands failed
  · exact absurd failed not_fails_pure

/-- A body fails as a block or a statement does. -/
theorem body (stands : Stands source scope tokens)
    (failed : parse.body.Fails scope tokens error) : Raised source error := by
  simp only [Grammar.body, fails_sees_bind, fails_ite] at failed
  rcases failed with ⟨_, failed⟩ | ⟨_, failed⟩
  · exact raises.block stands failed
  · exact raises.statement stands failed

/-- A value, one level deeper. -/
theorem deeperExpression (stands : Stands source scope tokens)
    (failed : (nested (parse .expression)).Fails scope tokens error) : Raised source error :=
  raised_nested stands (fun room => raises.expression (stands.deeper room)) failed

/-- The members of an object fail as what follows the separator does. -/
theorem members {object : Node} (stands : Stands source scope tokens)
    (failed : (parse.members object).Fails scope tokens error) : Raised source error := by
  rw [Grammar.members, fails_peek_bind] at failed
  split at failed
  · exact absurd failed not_fails_pure
  · simp only [fails_peekSecond_bind, fails_ite, not_fails_pure, and_false, or_false,
      fails_skip_bind] at failed
    obtain ⟨_, failed⟩ := failed
    have stands := stands.drop 1
    have failed := fails_bind_pure.mp failed
    exact raised_nested stands (fun room => raises.named (stands.deeper room)) failed

/-- Values between commas. -/
theorem values (bracket : Bracket) {context : Construct} {opened : Token}
    (stands : Stands source scope tokens) (listed : opened ∈ source)
    (openedKind : opened.kind = .punctuation bracket.opener)
    (failed : (delimited bracket context opened.location (parse .expression)).Fails scope tokens
      error) : Raised source error :=
  raised_delimited .expression bracket stands listed openedKind raises.sound.expression
    raises.expression failed

/-- A call fails as its arguments do, or by its parentheses. -/
theorem call {callee : Node} (stands : Stands source scope (token :: tokens))
    (openedKind : token.kind = .punctuation .openParen)
    (failed : (parse.call callee).Fails scope (token :: tokens) error) : Raised source error := by
  rw [Grammar.call, fails_take_bind] at failed
  rcases fails_bind.mp failed with failed | ⟨_, middle, read, failed⟩
  · exact raised_nested stands.tail
      (fun room => raises.values .paren (stands.deeper room).tail stands.listed openedKind) failed
  · obtain ⟨room, _, read⟩ := yields_nested.mp read
    have reads := reads_list .expression raises.sound.expression read
    exact raises.members (stands.tail.after reads) failed

/-- An index fails as its value does, by its brackets, or as what follows the element does. -/
theorem indexedRule {target : Node} (openedKind : token.kind = .punctuation .openBracket)
    (stands : Stands source scope (token :: tokens))
    (failed : (parse.indexed target).Fails scope (token :: tokens) error) :
    Raised source error := by
  have listed := stands.listed
  rw [Grammar.indexed, fails_take_bind] at failed
  rcases fails_bind.mp failed with failed | ⟨index, middle, read, failed⟩
  · exact raises.deeperExpression stands.tail failed
  · obtain ⟨room, _, read⟩ := yields_nested.mp read
    have stands := stands.tail.after (raises.sound.expression read)
    rcases fails_bind.mp failed with failed | ⟨closed, later, read, behind⟩
    · exact raised_expectClosing .square stands listed openedKind failed
    · obtain ⟨mark, rfl, _, _⟩ := yields_expectClosing.mp read
      have stands := stands.tail
      rcases fails_eat_bind.mp behind with ⟨equals, last, rfl, _, failed⟩ | ⟨_, failed⟩
      · exact raises.deeperExpression stands.tail (fails_bind_pure.mp failed)
      · simp only [fails_sees_bind, fails_ite] at failed
        rcases failed with ⟨paren, failed⟩ | ⟨_, ⟨square, failed⟩ | ⟨_, failed⟩⟩
        · obtain ⟨opened, last, rfl, parenKind⟩ := startsWith_iff.mp paren
          exact raises.call stands parenKind failed
        · obtain ⟨opened, last, rfl, squareKind⟩ := startsWith_iff.mp square
          exact raised_nested stands (fun room => raises.indexed squareKind (stands.deeper room))
            failed
        · exact raises.members stands failed

/-- A value that is assigned fails as a value does. -/
theorem assigned {target : Token} {operator : AssignmentOperator}
    (stands : Stands source scope tokens)
    (failed : (parse.assigned target operator).Fails scope tokens error) : Raised source error :=
  raises.deeperExpression stands (fails_bind_pure.mp failed)

/-- An assignment or an update by an operator fails as its value does. -/
theorem namedOperator {name : Token} {operator : Operator} (stands : Stands source scope tokens)
    (failed : (parse.namedOperator name operator).Fails scope tokens error) :
    Raised source error := by
  rw [Grammar.namedOperator, fails_peekSecond_bind] at failed
  split at failed
  · exact absurd failed not_fails_pure
  · simp only [fails_ite, not_fails_pure, and_false, or_false] at failed
    rcases failed with ⟨_, failed⟩ | ⟨_, _, failed⟩
    · split at failed
      · exact raises.assigned (stands.drop 2) (fails_skip_bind.mp failed)
      · exact absurd failed not_fails_pure
    · split at failed
      · exact absurd (fails_skip_bind.mp failed) not_fails_pure
      · exact absurd failed not_fails_pure

/-- A name and what it leads fails as what it leads does, or at the end of the source. -/
theorem namedRule {due : Bool} (stands : Stands source scope tokens)
    (failed : (parse.named due).Fails scope tokens error) : Raised source error := by
  rw [Grammar.named, fails_peek_bind] at failed
  cases tokens with
  | nil => exact stands.failAtEnd failed
  | cons name tokens =>
    simp only [List.head?_cons, fails_skip_bind, fails_peek_bind, List.drop_succ_cons,
      List.drop_zero] at failed
    cases tokens with
    | nil =>
      simp only [List.head?_nil, fails_ite, fails_fail, not_fails_pure, and_false,
        or_false] at failed
      obtain ⟨_, rfl⟩ := failed
      exact .ended stands.listed
    | cons follower tokens =>
      have stands := stands.tail
      simp only [List.head?_cons] at failed
      split at failed
      · exact raises.namedOperator stands failed
      · exact raises.assigned stands.tail (fails_skip_bind.mp failed)
      · exact raises.call stands ‹_› failed
      · exact raises.members stands failed
      · exact raises.members stands failed
      · exact raises.indexedRule ‹_› stands failed
      · exact absurd failed not_fails_pure

/-- A value in parentheses fails as the value does, or by the parentheses. -/
theorem parenthesized (openedKind : token.kind = .punctuation .openParen)
    (stands : Stands source scope (token :: tokens))
    (failed : parse.parenthesized.Fails scope (token :: tokens) error) : Raised source error := by
  have listed := stands.listed
  have stands := stands.tail
  simp only [Grammar.parenthesized, fails_take_bind, fails_atEnd_bind, fails_ite, fails_fail,
    List.drop_succ_cons, List.drop_zero] at failed
  rcases failed with ⟨_, rfl⟩ | ⟨_, failed⟩
  · obtain ⟨place, ended⟩ := stands.ended
    exact .unclosed listed openedKind ended
  · rcases fails_eat_bind.mp failed with ⟨_, _, _, _, failed⟩ | ⟨_, failed⟩
    · exact absurd failed not_fails_pure
    · rcases fails_bind.mp failed with failed | ⟨inner, middle, read, failed⟩
      · exact raises.expression stands failed
      · have stands := stands.after (raises.sound.expression read)
        exact raised_expectClosing .paren stands listed openedKind (fails_bind_pure.mp failed)

/-- An array fails as an element does, or by its brackets. -/
theorem array (openedKind : token.kind = .punctuation .openBracket)
    (stands : Stands source scope (token :: tokens))
    (failed : parse.array.Fails scope (token :: tokens) error) : Raised source error := by
  rw [Grammar.array, fails_take_bind] at failed
  rcases fails_bind.mp failed with failed | ⟨_, _, _, failed⟩
  · exact raises.values .square stands.tail stands.listed openedKind failed
  · exact absurd failed not_fails_pure

/-- An entry of an object literal fails as its key or its value does, or by the brackets of the key.
-/
theorem entry (stands : Stands source scope tokens)
    (failed : parse.entry.Fails scope tokens error) : Raised source error := by
  rcases fails_eat_bind.mp failed with ⟨opened, later, rfl, openedKind, failed⟩ | ⟨_, failed⟩
  · have listed := stands.listed
    have stands := stands.tail
    rcases fails_bind.mp failed with failed | ⟨key, middle, read, failed⟩
    · exact raises.deeperExpression stands failed
    · obtain ⟨room, _, read⟩ := yields_nested.mp read
      have stands := stands.after (raises.sound.expression read)
      rcases fails_bind.mp failed with failed | ⟨closed, later, read, behind⟩
      · exact raised_expectClosing .square stands listed openedKind failed
      · obtain ⟨mark, rfl, _, _⟩ := yields_expectClosing.mp read
        rcases fails_eat_bind.mp behind with ⟨equals, last, rfl, _, failed⟩ | ⟨_, failed⟩
        · exact raises.expression stands.tail.tail (fails_bind_pure.mp failed)
        · exact absurd failed not_fails_pure
  · rw [fails_peek_bind] at failed
    split at failed
    · simp only [fails_peekSecond_bind, fails_ite, fails_skip_bind] at failed
      rcases failed with ⟨_, failed⟩ | ⟨_, failed⟩
      · exact raises.expression (stands.drop 2) (fails_bind_pure.mp failed)
      · exact raises.expression stands (fails_bind_pure.mp failed)
    · exact raises.expression stands (fails_bind_pure.mp failed)

/-- An object literal fails as an entry does, or by its braces. -/
theorem object (openedKind : token.kind = .punctuation .openBrace)
    (stands : Stands source scope (token :: tokens))
    (failed : parse.object.Fails scope (token :: tokens) error) : Raised source error := by
  rw [Grammar.object, fails_take_bind] at failed
  rcases fails_bind.mp failed with failed | ⟨_, _, _, failed⟩
  · exact raised_delimited .entry .brace stands.tail stands.listed openedKind raises.sound.entry
      raises.entry failed
  · exact absurd failed not_fails_pure

/-- A negation fails as its operand does, or because nothing stands behind it. -/
theorem negation (stands : Stands source scope (token :: tokens))
    (failed : parse.negation.Fails scope (token :: tokens) error) : Raised source error := by
  simp only [Grammar.negation, fails_take_bind, fails_atEnd_bind, fails_ite, fails_fail] at failed
  rcases failed with ⟨_, rfl⟩ | ⟨_, failed⟩
  · exact .operand stands.listed
  · exact raises.expression stands.tail (fails_bind_pure.mp failed)

/-- A function without a name fails by its parameters or as its body does. -/
theorem lambda (stands : Stands source scope (token :: tokens))
    (failed : parse.lambda.Fails scope (token :: tokens) error) : Raised source error := by
  have stands := stands.tail
  rw [Grammar.lambda, fails_take_bind] at failed
  rcases fails_eat_bind.mp failed with ⟨opened, later, same, openedKind, failed⟩ | ⟨_, failed⟩
  · obtain rfl : tokens = opened :: later := same
    have parameters {tokens : List Token} {name : Token} {rest : List Token}
        (found : (expectIdentifier .parameters).Yields scope tokens name rest) :
        Reads .parameter scope.room tokens name rest := by
      obtain ⟨rfl, nameKind⟩ := yields_expectIdentifier.mp found
      exact .parameter nameKind
    rcases fails_bind.mp failed with failed | ⟨_, middle, read, failed⟩
    · exact raised_delimited .parameter .paren stands.tail stands.listed openedKind parameters
        raised_expectIdentifier failed
    · have stands := stands.tail.after (reads_list .parameter parameters read)
      exact raises.body stands (fails_bind_pure.mp failed)
  · exact raised_failHere stands (fun _ => ⟨rfl, rfl⟩) failed

/-- An operand fails as what it begins with does, or by a mark that begins none. -/
theorem primary (stands : Stands source scope tokens)
    (failed : parse.primary.Fails scope tokens error) : Raised source error := by
  rw [Grammar.primary, fails_peek_bind] at failed
  cases tokens with
  | nil => exact stands.failAtEnd failed
  | cons token tokens =>
    obtain ⟨kind, location⟩ := token
    cases kind with
    | punctuation mark =>
      cases mark with
      | openParen =>
        exact raised_nested stands (fun room => raises.parenthesized rfl (stands.deeper room))
          failed
      | openBracket =>
        exact raised_nested stands (fun room => raises.array rfl (stands.deeper room)) failed
      | openBrace =>
        exact raised_nested stands (fun room => raises.object rfl (stands.deeper room)) failed
      | bang => exact raised_nested stands (fun room => raises.negation (stands.deeper room)) failed
      | _ =>
        rw [fails_fail.mp failed]
        exact .misplaced rfl rfl (.token stands.listed)
    | otherMark character unknown =>
      rw [fails_fail.mp failed]
      exact .misplaced rfl rfl (.token stands.listed)
    | identifier name => exact raises.namedRule stands failed
    | keyword keyword =>
      cases keyword with
      | fn => exact raised_nested stands (fun room => raises.lambda (stands.deeper room)) failed
      | _ => exact absurd (fails_skip_bind.mp failed) not_fails_pure
    | _ => exact absurd (fails_skip_bind.mp failed) not_fails_pure

/-- Operators and their operands fail as an operand does. -/
theorem climb {budget strength : Nat} {left : Node} (stands : Stands source scope tokens)
    (enough : tokens.length ≤ budget)
    (failed : (parse.climb budget left strength).Fails scope tokens error) :
    Raised source error := by
  induction budget generalizing tokens left strength with
  | zero => exact absurd failed not_fails_pure
  | succ budget ih =>
    rw [Grammar.climb, fails_peek_bind] at failed
    split at failed
    · exact absurd failed not_fails_pure
    · simp only [fails_ite, not_fails_pure, and_false, false_or, fails_skip_bind] at failed
      obtain ⟨_, failed⟩ := failed
      cases tokens with
      | nil => simp_all
      | cons symbol tokens =>
        rw [List.length_cons] at enough
        have stands := stands.tail
        rcases fails_bind.mp failed with failed | ⟨operand, middle, read, failed⟩
        · exact raises.primary stands failed
        · -- A reading of the right side is known only while there are rounds for its tokens.
          have operandRead := raises.sound.primary read
          have fewer := operandRead.suffix.length_le
          have stands := stands.after operandRead
          simp only [List.drop_succ_cons, List.drop_zero] at fewer
          rcases fails_bind.mp failed with failed | ⟨right, later, read, failed⟩
          · exact ih stands (by omega) failed
          · have rightRead := raises.sound.climb (by omega) read
            have fewest := rightRead.suffix.length_le
            exact ih (stands.after rightRead) (by omega) failed

/-- An expression fails as an operand does. -/
theorem expressionRule (stands : Stands source scope tokens)
    (failed : parse.expression.Fails scope tokens error) : Raised source error := by
  rcases fails_bind.mp failed with failed | ⟨operand, middle, read, failed⟩
  · exact raises.primary stands failed
  · have stands := stands.after (raises.sound.primary read)
    simp only [fails_peek_bind, fails_ite, fails_peekSecond_bind, fails_left_bind, not_fails_pure,
      and_false, or_false] at failed
    exact raises.climb stands (Nat.le_refl _) failed.2.2

/-- A declaration fails by its name or as its value does. -/
theorem declaration (stands : Stands source scope (token :: tokens))
    (failed : parse.declaration.Fails scope (token :: tokens) error) : Raised source error := by
  rw [Grammar.declaration, fails_take_bind] at failed
  rcases fails_bind.mp failed with failed | ⟨name, middle, read, failed⟩
  · exact raised_expectIdentifier stands.tail failed
  · obtain ⟨same, _⟩ := yields_expectIdentifier.mp read
    obtain rfl : tokens = name :: middle := same
    rcases fails_eat_bind.mp failed with ⟨equals, later, rfl, _, failed⟩ | ⟨_, failed⟩
    · exact raises.expression stands.tail.tail.tail (fails_bind_pure.mp failed)
    · exact absurd failed not_fails_pure

/-- What follows `else` fails as a block or another test does. -/
theorem alternate (stands : Stands source scope tokens)
    (failed : parse.alternate.Fails scope tokens error) : Raised source error := by
  simp only [Grammar.alternate, fails_seesKeyword_bind, fails_ite, not_fails_pure, and_false,
    or_false, fails_skip_bind, fails_map] at failed
  rcases failed with ⟨_, failed⟩ | ⟨_, ahead, failed⟩
  · exact raises.block (stands.drop 1) failed
  · obtain ⟨follower, later, rfl, _⟩ := startsWithKeyword_iff.mp ahead
    exact raised_nested stands (fun room => raises.conditional (stands.deeper room)) failed

/-- An `if` fails as its test, its body or what follows `else` does. -/
theorem conditionalRule (stands : Stands source scope (token :: tokens))
    (failed : parse.conditional.Fails scope (token :: tokens) error) : Raised source error := by
  rw [Grammar.conditional, fails_take_bind] at failed
  rcases fails_bind.mp failed with failed | ⟨test, middle, read, failed⟩
  · exact raises.expression stands.tail failed
  · have stands := stands.tail.after (raises.sound.expression read)
    rcases fails_bind.mp failed with failed | ⟨consequent, later, read, failed⟩
    · exact raises.body stands failed
    · have stands := (stands.after (raises.sound.body read)).of_suffix
        (passSemicolonBefore_suffix [.else, .elseif] later)
      rw [fails_eatSemicolonBefore_bind] at failed
      exact raises.alternate stands (fails_bind_pure.mp failed)

/-- A `while` loop fails as its test or its body does. -/
theorem whileLoop (stands : Stands source scope (token :: tokens))
    (failed : parse.whileLoop.Fails scope (token :: tokens) error) : Raised source error := by
  rw [Grammar.whileLoop, fails_take_bind] at failed
  rcases fails_bind.mp failed with failed | ⟨test, middle, read, failed⟩
  · exact raises.expression stands.tail failed
  · have stands := stands.tail.after (raises.sound.expression read)
    exact raises.body stands (fails_bind_pure.mp failed)

/-- A `do` loop fails as its parts do, or because no `while` follows. -/
theorem doWhileLoop (stands : Stands source scope (token :: tokens))
    (failed : parse.doWhileLoop.Fails scope (token :: tokens) error) : Raised source error := by
  rw [Grammar.doWhileLoop, fails_take_bind] at failed
  rcases fails_bind.mp failed with failed | ⟨body, middle, read, failed⟩
  · exact raises.body stands.tail failed
  · have stands := (stands.tail.after (raises.sound.body read)).of_suffix
      (passSemicolonBefore_suffix [.while] middle)
    simp only [fails_eatSemicolonBefore_bind, fails_seesKeyword_bind, fails_ite,
      fails_skip_bind] at failed
    rcases failed with ⟨_, failed⟩ | ⟨_, failed⟩
    · exact raises.expression (stands.drop 1) (fails_bind_pure.mp failed)
    · exact raised_failHere stands (fun _ => ⟨rfl, rfl⟩) failed

/-- The step of a `for` loop fails as a statement does, or because a comma is missing. -/
theorem forUpdate {initial : Node} (stands : Stands source scope tokens)
    (failed : (parse.forUpdate initial).Fails scope tokens error) : Raised source error := by
  have noComma (failed : (failHere (.expectedToken "'comma'" .forLoop) : Parser Node).Fails scope
      tokens error) : Raised source error := raised_failHere stands (fun _ => ⟨rfl, rfl⟩) failed
  rcases fails_eat_bind.mp failed with ⟨comma, later, rfl, _, failed⟩ | ⟨_, failed⟩
  · exact raises.statement stands.tail failed
  · cases initial with
    | declaration name value place =>
      simp only [fails_atEnd_bind, fails_ite, not_fails_pure, and_false, or_false] at failed
      exact noComma failed.2
    | _ => exact noComma failed

/-- A step that is read, or implied, leaves a back part of the tokens. -/
theorem forUpdate_suffix {initial update : Node}
    (found : (parse.forUpdate initial).Yields scope tokens update rest) : rest <:+ tokens := by
  rcases yields_eat_bind.mp found with ⟨comma, later, rfl, _, found⟩ | ⟨_, found⟩
  · exact (raises.sound.statement found).suffix.trans (List.suffix_cons comma later)
  · cases initial with
    | declaration name value place =>
      simp only [yields_atEnd_bind, yields_ite, not_yields_failHere, and_false, false_or,
        yields_pure] at found
      exact found.2.2 ▸ List.suffix_refl tokens
    | _ => exact absurd found not_yields_failHere

/-- A `for` loop fails as its parts do, or because a comma is missing. -/
theorem forLoop (stands : Stands source scope (token :: tokens))
    (failed : parse.forLoop.Fails scope (token :: tokens) error) : Raised source error := by
  rw [Grammar.forLoop, fails_take_bind] at failed
  rcases fails_bind.mp failed with failed | ⟨initial, middle, read, failed⟩
  · exact raises.statement stands.tail failed
  · have stands := stands.tail.after (raises.sound.statement read)
    rcases fails_eat_bind.mp failed with ⟨comma, later, rfl, _, failed⟩ | ⟨_, failed⟩
    · have stands := stands.tail
      rcases fails_bind.mp failed with failed | ⟨test, second, read, failed⟩
      · exact raises.expression stands failed
      · have stands := stands.after (raises.sound.expression read)
        rcases fails_bind.mp failed with failed | ⟨update, third, read, failed⟩
        · exact raises.forUpdate stands failed
        · have stands := stands.of_suffix (raises.forUpdate_suffix read)
          exact raises.body stands (fails_bind_pure.mp failed)
    · exact raised_failHere stands (fun _ => ⟨rfl, rfl⟩) failed

omit raises in
/-- An entry of a switch that is no case is blamed. -/
theorem clausesOf {subject : Node} {entries : List Node} (subjectNested : subject.Nested source)
    (nested : ∀ entry ∈ entries, entry.Nested source)
    (failed : (Grammar.clausesOf ("switch " ++ subject.summary ++ " \x7b...\x7d") entries).Fails
      scope tokens error) : Raised source error := by
  induction entries with
  | nil => exact absurd failed not_fails_pure
  | cons entry entries ih =>
    rw [Grammar.clausesOf] at failed
    split at failed
    · exact ih (fun other listed => nested other (List.mem_cons_of_mem entry listed))
        (fails_bind_pure.mp failed)
    · rw [fails_fail.mp failed]
      exact .nonCase subjectNested (nested entry List.mem_cons_self)

/-- A switch fails as its parts do, or by an entry that is no case. -/
theorem switch (stands : Stands source scope (token :: tokens))
    (failed : parse.switch.Fails scope (token :: tokens) error) : Raised source error := by
  have stands := stands.tail
  rw [Grammar.switch, fails_take_bind] at failed
  rcases fails_bind.mp failed with failed | ⟨subject, middle, read, failed⟩
  · exact raises.expression stands failed
  · have subjectRead := raises.sound.expression read
    have subjectNested : subject.Nested source :=
      stands.nested subjectRead trivial rfl List.mem_cons_self
    have stands := stands.after subjectRead
    rcases fails_bind.mp failed with failed | ⟨⟨entries, location⟩, later, read, failed⟩
    · exact raises.blockParts stands failed
    · have block : (Node.block entries location).Nested source :=
        stands.nested (raises.sound.blockParts read) trivial rfl List.mem_cons_self
      refine clausesOf subjectNested (fun entry listed => ?_) (fails_bind_pure.mp failed)
      exact block.child (List.mem_map_of_mem listed)

/-- Further values of a case fail as a value does. -/
theorem alternatives {budget : Nat} (stands : Stands source scope tokens)
    (failed : (parse.alternatives budget).Fails scope tokens error) : Raised source error := by
  induction budget generalizing tokens with
  | zero => exact absurd failed not_fails_pure
  | succ budget ih =>
    rcases fails_eat_bind.mp failed with ⟨mark, later, rfl, _, failed⟩ | ⟨_, failed⟩
    · have stands := stands.tail
      rcases fails_bind.mp failed with failed | ⟨value, middle, read, failed⟩
      · exact raises.expression stands failed
      · exact ih (stands.after (raises.sound.expression read)) (fails_bind_pure.mp failed)
    · exact absurd failed not_fails_pure

/-- The values of a case fail as a value does. -/
theorem clauseHead (stands : Stands source scope tokens)
    (failed : parse.clauseHead.Fails scope tokens error) : Raised source error := by
  simp only [Grammar.clauseHead, fails_seesKeyword_bind, fails_ite, fails_skip_bind,
    not_fails_pure, and_false, false_or] at failed
  obtain ⟨_, failed⟩ := failed
  have stands := stands.drop 1
  rcases fails_bind.mp failed with failed | ⟨value, middle, read, failed⟩
  · exact raises.expression stands failed
  · rw [fails_left_bind] at failed
    exact raises.alternatives (stands.after (raises.sound.expression read))
      (fails_bind_pure.mp failed)

/-- The values of a case leave a back part of the tokens. -/
theorem clauseHead_suffix {head : Clause.Kind × Pattern}
    (found : parse.clauseHead.Yields scope tokens head rest) : rest <:+ tokens := by
  have passed : tokens.drop 1 <:+ tokens := List.drop_suffix 1 tokens
  simp only [Grammar.clauseHead, yields_seesKeyword_bind, yields_ite, yields_skip_bind] at found
  rcases found with ⟨_, answer⟩ | ⟨_, found⟩
  · obtain ⟨_, rfl⟩ := yields_pure.mp answer
    exact passed
  · obtain ⟨value, middle, valueRead, found⟩ := yields_bind.mp found
    rw [yields_left_bind] at found
    obtain ⟨others, left, othersRead, answer⟩ := yields_bind.mp found
    obtain ⟨_, rfl⟩ := yields_pure.mp answer
    have othersRead := raises.sound.alternatives (Nat.le_refl _) othersRead
    exact othersRead.suffix.trans ((raises.sound.expression valueRead).suffix.trans passed)

/-- The body of a case fails as a block or a statement does, or because neither is there. -/
theorem clauseBody (stands : Stands source scope tokens)
    (failed : parse.clauseBody.Fails scope tokens error) : Raised source error := by
  simp only [Grammar.clauseBody, fails_sees_bind, fails_ite] at failed
  rcases failed with ⟨_, failed⟩ | ⟨_, failed⟩
  · exact raises.block stands failed
  · rcases fails_eat_bind.mp failed with ⟨colon, later, rfl, _, failed⟩ | ⟨_, failed⟩
    · exact raises.statement stands.tail failed
    · exact raised_failHere stands (fun _ => ⟨rfl, rfl⟩) failed

/-- A case fails as its values or its body does. -/
theorem clause (stands : Stands source scope tokens)
    (failed : parse.clause.Fails scope tokens error) : Raised source error := by
  rw [Grammar.clause, fails_here_bind] at failed
  rcases fails_bind.mp failed with failed | ⟨head, middle, read, failed⟩
  · exact raises.clauseHead stands failed
  · have stands := stands.of_suffix (raises.clauseHead_suffix read)
    exact raises.clauseBody stands (fails_bind_pure.mp failed)

omit raises in
/-- An argument of a signature that is no name is blamed. -/
theorem parametersOf {arguments : List Node}
    (nested : ∀ argument ∈ arguments, argument.Nested source)
    (failed : (Grammar.parametersOf arguments).Fails scope tokens error) : Raised source error := by
  induction arguments with
  | nil => exact absurd failed not_fails_pure
  | cons argument arguments ih =>
    rw [Grammar.parametersOf] at failed
    split at failed
    · exact ih (fun other listed => nested other (List.mem_cons_of_mem argument listed))
        (fails_bind_pure.mp failed)
    · rw [fails_fail.mp failed]
      exact .parameter (nested argument List.mem_cons_self)

/-- A function with a name fails by the name, by its parameters or as its body does. -/
theorem namedFunction (stands : Stands source scope (token :: tokens))
    (failed : parse.namedFunction.Fails scope (token :: tokens) error) : Raised source error := by
  have stands := stands.tail
  simp only [Grammar.namedFunction, fails_take_bind, List.drop_succ_cons, List.drop_zero,
    fails_peek_bind, fails_ite] at failed
  rcases failed with ⟨ahead, failed⟩ | ⟨_, failed⟩
  · cases tokens with
    | nil => simp at ahead
    | cons name tokens =>
      rcases fails_bind.mp failed with failed | ⟨signature, middle, read, failed⟩
      · exact raises.namedRule stands failed
      · have signatureRead := raises.sound.namedRule ahead read
        have signed : Laid source ([] ++ [.node signature]) middle :=
          signatureRead.laid trivial stands.laid
        have stands := stands.after signatureRead
        split at failed
        · exact raised_failHere stands (fun _ => ⟨rfl, rfl⟩) failed
        · rename_i title arguments split
          rcases fails_bind.mp failed with failed | ⟨parameters, later, read, behind⟩
          · -- The arguments stand in the signature, which takes the place of its pieces.
            refine parametersOf (fun argument listed => ?_) failed
            exact (signed.signature split).sound (.node argument) (by simp [listed])
          · obtain ⟨_, _, rfl⟩ := Sound.parametersOf read
            exact raises.body stands (fails_bind_pure.mp behind)
  · exact raised_failHere stands (fun _ => ⟨rfl, rfl⟩) failed

/-- A function fails as one with or without a name does. -/
theorem function (stands : Stands source scope (token :: tokens))
    (failed : parse.function.Fails scope (token :: tokens) error) : Raised source error := by
  simp only [Grammar.function, fails_peekSecond_bind, fails_ite] at failed
  rcases failed with ⟨_, failed⟩ | ⟨_, failed⟩
  · exact raises.lambda stands failed
  · exact raises.namedFunction stands failed

/-- The end of a function fails as its result does. -/
theorem returns (stands : Stands source scope (token :: tokens))
    (failed : parse.returns.Fails scope (token :: tokens) error) : Raised source error := by
  rw [Grammar.returns, fails_take_bind, fails_peek_bind] at failed
  split at failed
  · exact absurd failed not_fails_pure
  · simp only [fails_ite, not_fails_pure, and_false, false_or] at failed
    exact raises.expression stands.tail (fails_bind_pure.mp failed.2)

/-- The statement of a keyword fails as its rule does, or because the keyword begins none. -/
theorem keywordStatement {keyword : Keyword} (stands : Stands source scope (token :: tokens))
    (keywordKind : token.kind = .keyword keyword)
    (failed : (parse.keywordStatement ⟨keyword, token.location⟩).Fails scope (token :: tokens)
      error) : Raised source error := by
  cases keyword with
  | «let» => exact raises.declaration stands failed
  | var => exact raises.declaration stands failed
  | «if» => exact raises.conditionalRule stands failed
  | «while» => exact raises.whileLoop stands failed
  | «do» => exact raises.doWhileLoop stands failed
  | «for» => exact raises.forLoop stands failed
  | switch => exact raises.switch stands failed
  | case => exact raises.clause stands failed
  | default => exact raises.clause stands failed
  | fn => exact raises.function stands failed
  | «return» => exact raises.returns stands failed
  | «else» =>
    rw [fails_fail.mp failed]
    exact .keyword stands.listed keywordKind
  | elseif =>
    rw [fails_fail.mp failed]
    exact .keyword stands.listed keywordKind

/-- A statement fails as what it begins with does, or by a token that begins none. -/
theorem statementRule (stands : Stands source scope tokens)
    (failed : parse.statement.Fails scope tokens error) : Raised source error := by
  refine raised_nested stands (fun room failed => ?_) failed
  have stands := stands.deeper room
  rw [fails_peek_bind] at failed
  cases tokens with
  | nil => exact stands.failAtEnd failed
  | cons token tokens =>
    simp only [List.head?_cons, fails_record_bind] at failed
    split at failed
    · exact raises.keywordStatement stands ‹_› failed
    · exact raises.namedRule stands failed
    · exact absurd (fails_skip_bind.mp failed) not_fails_pure
    · exact absurd (fails_skip_bind.mp failed) not_fails_pure
    · rw [fails_fail.mp failed]
      exact .misplaced rfl rfl (.token stands.listed)

/-- A grammar raises its errors from the source if the one for its parts does. -/
theorem step : parse.step.Raises source where
  sound := raises.sound.step
  statement := raises.statementRule
  expression := raises.expressionRule
  named := raises.namedRule
  indexed := raises.indexedRule
  conditional := raises.conditionalRule

/-- Statements up to the end of the source fail as one of them does. -/
theorem statements {budget : Nat} (stands : Stands source scope tokens)
    (failed : (parse.statements budget).Fails scope tokens error) : Raised source error := by
  induction budget generalizing tokens with
  | zero => exact absurd failed not_fails_pure
  | succ budget ih =>
    simp only [Grammar.statements, fails_atEnd_bind, fails_ite, not_fails_pure, and_false,
      false_or] at failed
    rcases fails_bind.mp failed.2 with failed | ⟨first, middle, read, failed⟩
    · exact raises.statementRule stands failed
    · have stands := (stands.after (raises.sound.statementRule read)).of_suffix
        (passSemicolon_suffix middle)
      exact ih stands (fails_bind_pure.mp (fails_eat_semicolon.mp failed))

end Raises

/-- The grammar for fewer than a given number of tokens raises its errors from the source. -/
theorem raises_below (source : List Token) (bound : Nat) : (below bound).Raises source := by
  induction bound with
  | zero =>
    exact ⟨sound_below 0, Stands.failAtEnd, Stands.failAtEnd, Stands.failAtEnd,
      fun _ => Stands.failAtEnd, Stands.failAtEnd⟩
  | succ bound ih => exact ih.step

/-- The grammar of the language fails as the one for the number of tokens does. -/
theorem fails_full {goal : Goal} :
    (full goal).Fails scope tokens error ↔
      (below (tokens.length + 1) goal).Fails scope tokens error := by
  unfold Fails full
  rfl

/-- The grammar of the language raises its errors from the source. -/
theorem raises_full (source : List Token) : full.Raises source where
  sound := sound_full
  statement stands failed := (raises_below source _).statement stands (fails_full.mp failed)
  expression stands failed := (raises_below source _).expression stands (fails_full.mp failed)
  named stands failed := (raises_below source _).named stands (fails_full.mp failed)
  indexed openedKind stands failed :=
    (raises_below source _).indexed openedKind stands (fails_full.mp failed)
  conditional stands failed := (raises_below source _).conditional stands (fails_full.mp failed)

end Grammar

/-- Every error of a program comes from its tokens, in one of the ways of `Raised`. -/
theorem raised_of_program (stands : Stands source scope tokens)
    (failed : Parser.program.Fails scope tokens error) : Raised source error := by
  rw [Parser.program, Grammar.program, fails_left_bind] at failed
  rcases fails_bind.mp failed with failed | ⟨statements, middle, read, failed⟩
  · exact (Grammar.raises_full source).statements stands failed
  · split at failed
    · rename_i branch found
      have reads := (Grammar.sound_full.statements (Nat.le_refl _) read).1
      obtain ⟨statement, listed, same⟩ := List.exists_of_findSome?_eq_some found
      have nested : statement.Nested source :=
        stands.nested reads trivial rfl (List.mem_map_of_mem listed)
      cases statement with
      | clause other =>
        cases same
        rw [fails_fail.mp failed]
        exact .caseOutside nested
      | _ => cases same
    · exact absurd failed not_fails_pure

/-- Every error of the tokens of a source comes from these tokens. -/
theorem raised_of_parseTokens {options : Options} (ascending : Ascending tokens)
    (failed : (parseTokens options tokens).outcome = .error error) : Raised tokens error := by
  cases tokens with
  | nil => cases failed
  | cons token tokens =>
    exact raised_of_program
      ⟨Laid.start ascending, rfl, List.cons_ne_nil token tokens⟩ failed

/-- A source is reported for a fault of its characters, or for an error that comes from its
tokens. -/
theorem error_of_parse {options : Options} {text : String} {reported : SourceError}
    (failed : parse options text = .error reported) :
    (∃ fault, reported.value = .scan fault ∧ tokenize text = .error ⟨fault, reported.location⟩) ∨
      ∃ fault tokens, reported.value = .parse fault ∧ tokenize text = .ok tokens ∧
        Raised tokens ⟨fault, reported.location⟩ := by
  unfold parse at failed
  split at failed
  · rename_i error scanned
    cases failed
    exact .inl ⟨error.value, rfl, scanned⟩
  · rename_i tokens scanned
    split at failed
    · rename_i error parsed
      cases failed
      exact .inr ⟨error.value, tokens, rfl, scanned,
        raised_of_parseTokens (tiles_of_tokenize scanned).ascending parsed⟩
    · cases failed

end Oreo
