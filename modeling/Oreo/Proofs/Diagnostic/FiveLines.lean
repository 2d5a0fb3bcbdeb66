import Oreo.Proofs.Diagnostic.Underlines
import Oreo.Proofs.Token.OneLine

/-!
# Diagnostics in five lines

A diagnostic is laid out in lines: the headline, the place, a margin, the line that is shown, and
the marks below it. Each of them is one line as long as the texts that are put into it are. Some of
these come from the source (`Fault.quoted`): the text of a token that was found, the summary of a
node, the beginning of a string that is not ended. They are put in as they are, so a line feed in
one of them breaks the headline, or separates the marks from what they mark.

Only strings and block comments can bring a line feed in (`Spanning`); where these are on one line,
the layout is kept.
-/

namespace Oreo

namespace Diagnostic

/-- The five lines of a diagnostic that shows one line of the source. -/
def fiveLines (diagnostic : Diagnostic) (shown : Excerpt) : List String :=
  ["error[" ++ toString diagnostic.code.number ++ "]: " ++ diagnostic.message,
    "--> " ++ diagnostic.fileName ++ ":" ++ toString diagnostic.location.line ++ ":" ++
      toString diagnostic.location.column ++ ":",
    "  | ",
    toString shown.line ++ " | " ++ shown.text,
    "  | " ++ shown.underline]

/-- What follows the lines: two empty lines and the hint, if there is one. -/
def advice (diagnostic : Diagnostic) : String :=
  if diagnostic.hint.isEmpty then "" else "\n\n" ++ diagnostic.hint

variable {diagnostic : Diagnostic} {shown : Excerpt}

/-- The text of a diagnostic is made of its lines, each with its line feed, and the advice. -/
theorem render_eq_fiveLines (only : diagnostic.excerpts = [shown]) :
    diagnostic.render =
      String.join ((diagnostic.fiveLines shown).map (· ++ "\n")) ++ diagnostic.advice := by
  have place : ":\n" = ":" ++ "\n" := by decide
  have margin : "  | \n" = "  | " ++ "\n" := by decide
  have marks : "\n  | " = "\n" ++ "  | " := by decide
  unfold render fiveLines advice
  rw [only]
  simp only [List.map_cons, List.map_nil, String.join_cons]
  rw [String.join_nil, place, margin, marks]
  simp only [String.append_assoc, String.empty_append]
  rfl

/-- Marks are on one line. -/
theorem oneLine_underline (underlined : shown.Underlined) : OneLine shown.underline := by
  obtain ⟨mark, lead, carets, known, _, marks⟩ := underlined.marks
  have oneLine_run {character : Char} (count : Nat) (noFeed : character ≠ '\n') :
      OneLine (Excerpt.run character count) := by
    refine oneLine_ofList (· == character) (beq_eq_false_iff_ne.mpr noFeed.symm) ?_
    intro other listed
    rw [List.eq_of_mem_replicate listed, beq_self_eq_true]
  rw [marks, oneLine_append]
  refine ⟨oneLine_run lead ?_, oneLine_run carets (by decide)⟩
  rcases known with rfl | rfl <;> decide

/-- The five lines are lines exactly if the message and the text that is shown are. -/
theorem oneLine_fiveLines (file : OneLine diagnostic.fileName) (underlined : shown.Underlined) :
    (∀ line ∈ diagnostic.fiveLines shown, OneLine line) ↔
      OneLine diagnostic.message ∧ OneLine shown.text := by
  have number : OneLine ("error[" ++ toString diagnostic.code.number ++ "]: ") := by
    simp only [oneLine_append]
    exact ⟨⟨by decide, oneLine_natural _⟩, by decide⟩
  have place : OneLine ("--> " ++ diagnostic.fileName ++ ":" ++
      toString diagnostic.location.line ++ ":" ++ toString diagnostic.location.column ++ ":") := by
    simp only [oneLine_append]
    exact ⟨⟨⟨⟨⟨⟨by decide, file⟩, by decide⟩, oneLine_natural _⟩, by decide⟩, oneLine_natural _⟩,
      by decide⟩
  have gutter : OneLine (toString shown.line ++ " | ") :=
    oneLine_append.mpr ⟨oneLine_natural _, by decide⟩
  have margin : OneLine "  | " := by decide
  have marks : OneLine ("  | " ++ shown.underline) :=
    oneLine_append.mpr ⟨margin, oneLine_underline underlined⟩
  constructor
  · intro lines
    have headline := lines _ (.head _)
    have line := lines _ (.tail _ (.tail _ (.tail _ (.head _))))
    exact ⟨(oneLine_append.mp headline).2, (oneLine_append.mp line).2⟩
  · rintro ⟨message, text⟩
    simp only [fiveLines, List.forall_mem_cons]
    exact ⟨oneLine_append.mpr ⟨number, message⟩, place, margin, oneLine_append.mpr ⟨gutter, text⟩,
      marks, by simp⟩

end Diagnostic

/-- The texts of the source that a lexical fault tells. -/
def ScanFault.quoted : ScanFault → List String
  | .unterminatedString quote content => [preview quote content]
  | .unexpectedCharacter character => [String.singleton character]
  | .invalidBinary | .unterminatedComment => []

/-- The texts of the source that a grammatical fault tells. -/
def ParseFault.quoted : ParseFault → List String
  | .expectedKind _ _ found | .expectedToken _ _ found | .unexpectedToken _ found
  | .unclosedBracket _ _ found => found.toList
  | .caseOutsideSwitch shown | .nonCaseInSwitch shown => [shown]
  | .unexpectedEnd _ after => [after]
  | .unexpectedKeyword _ | .nestingTooDeep _ => []

/-- The texts of the source that a fault tells. -/
def Fault.quoted : Fault → List String
  | .scan fault => fault.quoted
  | .parse fault => fault.quoted

/-- The text of a construct has no line break. -/
theorem Construct.oneLine_text (context : Construct) : OneLine context.text := by
  cases context <;> decide

/-- The lead of a construct has no line break. -/
theorem Construct.oneLine_lead (context : Construct) : OneLine context.lead := by
  cases context <;> decide

/-- The text of a bracket has no line break. -/
theorem Bracket.oneLine_text (bracket : Bracket) : OneLine bracket.text := by
  cases bracket <;> decide

/-- Behind a message that is on one line, a text is all that is quoted. -/
theorem oneLine_shown {message text : String} (fixed : OneLine text → OneLine message) :
    OneLine message ∧ OneLine text ↔ ∀ quoted ∈ [text], OneLine quoted := by
  rw [List.forall_mem_singleton]
  exact and_iff_right_of_imp fixed

/-- The message and the text of a lexical fault are on one line exactly if what it quotes is. -/
theorem ScanFault.oneLine_iff (fault : ScanFault) (line : UInt32) :
    OneLine fault.message ∧ OneLine (fault.excerpt line).text ↔
      ∀ text ∈ fault.quoted, OneLine text := by
  cases fault with
  | unterminatedString quote content =>
    have told : OneLine "Unterminated string literal:" := by decide
    exact oneLine_shown fun _ => told
  | unexpectedCharacter character =>
    have told : OneLine "Unexpected character:" := by decide
    exact oneLine_shown fun _ => told
  | invalidBinary =>
    have told : OneLine "A binary literal must have at least 1 valid digit:" := by decide
    have text : OneLine "0b" := by decide
    exact iff_of_true ⟨told, text⟩ (by simp [quoted])
  | unterminatedComment =>
    have told : OneLine "Unterminated block comment:" := by decide
    have text : OneLine "/* ... " := by decide
    exact iff_of_true ⟨told, text⟩ (by simp [quoted])

namespace ParseFault

variable {context : Construct} {found : Option String}

/-- What was found is on one line, if something was. -/
theorem oneLine_found : OneLine (found.getD "") ↔ ∀ text ∈ found.toList, OneLine text := by
  cases found with
  | none => exact iff_of_true (by decide) (by simp)
  | some text => simp

/-- A message that tells what was found, behind what is wanted in a construct. -/
theorem oneLine_wanted {wanted : String} (fixed : OneLine wanted) :
    OneLine (wanted ++ " when parsing " ++ context.text ++ ", got '" ++ found.getD "nothing" ++
      "'") ↔ OneLine (found.getD "") := by
  have front : OneLine (wanted ++ " when parsing " ++ context.text ++ ", got '") := by
    simp only [oneLine_append]
    exact ⟨⟨⟨fixed, by decide⟩, context.oneLine_text⟩, by decide⟩
  have back : OneLine "'" := by decide
  rw [oneLine_append, oneLine_append, and_iff_left back, and_iff_right front]
  cases found with
  | none => exact iff_of_true (by decide) (by decide)
  | some text => rfl

/-- The excerpt of a fault at a token is one line if the text of the token is. -/
theorem oneLine_excerptFound {line : UInt32} :
    OneLine (excerptFound line context found).text ↔ OneLine (found.getD "") := by
  rw [excerptFound, Excerpt.marked, oneLine_append]
  exact and_iff_right context.oneLine_lead

/-- What is told where the source ends too early is on one line with the text before the end. -/
theorem oneLine_ended {after : String} (line : OneLine after) :
    OneLine (message (.unexpectedEnd context after)) := by
  have other : OneLine ("Unexpected end of file while parsing " ++ context.text) :=
    oneLine_append.mpr ⟨by decide, context.oneLine_text⟩
  cases context with
  | assignment =>
    have told : OneLine ("Expected assignment after identifier '" ++ after ++
        "', got nothing.") := by
      simp only [oneLine_append]
      exact ⟨⟨by decide, line⟩, by decide⟩
    exact told
  | expression =>
    have told : OneLine "Expected an expression, got 'end of file'" := by decide
    exact told
  | _ => exact other

/-- The message and the text of a grammatical fault are on one line exactly if what it quotes
is. -/
theorem oneLine_iff {fault : ParseFault} (line : UInt32)
    (known : ∀ expected, fault.expected? = some expected → OneLine expected) :
    OneLine fault.message ∧ OneLine (fault.excerpt line).text ↔
      ∀ text ∈ fault.quoted, OneLine text := by
  have ofFound {message text : String} {found : Option String}
      (told : OneLine message ↔ OneLine (found.getD ""))
      (shown : OneLine text ↔ OneLine (found.getD "")) :
      OneLine message ∧ OneLine text ↔ ∀ text ∈ found.toList, OneLine text := by
    rw [told, shown, and_self, oneLine_found]
  cases fault with
  | expectedKind expected context found | expectedToken expected context found =>
    have wanted : OneLine ("Expected " ++ expected) :=
      oneLine_append.mpr ⟨by decide, known expected rfl⟩
    exact ofFound (oneLine_wanted wanted) oneLine_excerptFound
  | unexpectedToken context found =>
    have told : OneLine ("Unexpected token found while parsing " ++ context.text ++ ":") := by
      simp only [oneLine_append]
      exact ⟨⟨by decide, context.oneLine_text⟩, by decide⟩
    exact (and_iff_right told).trans (oneLine_excerptFound.trans oneLine_found)
  | unexpectedKeyword keyword =>
    have told : OneLine "Unexpected keyword:" := by decide
    exact iff_of_true ⟨told, keyword.oneLine_text⟩ (by simp [quoted])
  | unclosedBracket bracket context found =>
    have wanted : OneLine ("Expected closing " ++ bracket.text) :=
      oneLine_append.mpr ⟨by decide, bracket.oneLine_text⟩
    have text : OneLine (excerpt line (.unclosedBracket bracket context found)).text := by
      have block : OneLine "\x7b ... " := by decide
      have other : OneLine (bracket.opener.text ++ "...") :=
        oneLine_append.mpr ⟨bracket.opener.oneLine_text, by decide⟩
      cases context with
      | block => exact block
      | _ => exact other
    exact (and_iff_left text).trans ((oneLine_wanted wanted).trans oneLine_found)
  | caseOutsideSwitch shown =>
    have told : OneLine
        "'case' was found out of a switch statement. Did you mismatch a '\x7b \x7d' pair?" := by
      decide
    exact oneLine_shown fun _ => told
  | nonCaseInSwitch shown =>
    have told : OneLine
        "Found a 'non-case' object in a switch statement. Only case statements are allowed." := by
      decide
    exact oneLine_shown fun _ => told
  | unexpectedEnd context after => exact oneLine_shown oneLine_ended
  | nestingTooDeep limit =>
    have told : OneLine ("Nesting exceeds the limit of " ++ toString limit ++ " levels") := by
      simp only [oneLine_append]
      exact ⟨⟨by decide, oneLine_natural limit⟩, by decide⟩
    have text : OneLine "..." := by decide
    exact iff_of_true ⟨told, text⟩ (by simp [quoted])

end ParseFault

/-- What an error that comes from tokens expects is on one line. -/
theorem Raised.oneLine_expected {tokens : List Token} {error : ParseError}
    (raised : Raised tokens error) (expected : String)
    (same : error.value.expected? = some expected) : OneLine expected := by
  have ofKnown : ∀ text ∈ ParseFault.expectations, OneLine text := by decide
  refine ofKnown expected ?_
  cases raised with
  | misplaced told known =>
    simp only [ParseFault.expectsKnown] at known
    rw [same] at known
    exact List.contains_iff_mem.mp known
  | operand | parameter =>
    cases same
    decide
  | _ => cases same

/-- The texts of a source that can hold a line feed: the values of its strings and block comments,
and the beginning of a string that is not ended. -/
inductive Spanning (source : String) : String → Prop where
  /-- The text is told of a token of the source. -/
  | body {tokens : List Token} {token : Token} {text : String}
      (scanned : tokenize source = .ok tokens) (listed : token ∈ tokens)
      (body : token.kind.body? = some text) : Spanning source text
  /-- The text is told of a string that does not end. -/
  | unended {quote : Char} {content : String} {place : Location}
      (failed : tokenize source = .error ⟨.unterminatedString quote content, place⟩) :
      Spanning source (ScanFault.preview quote content)

/-- Nodes are told on one line if each of them is. -/
theorem Node.oneLine_summaries {nodes : List Node}
    (each : ∀ node ∈ nodes, OneLine node.summary) : OneLine (Node.summaries nodes) := by
  induction nodes with
  | nil => decide
  | cons node others ih =>
    obtain ⟨first, each⟩ := List.forall_mem_cons.mp each
    cases others with
    | nil => simpa only [Node.summaries] using first
    | cons next others =>
      simp only [Node.summaries, oneLine_append]
      exact ⟨⟨first, by decide⟩, ih each⟩

/-- A case is told on one line if its values are on one line. -/
theorem Clause.oneLine_summary {branch : Clause}
    (each : ∀ value ∈ branch.values, OneLine value.summary) : OneLine branch.summary := by
  obtain ⟨kind, pattern, body, location⟩ := branch
  have told := kind.keyword.oneLine_text
  cases pattern with
  | none => simpa only [Clause.summary] using told
  | single value =>
    simp only [Clause.summary, oneLine_append]
    exact ⟨⟨told, by decide⟩, each value List.mem_cons_self⟩
  | alternatives values =>
    simp only [Clause.summary, oneLine_append]
    exact ⟨⟨told, by decide⟩, Node.oneLine_summaries each⟩

/-- The name of a class of tokens has no line break. -/
theorem Token.Kind.oneLine_name (kind : Token.Kind) : OneLine kind.name := by
  cases kind <;> (simp only [name]; decide)

/-- The name of a kind of nodes has no line break. -/
theorem Node.oneLine_kindName (node : Node) : OneLine node.kindName := by
  cases node with
  | leaf token => exact token.kind.oneLine_name
  | _ =>
    simp only [kindName]
    decide

/-- A node that is made of tokens on one line is told on one line. -/
theorem Node.Nested.oneLine_summary {tokens : List Token} {node : Node}
    (nested : node.Nested tokens) (each : ∀ token ∈ tokens, OneLine token.text) :
    OneLine node.summary := by
  induction nested with
  | @mk node spanned children ih =>
    cases node with
    | leaf token =>
      simp only [Node.summary]
      exact each token (spanned.held token List.mem_cons_self)
    | member object property separator location =>
      simp only [Node.summary, oneLine_append]
      exact ⟨⟨ih object List.mem_cons_self, by cases separator <;> decide⟩,
        ih property (List.mem_cons_of_mem _ List.mem_cons_self)⟩
    | clause branch =>
      simp only [Node.summary]
      refine Clause.oneLine_summary fun value listed => ih value ?_
      exact List.mem_append_left _ (List.mem_map_of_mem listed)
    | _ =>
      simp only [Node.summary]
      exact Node.oneLine_kindName _

/-- Where the reading stops, what was found is on one line if the tokens are. -/
theorem StopsAt.oneLine {tokens : List Token} {found : Option String} {place : Location}
    (stops : StopsAt tokens found place) (each : ∀ token ∈ tokens, OneLine token.text) :
    ∀ text ∈ found.toList, OneLine text := by
  cases stops with
  | token listed => simpa using each _ listed
  | ended => simp

/-- What was found is all that is quoted. -/
theorem ParseFault.quoted_of_found {fault : ParseFault} {context : Construct}
    {found : Option String} (told : fault.found? = some (context, found)) :
    fault.quoted = found.toList := by
  cases fault with
  | expectedKind | expectedToken | unexpectedToken =>
    cases told
    rfl
  | _ => cases told

/-- What an error quotes is on one line if the tokens are from which it comes. -/
theorem Raised.oneLine_quoted {tokens : List Token} {error : ParseError}
    (raised : Raised tokens error) (each : ∀ token ∈ tokens, OneLine token.text) :
    ∀ text ∈ error.value.quoted, OneLine text := by
  cases raised with
  | misplaced told _ stops =>
    rw [ParseFault.quoted_of_found told]
    exact stops.oneLine each
  | unclosed _ _ stops => exact stops.oneLine each
  | parameter nested => exact List.forall_mem_singleton.mpr (nested.oneLine_summary each)
  | caseOutside nested =>
    have told := nested.oneLine_summary each
    simp only [Node.summary] at told
    exact List.forall_mem_singleton.mpr told
  | nonCase subjectNested =>
    refine List.forall_mem_singleton.mpr ?_
    simp only [oneLine_append]
    exact ⟨⟨by decide, subjectNested.oneLine_summary each⟩, by decide⟩
  | ended listed => exact List.forall_mem_singleton.mpr (each _ listed)
  | operand | keyword | tooDeep => simp [ParseFault.quoted]

/-- What an error of a source quotes is on one line if its strings and block comments are. -/
theorem oneLine_quoted_of_parse {options : Options} {source : String} {error : SourceError}
    (failed : parse options source = .error error)
    (spanning : ∀ text, Spanning source text → OneLine text) :
    ∀ text ∈ error.value.quoted, OneLine text := by
  rcases error_of_parse failed with
    ⟨fault, lexical, failed⟩ | ⟨fault, tokens, grammatical, scanned, raised⟩
  · rw [lexical]
    cases fault with
    | unterminatedString quote content =>
      exact List.forall_mem_singleton.mpr (spanning _ (.unended failed))
    | unexpectedCharacter character =>
      exact List.forall_mem_singleton.mpr
        (oneLine_singleton.mpr (ne_lineFeed_of_tokenize failed))
    | invalidBinary | unterminatedComment => simp [Fault.quoted, ScanFault.quoted]
  · rw [grammatical]
    refine raised.oneLine_quoted fun token listed => ?_
    exact oneLine_of_tokenize scanned listed fun text body =>
      spanning text (.body scanned listed body)

/-- The message and the text that is shown are on one line exactly if what is quoted is. -/
theorem oneLine_iff_of_parse {options : Options} {source : String} {error : SourceError}
    (failed : parse options source = .error error) (line : UInt32) :
    OneLine error.value.message ∧ OneLine (error.value.excerpt line).text ↔
      ∀ text ∈ error.value.quoted, OneLine text := by
  rcases error_of_parse failed with ⟨fault, lexical, _⟩ | ⟨fault, _, grammatical, _, raised⟩
  · rw [lexical]
    exact fault.oneLine_iff line
  · rw [grammatical]
    exact ParseFault.oneLine_iff line raised.oneLine_expected

/-- When the layout is kept. For every source for which an error is reported, in a file whose name
is on one line, the text of the diagnostic is made of five lines and the advice; the message and the
text that is shown, and so each of the five, are on one line exactly if the texts are that the error
quotes from the source; and these are, if the strings and block comments of the source are. -/
theorem fiveLines_of_error {options : Options} {source : String} {error : SourceError}
    (file : OneLine options.fileName) (failed : parse options source = .error error) :
    ∃ shown, (error.diagnose options).excerpts = [shown] ∧
      (error.diagnose options).render =
        String.join (((error.diagnose options).fiveLines shown).map (· ++ "\n")) ++
          (error.diagnose options).advice ∧
      (OneLine (error.diagnose options).message ∧ OneLine shown.text ↔
        ∀ text ∈ error.value.quoted, OneLine text) ∧
      ((∀ line ∈ (error.diagnose options).fiveLines shown, OneLine line) ↔
        ∀ text ∈ error.value.quoted, OneLine text) ∧
      ((∀ text, Spanning source text → OneLine text) →
        ∀ text ∈ error.value.quoted, OneLine text) := by
  have quoted := oneLine_iff_of_parse failed error.location.line
  refine ⟨error.value.excerpt error.location.line, rfl, Diagnostic.render_eq_fiveLines rfl, quoted,
    ?_, oneLine_quoted_of_parse failed⟩
  exact (Diagnostic.oneLine_fiveLines file (underlined_excerpt_of_parse failed)).trans quoted

/-- Without strings and comments, the diagnostic of `let )` has five lines. -/
theorem fiveLines_of_error_parenthesis :
    let error : SourceError :=
      ⟨.parse (.expectedKind "identifier" .variableName (some ")")), ⟨4, 5, 1, 5⟩⟩
    OneLine ({ : Options }).fileName ∧ parse {} "let )" = .error error ∧
      ∃ shown, (error.diagnose {}).excerpts = [shown] ∧
        ∀ line ∈ (error.diagnose {}).fiveLines shown, OneLine line := by
  intro error
  have file : OneLine ({ : Options }).fileName := by decide
  have failed : parse {} "let )" = .error error := by rfl
  obtain ⟨shown, only, _, _, lines, _⟩ := fiveLines_of_error file failed
  exact ⟨file, failed, shown, only, lines.mpr (by decide)⟩

/-- In `let "a\nb"`, the string is found where a name is expected. Its line feed breaks the headline
and separates the marks from the text. -/
theorem string_breaks_lines :
    ∃ error, parse {} "let \"a\\nb\"" = .error error ∧
      (error.diagnose {}).message =
        "Expected identifier when parsing variable name, got '\"a\nb\"'" ∧
      ¬ OneLine (error.diagnose {}).message ∧
      ∀ shown ∈ (error.diagnose {}).excerpts, ¬ OneLine shown.text := by
  -- An answer of `tokenize` cannot be decided to be equal to another, but what it holds can.
  have scanned : (tokenize "let \"a\\nb\"").toOption = some
      [⟨.keyword .let, ⟨0, 3, 1, 1⟩⟩, ⟨.string "a\nb" '"', ⟨4, 10, 1, 5⟩⟩] := by
    decide +kernel
  cases answer : tokenize "let \"a\\nb\"" with
  | error fault =>
    rw [answer] at scanned
    cases scanned
  | ok tokens =>
    rw [answer] at scanned
    cases scanned
    refine ⟨⟨.parse (.expectedKind "identifier" .variableName (some "\"a\nb\"")),
      ⟨4, 10, 1, 5⟩⟩, ?_, by rfl, by decide, by decide⟩
    rw [parse, answer]
    rfl

end Oreo
