import Oreo.Proofs.Token.Locality
import Oreo.Proofs.Token.Scanning

/-!
# Tokens are longest lexemes

A token can be cut out of its source: the characters that it spans are one token of the same class
when they are scanned alone. They are also as many as a token can have that starts there, for a
longer piece of the source begins with the same lexeme and goes on behind it.

Tokens whose class does not change their spelling can be told from their text: it is what the
source has there (`Token.Kind.WrittenAs`).
-/

namespace Oreo

/-- The characters of a source from one offset up to another. -/
def slice (source : String) (start stop : Nat) : String :=
  String.ofList ((source.toList.drop start).take (stop - start))

/-- The text without a line feed at its end. -/
def withoutLineFeed (text : String) : String :=
  if text.toList.getLast? = some '\n' then String.ofList text.toList.dropLast else text

/-- Whether a class has the text that stands in the source. A number is written by its value and a
string with its escapes resolved, so neither says how it was written; the text of a line comment
is without the line feed that ends it. -/
def Token.Kind.WrittenAs (kind : Token.Kind) (written : String) : Prop :=
  match kind with
  | .identifier _ | .keyword _ | .boolean _ | .operator _ | .punctuation _ | .otherOperator ..
  | .otherMark .. | .blockComment _ => kind.text = written
  | .lineComment _ => kind.text = withoutLineFeed written
  | .number _ | .string .. => True

namespace Lexeme

variable {text rest : List Char} {first : Char} {kind : Token.Kind}

/-- The classes of words are told from their text. -/
theorem wordKind_written (letters : String) : (wordKind letters).WrittenAs letters := by
  unfold wordKind
  split
  · rename_i keyword found
    have same := List.find?_some found
    exact beq_iff_eq.mp same
  split
  · rename_i same
    exact same.symm
  split
  · rename_i same
    exact same.symm
  · rfl

/-- Word characters are taken as they stand. -/
theorem word_written (scanned : (word text).outcome = .ok kind) :
    kind.WrittenAs (String.ofList (text.take (word text).length)) := by
  have front : text.take (text.takeWhile isWordPart).length = text.takeWhile isWordPart :=
    (List.prefix_iff_eq_take.mp (List.takeWhile_prefix _)).symm
  simp only [word] at scanned ⊢
  cases scanned
  rw [front]
  exact wordKind_written _

/-- What is scanned as a word is a name, a keyword or a truth value. -/
theorem word_kind (scanned : (word text).outcome = .ok kind) :
    (∃ name, kind = .identifier name) ∨ (∃ keyword, kind = .keyword keyword) ∨
      ∃ value, kind = .boolean value := by
  cases scanned
  unfold wordKind
  split
  · exact .inr (.inl ⟨_, rfl⟩)
  split
  · exact .inr (.inr ⟨_, rfl⟩)
  split
  · exact .inr (.inr ⟨_, rfl⟩)
  · exact .inl ⟨_, rfl⟩

/-- Digits behind the mark of a binary number are a number. -/
theorem binary_kind (scanned : (binary text).outcome = .ok kind) :
    ∃ value, kind = .number value := by
  dsimp only [binary] at scanned
  split at scanned
  · cases scanned
  · cases scanned
    exact ⟨_, rfl⟩

/-- What is scanned as a number is one. -/
theorem number_kind (scanned : (number text).outcome = .ok kind) :
    ∃ value, kind = .number value := by
  unfold number at scanned
  split at scanned
  · exact binary_kind scanned
  · exact binary_kind scanned
  · cases scanned
    exact ⟨_, rfl⟩

/-- What is scanned as a string is one. -/
theorem string_kind {quote : Char} (scanned : (string quote text).outcome = .ok kind) :
    ∃ value, kind = .string value quote := by
  simp only [string] at scanned
  split at scanned
  · cases scanned
    exact ⟨_, rfl⟩
  · cases scanned

/-- What stands between the markers of a block comment is its value. -/
theorem blockComment_kind (scanned : (blockComment text).outcome = .ok kind) :
    ∃ value, kind = .blockComment value := by
  unfold blockComment at scanned
  split at scanned
  · cases scanned
    exact ⟨_, rfl⟩
  · cases scanned

/-- A line feed at the end is left out. -/
theorem withoutLineFeed_append (front : List Char) :
    withoutLineFeed (String.ofList (front ++ ['\n'])) = String.ofList front := by
  simp [withoutLineFeed]

/-- Where there is no line feed, none is left out. -/
theorem withoutLineFeed_of_not_mem {front : List Char} (noFeed : '\n' ∉ front) :
    withoutLineFeed (String.ofList front) = String.ofList front := by
  have last : front.getLast? ≠ some '\n' := fun same => noFeed (List.mem_of_getLast? same)
  simp [withoutLineFeed, last]

/-- A line comment is its slashes and its line, and the line feed if there is one. -/
theorem take_lineComment (text : List Char) :
    ('/' :: '/' :: text).take (lineComment text).length =
      '/' :: '/' :: (text.takeWhile (· != '\n') ++ if '\n' ∈ text then ['\n'] else []) := by
  have parts : text.takeWhile (· != '\n') ++ text.dropWhile (· != '\n') = text :=
    List.takeWhile_append_dropWhile
  simp only [lineComment]
  rw [Nat.add_assoc, Nat.add_comm]
  simp only [List.take_succ_cons]
  by_cases feed : '\n' ∈ text
  · rw [if_pos (length_line_lt feed), if_pos feed]
    cases behind : text.dropWhile (· != '\n') with
    | nil =>
      have shorter := length_line_lt feed
      rw [behind, List.append_nil] at parts
      rw [parts] at shorter
      omega
    | cons first others =>
      have isFeed : first = '\n' := by
        have stopped := List.head?_dropWhile_not (· != '\n') text
        simpa [behind] using stopped
      rw [behind, isFeed] at parts
      have front := @List.take_length_add_append _ (text.takeWhile (· != '\n')) ('\n' :: others) 1
      rw [parts] at front
      rw [front]
      rfl
  · have line := line_append feed []
    rw [List.append_nil, List.takeWhile_nil, List.append_nil] at line
    rw [line, if_neg (Nat.lt_irrefl _), if_neg feed, Nat.add_zero, List.take_length,
      List.append_nil]

/-- The text of a line comment is without its line feed. -/
theorem lineComment_written (scanned : (lineComment text).outcome = .ok kind) :
    kind.WrittenAs (String.ofList (('/' :: '/' :: text).take (lineComment text).length)) := by
  have noFeed : '\n' ∉ text.takeWhile (· != '\n') := by
    intro member
    have other := List.all_eq_true.mp List.all_takeWhile _ member
    simp at other
  rw [take_lineComment]
  simp only [lineComment] at scanned
  cases scanned
  generalize text.takeWhile (· != '\n') = line at noFeed ⊢
  have shown : Token.Kind.text (.lineComment (String.ofList line)) =
      String.ofList ('/' :: '/' :: line) := by
    simp [Token.Kind.text, String.ext_iff]
  rw [Token.Kind.WrittenAs, shown]
  split
  · exact (withoutLineFeed_append ('/' :: '/' :: line)).symm
  · rw [List.append_nil]
    exact (withoutLineFeed_of_not_mem (by simpa using noFeed)).symm

/-- The markers that close block comments end in the last one. -/
theorem take_closeBlocks {depth length : Nat} (closed : closeBlocks depth text = some length) :
    text.take length = text.take (length - 2) ++ ['*', '/'] := by
  fun_induction closeBlocks depth text generalizing length with
  | case1 => contradiction
  | case2 => contradiction
  | case3 first second rest marker =>
    cases closed
    simp [marker]
  | case4 first second rest marker depth ih =>
    obtain ⟨inner, found, rfl⟩ := Option.map_eq_some_iff.mp closed
    obtain ⟨before, rfl⟩ : ∃ before, inner = before + 2 :=
      ⟨inner - 2, by have := two_le_closeBlocks found; omega⟩
    simpa [Nat.add_comm 2] using ih found
  | case5 depth first second rest outer marker ih =>
    obtain ⟨inner, found, rfl⟩ := Option.map_eq_some_iff.mp closed
    obtain ⟨before, rfl⟩ : ∃ before, inner = before + 2 :=
      ⟨inner - 2, by have := two_le_closeBlocks found; omega⟩
    simpa [Nat.add_comm 2] using ih found
  | case6 depth first second rest outer inner ih =>
    obtain ⟨taken, found, rfl⟩ := Option.map_eq_some_iff.mp closed
    obtain ⟨before, rfl⟩ : ∃ before, taken = before + 2 :=
      ⟨taken - 2, by have := two_le_closeBlocks found; omega⟩
    have next := ih found
    simpa [Nat.add_comm 1] using next

/-- A block comment is written between its markers. -/
theorem blockComment_written (scanned : (blockComment text).outcome = .ok kind) :
    kind.WrittenAs (String.ofList (('/' :: '*' :: text).take (blockComment text).length)) := by
  cases closed : closeBlocks 0 text with
  | none => simp [blockComment, closed] at scanned
  | some length =>
    simp only [blockComment, closed] at scanned ⊢
    cases scanned
    rw [Token.Kind.WrittenAs, Token.Kind.text, Nat.add_comm 2]
    simp [take_closeBlocks closed, String.ext_iff]

/-- A symbol is written with one character or with two. -/
theorem symbol_written (scanned : (symbol first rest).outcome = .ok kind) :
    kind.WrittenAs (String.ofList ((first :: rest).take (symbol first rest).length)) := by
  unfold symbol at scanned ⊢
  split at scanned
  · rename_i operator found
    cases scanned
    have same := List.find?_some found
    rw [Token.Kind.WrittenAs, Token.Kind.text]
    simpa [String.ext_iff] using same
  · rename_i operator single found
    cases scanned
    cases rest with
    | nil => simp at found
    | cons second rest =>
      have same := List.find?_some found
      rw [Token.Kind.WrittenAs, Token.Kind.text]
      simpa [String.ext_iff] using same
  · rename_i mark single double found
    cases scanned
    have same := List.find?_some found
    rw [Token.Kind.WrittenAs, Token.Kind.text, Punctuation.text]
    simpa [String.ext_iff] using same
  · cases scanned

/-- Whatever is found at the beginning of a text is written as it stands there. -/
theorem scan_written (scanned : (scan first rest).outcome = .ok kind) :
    kind.WrittenAs (String.ofList ((first :: rest).take (scan first rest).length)) := by
  revert scanned
  unfold scan
  split
  · exact word_written
  split
  · intro scanned
    obtain ⟨value, rfl⟩ := number_kind scanned
    trivial
  split
  · intro scanned
    obtain ⟨value, rfl⟩ := string_kind scanned
    trivial
  split
  · rename_i slashes
    obtain ⟨rfl, slash⟩ := slashes
    obtain ⟨text, rfl⟩ := List.head?_eq_some_iff.mp slash
    exact lineComment_written
  split
  · rename_i marker
    obtain ⟨rfl, star⟩ := marker
    obtain ⟨text, rfl⟩ := List.head?_eq_some_iff.mp star
    exact blockComment_written
  exact symbol_written

end Lexeme

namespace Lexer

/-- A token of a source is the lexeme that stands where the token starts. -/
structure LexemeAt (source : List Char) (token : Token) (first : Char) (rest : List Char) :
    Prop where
  /-- The text from the start of the token on. -/
  ahead : source.drop token.location.start = first :: rest
  /-- It does not begin with a blank. -/
  notBlank : Text.isBlank first = false
  /-- The lexeme has the class of the token. -/
  scanned : (Lexeme.scan first rest).outcome = .ok token.kind
  /-- The token spans what the lexeme takes. -/
  stop_eq : token.location.stop = token.location.start + (Lexeme.scan first rest).length

/-- Every token that is scanned is the lexeme that stands there. -/
theorem Scans.lexemeAt {source : List Char} {lexer : Lexer} {tokens : List Token}
    (scans : Scans lexer tokens) (stands : StandsIn source lexer) :
    ∀ token ∈ tokens, ∃ first rest, LexemeAt source token first rest := by
  induction scans with
  | done blank => simp
  | @token lexer first rest kind tokens ahead scanned others ih =>
    intro token member
    rcases List.mem_cons.mp member with rfl | member
    · exact ⟨first, rest, stands.skipBlanks.rest_eq ▸ ahead, not_blank_of_ahead ahead, scanned, rfl⟩
    · exact ih (stands.skipBlanks.drop _) token member

/-- A text that begins with a lexeme is scanned as this lexeme and what follows it. -/
theorem tokenize_lexeme {first : Char} {rest : List Char} {kind : Token.Kind}
    (notBlank : Text.isBlank first = false)
    (scanned : (Lexeme.scan first rest).outcome = .ok kind) :
    tokenize (String.ofList (first :: rest)) =
      (tokens ⟨(first :: rest).drop (Lexeme.scan first rest).length,
        Position.advance {} ((first :: rest).take (Lexeme.scan first rest).length)⟩).1.map
        (⟨kind, ⟨0, (Lexeme.scan first rest).length, 1, 1⟩⟩ :: ·) := by
  have skipped : (ofSource (String.ofList (first :: rest))).skipBlanks = ⟨first :: rest, {}⟩ := by
    simp [ofSource, skipBlanks, notBlank]
  have read := @tokens_of_token (ofSource (String.ofList (first :: rest))) first rest kind
    (by rw [skipped]) scanned
  rw [past, skipped] at read
  simpa [tokenize, Location.ofPosition, drop] using read

namespace LexemeAt

variable {source : String} {token : Token} {first : Char} {rest : List Char}

/-- The lexeme ends inside the source. -/
theorem stop_le (lexeme : LexemeAt source.toList token first rest) :
    token.location.stop ≤ source.length := by
  have total := congrArg List.length lexeme.ahead
  have bound := (Lexeme.scan_fits first rest).length_le
  have stop_eq := lexeme.stop_eq
  rw [List.length_drop, String.length_toList, List.length_cons] at total
  omega

/-- A piece of the source that begins with a token and is at least as long is scanned as this
token and what is left of the piece. -/
theorem tokenize_slice (lexeme : LexemeAt source.toList token first rest) {stop : Nat}
    (inside : token.location.stop ≤ stop) :
    ∃ left : Lexer, tokenize (slice source token.location.start stop) =
        left.tokens.1.map
          (⟨token.kind, ⟨0, token.location.stop - token.location.start, 1, 1⟩⟩ :: ·) ∧
      (token.location.stop = stop → left.rest = []) := by
  have positive := (Lexeme.scan_fits first rest).extent_pos
  have stop_eq := lexeme.stop_eq
  simp only [Lexeme.extent, lexeme.scanned] at positive
  obtain ⟨count, counted⟩ : ∃ count, stop - token.location.start = count + 1 :=
    ⟨stop - token.location.start - 1, by omega⟩
  have same : Lexeme.scan first (rest.take count ++ []) = Lexeme.scan first rest :=
    Lexeme.scan_break trivial (.inl rfl) lexeme.scanned (by omega)
  rw [List.append_nil] at same
  have piece : slice source token.location.start stop =
      String.ofList (first :: rest.take count) := by
    rw [slice, lexeme.ahead, counted, List.take_succ_cons]
  have read := tokenize_lexeme lexeme.notBlank (same ▸ lexeme.scanned)
  rw [← piece, same, show (Lexeme.scan first rest).length =
    token.location.stop - token.location.start by omega] at read
  refine ⟨_, read, ?_⟩
  intro whole
  apply List.drop_eq_nil_of_le
  rw [List.length_cons, List.length_take]
  omega

end LexemeAt

end Lexer

/-- The token spans the whole text. -/
def Token.SpansAll (token : Token) (text : String) : Prop :=
  token.location.start = 0 ∧ token.location.stop = text.length

/-- A piece of a source has as many characters as there are between its ends. -/
theorem length_slice {source : String} {start stop : Nat} (inside : stop ≤ source.length) :
    (slice source start stop).length = stop - start := by
  simp only [slice, String.length_ofList, List.length_take, List.length_drop, String.length_toList]
  omega

/-- Every token of a source is a longest lexeme that does not depend on its surroundings. What it
spans is one token of the same class when it is scanned alone; no longer piece of the source that
starts there is one token; and it is written as the source has it, as far as its class tells. -/
theorem token_longest {source : String} {tokens : List Token} {token : Token}
    (scanned : tokenize source = .ok tokens) (member : token ∈ tokens) :
    (∃ alone, tokenize (slice source token.location.start token.location.stop) = .ok [alone] ∧
        alone.kind = token.kind ∧
        alone.SpansAll (slice source token.location.start token.location.stop)) ∧
      (∀ stop, token.location.stop < stop → stop ≤ source.length →
        ¬ ∃ other, tokenize (slice source token.location.start stop) = .ok [other] ∧
          other.SpansAll (slice source token.location.start stop)) ∧
      token.kind.WrittenAs (slice source token.location.start token.location.stop) := by
  obtain ⟨first, rest, lexeme⟩ :=
    (Lexer.scans_of_tokens scanned).lexemeAt (Lexer.StandsIn.ofSource source) token member
  refine ⟨?_, ?_, ?_⟩
  · obtain ⟨left, read, nothing⟩ := lexeme.tokenize_slice (Nat.le_refl _)
    have blank : left.skipBlanks.rest = [] := by
      simp [Lexer.skipBlanks, nothing rfl]
    rw [Lexer.tokens_of_blank blank] at read
    exact ⟨_, read, rfl, rfl, (length_slice lexeme.stop_le).symm⟩
  · rintro stop longer inside ⟨other, alone, _, spans⟩
    obtain ⟨left, read, _⟩ := lexeme.tokenize_slice (Nat.le_of_lt longer)
    rw [length_slice inside] at spans
    have first_eq : other.location.stop = token.location.stop - token.location.start := by
      rw [alone] at read
      cases answer : left.tokens.1 with
      | error error =>
        rw [answer] at read
        cases read
      | ok others =>
        rw [answer] at read
        cases read
        rfl
    have stop_eq := lexeme.stop_eq
    omega
  · have written := Lexeme.scan_written lexeme.scanned
    have length_eq : token.location.stop - token.location.start =
        (Lexeme.scan first rest).length := by
      have stop_eq := lexeme.stop_eq
      omega
    rw [slice, lexeme.ahead, length_eq]
    exact written

/-- A number that takes a dot because a digit stands behind it is the same number when it is cut
out between a name and a comment, and cannot be made longer. -/
theorem token_longest_number :
    tokenize "a.5//b" = .ok [⟨.identifier "a", ⟨0, 1, 1, 1⟩⟩,
        ⟨.number (.ofDecimalRun ['.', '5']), ⟨1, 3, 1, 2⟩⟩, ⟨.lineComment "b", ⟨3, 6, 1, 4⟩⟩] ∧
      (∃ alone, tokenize (slice "a.5//b" 1 3) = .ok [alone] ∧
        alone.kind = .number (.ofDecimalRun ['.', '5']) ∧
        alone.SpansAll (slice "a.5//b" 1 3)) ∧
      ¬ ∃ other, tokenize (slice "a.5//b" 1 4) = .ok [other] ∧
        other.SpansAll (slice "a.5//b" 1 4) := by
  have scanned : tokenize "a.5//b" = .ok [⟨.identifier "a", ⟨0, 1, 1, 1⟩⟩,
      ⟨.number (.ofDecimalRun ['.', '5']), ⟨1, 3, 1, 2⟩⟩,
      ⟨.lineComment "b", ⟨3, 6, 1, 4⟩⟩] := by rfl
  have member : (⟨.number (.ofDecimalRun ['.', '5']), ⟨1, 3, 1, 2⟩⟩ : Token) ∈
      [⟨.identifier "a", ⟨0, 1, 1, 1⟩⟩, ⟨.number (.ofDecimalRun ['.', '5']), ⟨1, 3, 1, 2⟩⟩,
        (⟨.lineComment "b", ⟨3, 6, 1, 4⟩⟩ : Token)] :=
    List.mem_cons_of_mem _ List.mem_cons_self
  obtain ⟨alone, longest, _⟩ := token_longest scanned member
  exact ⟨scanned, alone, longest 4 (by decide) (by decide)⟩

end Oreo
