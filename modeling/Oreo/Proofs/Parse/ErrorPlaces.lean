import Oreo.Proofs.Parse.Errors

/-!
# The places of errors

An error of the parser is placed at a token, or at a node, which runs from the start of a token to
the end of one. Then it spans characters of the source, on the line and in the column of the first
of them.

One place is made up: behind the last token, where the reading stops at the end of the source. It
spans nothing, and it is said to be on the line and in the column where the last token *starts*. As
no token is empty, that is never the line and the column of the place (`at_before`), so an error
says where it is exactly if it spans something. Lines and columns are compared as numbers here,
which their words are in a source of fewer than `2 ^ 32` characters.
-/

namespace Oreo

/-- The first offset is on an earlier line, or on the same line and further left. -/
def ComesBefore (source : List Char) (first second : Nat) : Prop :=
  lineAt source first < lineAt source second ∨
    lineAt source first = lineAt source second ∧ columnAt source first < columnAt source second

/-- A character moves the line or the column on. -/
theorem before_succ {source : List Char} {offset : Nat} (inside : offset < source.length) :
    ComesBefore source offset (offset + 1) := by
  have found := List.getElem?_eq_getElem inside
  unfold ComesBefore
  by_cases feed : source[offset] = '\n'
  · obtain ⟨line, -⟩ := at_succ_of_lineFeed (feed ▸ found)
    omega
  · obtain ⟨line, column⟩ := at_succ_of_other found feed
    omega

/-- Line and column are in the order of the offsets. -/
theorem at_before {source : List Char} {first second : Nat} (earlier : first < second)
    (inside : second ≤ source.length) : ComesBefore source first second := by
  induction second with
  | zero => omega
  | succ second ih =>
    have step := before_succ inside
    rcases Nat.lt_or_eq_of_le (Nat.le_of_lt_succ earlier) with earlier | rfl
    · have before := ih earlier (Nat.le_of_lt inside)
      unfold ComesBefore at *
      omega
    · exact step

namespace Location

/-- The place behind a span, which keeps its line and column. -/
def behind (location : Location) : Location :=
  ⟨location.stop, location.stop, location.line, location.column⟩

variable {source : List Char} {location : Location}

/-- The place behind a span is not on the line and in the column that it tells. -/
theorem PlacedIn.not_sited_behind (placed : location.PlacedIn source)
    (short : source.length < UInt32.size) : ¬ location.behind.Sited source := by
  rintro ⟨line, column⟩
  obtain ⟨startLine, startColumn⟩ := placed.sited short
  have before := at_before placed.start_lt_stop placed.stop_le
  simp only [behind, origin] at line column startLine startColumn
  unfold ComesBefore at before
  omega

/-- A span from a token to a token is placed where its first token is. -/
theorem Framed.placedIn {tokens : List Token} (framed : location.Framed tokens)
    (placed : ∀ token ∈ tokens, token.location.PlacedIn source) : location.PlacedIn source := by
  obtain ⟨first, firstListed, start, line, column⟩ := framed.starts
  obtain ⟨last, lastListed, stop⟩ := framed.stops
  refine ⟨framed.start_lt_stop, ?_, ?_⟩
  · rw [stop]
    exact (placed last lastListed).stop_le
  · rw [origin, start, line, column]
    exact (placed first firstListed).origin_eq

end Location

/-- Every token of a source is placed in it. -/
theorem placed_of_tokens {source : String} {tokens : List Token}
    (scanned : tokenize source = .ok tokens) :
    ∀ token ∈ tokens, token.location.PlacedIn source.toList := fun token listed =>
  Lexer.placed_of_tokenize scanned token.location (List.mem_map_of_mem listed)

/-- An error is placed at a token or a node of the source, or behind the last token. -/
theorem Raised.framed_or_behind {tokens : List Token} {error : ParseError}
    (ascending : Ascending tokens) (raised : Raised tokens error) :
    error.location.Framed tokens ∨
      ∃ last, tokens.getLast? = some last ∧ error.location = last.location.behind := by
  have ofStop {found : Option String} {place : Location} (stops : StopsAt tokens found place) :
      place.Framed tokens ∨
        ∃ last, tokens.getLast? = some last ∧ place = last.location.behind := by
    cases stops with
    | token listed => exact .inl (Location.framed_token ascending listed)
    | ended last => exact .inr ⟨_, last, rfl⟩
  cases raised with
  | misplaced _ _ stops => exact ofStop stops
  | tooDeep stops => exact ofStop stops
  | parameter nested => exact .inl nested.spanned.framed
  | caseOutside nested => exact .inl nested.spanned.framed
  | nonCase _ entryNested => exact .inl entryNested.spanned.framed
  | operand listed => exact .inl (Location.framed_token ascending listed)
  | keyword listed => exact .inl (Location.framed_token ascending listed)
  | unclosed listed => exact .inl (Location.framed_token ascending listed)
  | ended listed => exact .inl (Location.framed_token ascending listed)

/-- Where errors are placed. For every source that has tokens, with any number of levels of nesting:
the place of an error of the parser lies in the source; it is on the line and in the column of its
start, if the source has fewer than `2 ^ 32` characters, exactly if it spans something; and if it
spans nothing, it is behind the last token, on the line and in the column where that token starts.
-/
theorem place_of_parse_error {options : Options} {source : String} {tokens : List Token}
    {error : ParseError} (scanned : tokenize source = .ok tokens)
    (failed : (parseTokens options tokens).outcome = .error error) :
    error.location.start ≤ error.location.stop ∧
      error.location.stop ≤ source.toList.length ∧
      (source.toList.length < UInt32.size →
        (error.location.Sited source.toList ↔ error.location.start < error.location.stop)) ∧
      (error.location.start = error.location.stop →
        ∃ last, tokens.getLast? = some last ∧ error.location = last.location.behind) := by
  have placed := placed_of_tokens scanned
  have ascending := (tiles_of_tokenize scanned).ascending
  rcases (raised_of_parseTokens ascending failed).framed_or_behind ascending with
    framed | ⟨last, found, same⟩
  · have inside := framed.placedIn placed
    have positive := inside.start_lt_stop
    exact ⟨Nat.le_of_lt positive, inside.stop_le,
      fun short => iff_of_true (inside.sited short) positive,
      fun empty => absurd empty (Nat.ne_of_lt positive)⟩
  · have inside := placed last (List.mem_of_getLast? found)
    rw [same]
    exact ⟨Nat.le_refl _, inside.stop_le,
      fun short => iff_of_false (inside.not_sited_behind short) (Nat.lt_irrefl last.location.stop),
      fun _ => ⟨last, found, rfl⟩⟩

/-- In `let )`, the parenthesis is blamed, where it stands. -/
theorem place_of_parse_error_parenthesis :
    let tokens : List Token :=
      [⟨.keyword .let, ⟨0, 3, 1, 1⟩⟩, ⟨.punctuation .closeParen, ⟨4, 5, 1, 5⟩⟩]
    tokenize "let )" = .ok tokens ∧
      ∃ error, (parseTokens {} tokens).outcome = .error error ∧
        error.location.Sited "let )".toList := by
  intro tokens
  have scanned : tokenize "let )" = .ok tokens := by rfl
  have failed : (parseTokens {} tokens).outcome =
      .error ⟨.expectedKind "identifier" .variableName (some ")"), ⟨4, 5, 1, 5⟩⟩ := by rfl
  exact ⟨scanned, _, failed,
    ((place_of_parse_error scanned failed).2.2.1 (by decide)).mpr (by decide)⟩

/-- Behind `let` a name is missing. The error is placed at the offset 3, where the column is 4, but
tells the column 1. -/
theorem place_behind_let :
    ∃ tokens error, tokenize "let" = .ok tokens ∧
      (parseTokens {} tokens).outcome = .error error ∧
      error.location = ⟨3, 3, 1, 1⟩ ∧ ¬ error.location.Sited "let".toList := by
  have scanned : tokenize "let" = .ok [⟨.keyword .let, ⟨0, 3, 1, 1⟩⟩] := by rfl
  refine ⟨_, ⟨.expectedKind "identifier" .variableName none, ⟨3, 3, 1, 1⟩⟩, scanned, rfl, rfl, ?_⟩
  rintro ⟨_, column⟩
  have column : 1 = 4 := column
  cases column

end Oreo
