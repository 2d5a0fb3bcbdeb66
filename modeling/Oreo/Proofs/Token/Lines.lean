import Oreo.Proofs.Token.Longest

/-!
# Lines are scanned one by one

A line feed parts what stands before it from what stands behind it. A text that can be scanned,
a line feed and a second text are scanned as the tokens of the first and the tokens of the second,
moved by the characters and the lines before them; if the second has a fault, so has the whole,
moved in the same way.

No lexeme of the first text goes on behind the line feed (`Lexeme.scan_break`), with one exception:
a line comment at its end takes the line feed, and is longer by it.

How places are moved is a matter of positions alone: every operation of a lexer keeps the
difference of two lexers that read the same text at different places.
-/

namespace Oreo

/-- The position so many characters and lines further on, in the same column. -/
def Position.moved (position : Position) (characters lines : Nat) : Position :=
  { position with offset := position.offset + characters, line := position.line + .ofNat lines }

/-- The span so many characters and lines further on, in the same column. -/
def Location.moved (location : Location) (characters lines : Nat) : Location where
  start := location.start + characters
  stop := location.stop + characters
  line := location.line + .ofNat lines
  column := location.column

/-- The line of a span of a source is moved as a number, if a word holds as many lines as the source
has characters and is moved by. -/
theorem Location.PlacedIn.line_moved {source : List Char} {location : Location} {lines : Nat}
    (placed : location.PlacedIn source) (fits : source.length + lines < UInt32.size)
    (characters : Nat) :
    (location.moved characters lines).line.toNat = location.line.toNat + lines := by
  have inside : location.start < source.length :=
    Nat.lt_of_lt_of_le placed.start_lt_stop placed.stop_le
  have bound := lineAt_add_columnAt_le (Nat.le_of_lt inside)
  have positive : 1 ≤ columnAt source location.start := Nat.le_add_right _ _
  have line : location.line.toNat = lineAt source location.start :=
    (placed.sited (Nat.lt_of_le_of_lt (Nat.le_add_right _ _) fits)).1
  have sum : lineAt source location.start + lines < UInt32.size := by omega
  rw [moved, UInt32.toNat_add, UInt32.toNat_ofNat_of_lt' (by omega), line]
  exact Nat.mod_eq_of_lt sum

/-- The token at another place. -/
def Token.moved (token : Token) (characters lines : Nat) : Token :=
  { token with location := token.location.moved characters lines }

/-- The value at another place. -/
def Located.moved {α : Type} (located : Located α) (characters lines : Nat) : Located α :=
  { located with location := located.location.moved characters lines }

namespace Lexer

/-- The lexer for the same text at another place. -/
def moved (lexer : Lexer) (characters lines : Nat) : Lexer :=
  { lexer with position := lexer.position.moved characters lines }

/-- The answer for the same text at another place. -/
def Answer.moved (characters lines : Nat) : Answer → Answer
  | .ok tokens => .ok (tokens.map (·.moved characters lines))
  | .error error => .error (error.moved characters lines)

variable {lexer : Lexer} {characters lines : Nat}

/-- Reading goes on from the moved position. -/
theorem advance_moved (position : Position) (run : List Char) :
    (position.moved characters lines).advance run =
      (position.advance run).moved characters lines := by
  induction run generalizing position with
  | nil => rfl
  | cons character run ih =>
    have one : (position.moved characters lines).next character =
        (position.next character).moved characters lines := by
      have offset : position.offset + characters + 1 = position.offset + 1 + characters := by
        omega
      unfold Position.next Position.moved
      split
      · simp only [offset, UInt32.add_assoc, UInt32.add_comm 1]
      · simp only [offset]
    rw [Position.advance_cons, Position.advance_cons, one, ih]

/-- Blank characters are skipped in the moved text as in the other. -/
theorem skipBlanks_moved :
    (lexer.moved characters lines).skipBlanks = lexer.skipBlanks.moved characters lines := by
  simp only [skipBlanks, moved, advance_moved]

/-- Characters are dropped from the moved text as from the other. -/
theorem drop_moved (count : Nat) :
    (lexer.moved characters lines).drop count = (lexer.drop count).moved characters lines := by
  simp only [drop, moved, advance_moved]

/-- A lexeme of the moved text has the moved location. -/
theorem ofPosition_moved (position : Position) (length : Nat) :
    Location.ofPosition (position.moved characters lines) length =
      (Location.ofPosition position length).moved characters lines := by
  simp only [Location.ofPosition, Location.moved, Position.moved, Location.mk.injEq,
    and_true, true_and]
  omega

/-- A lexer that is moved answers as before, moved. -/
theorem tokens_moved : (lexer.moved characters lines).tokens.1 =
    Answer.moved characters lines lexer.tokens.1 := by
  induction size : lexer.rest.length using Nat.strongRecOn generalizing lexer with
  | ind size ih =>
    cases ahead : lexer.skipBlanks.rest with
    | nil =>
      have stays : (lexer.moved characters lines).skipBlanks.rest = [] := by
        rw [skipBlanks_moved]
        exact ahead
      rw [tokens_of_blank ahead, tokens_of_blank stays]
      rfl
    | cons first rest =>
      have stays : (lexer.moved characters lines).skipBlanks.rest = first :: rest := by
        rw [skipBlanks_moved]
        exact ahead
      cases scanned : (Lexeme.scan first rest).outcome with
      | error fault =>
        rw [tokens_of_fault ahead scanned, tokens_of_fault stays scanned, skipBlanks_moved, moved,
          ofPosition_moved]
        rfl
      | ok kind =>
        have fewer := length_past_lt ahead scanned
        have behind : (lexer.moved characters lines).past first rest =
            (lexer.past first rest).moved characters lines := by
          rw [past, past, skipBlanks_moved, drop_moved]
        rw [tokens_of_token ahead scanned, tokens_of_token stays scanned, behind,
          ih _ (by omega) rfl, skipBlanks_moved, moved, ofPosition_moved]
        cases (lexer.past first rest).tokens.1 with
        | error error => rfl
        | ok tokens => rfl

/-- The lexer for a text that goes on. -/
def followedBy (lexer : Lexer) (behind : List Char) : Lexer :=
  { lexer with rest := lexer.rest ++ behind }

/-- The blanks that a lexer skips are skipped whatever follows its text. -/
theorem skipBlanks_followedBy (behind : List Char) :
    (lexer.followedBy behind).skipBlanks = (lexer.skipBlanks.followedBy behind).skipBlanks := by
  have parts : lexer.rest ++ behind = lexer.rest.takeWhile Text.isBlank ++
      (lexer.rest.dropWhile Text.isBlank ++ behind) := by
    rw [← List.append_assoc, List.takeWhile_append_dropWhile]
  have blank : ∀ character ∈ lexer.rest.takeWhile Text.isBlank, Text.isBlank character = true :=
    List.all_eq_true.mp List.all_takeWhile
  simp only [skipBlanks, followedBy]
  rw [parts, List.dropWhile_append_of_pos blank, List.takeWhile_append_of_pos blank,
    Position.advance_append]

/-- Skipping blanks does not change where the text ends. -/
theorem advance_skipBlanks (behind : List Char) :
    lexer.skipBlanks.position.advance (lexer.skipBlanks.rest ++ behind) =
      lexer.position.advance (lexer.rest ++ behind) := by
  simp only [skipBlanks]
  rw [← Position.advance_append, ← List.append_assoc, List.takeWhile_append_dropWhile]

/-- Passing characters does not change where the text ends. -/
theorem advance_drop (count : Nat) (behind : List Char) :
    (lexer.drop count).position.advance ((lexer.drop count).rest ++ behind) =
      lexer.position.advance (lexer.rest ++ behind) := by
  simp only [drop]
  rw [← Position.advance_append, ← List.append_assoc, List.take_append_drop]

/-- Passing characters of a text that goes on leaves what follows it. -/
theorem drop_followedBy {count : Nat} (inside : count ≤ lexer.rest.length) (behind : List Char) :
    (lexer.followedBy behind).drop count = (lexer.drop count).followedBy behind := by
  simp only [drop, followedBy]
  rw [List.drop_append_of_le_length inside, List.take_append_of_le_length inside]

end Lexer

/-- Whether the token is a line comment that is ended by the end of the source, not by a line
feed. -/
def Token.runsOut (source : String) (token : Token) : Bool :=
  match token.kind with
  | .lineComment _ =>
    (slice source token.location.start token.location.stop).toList.getLast? != some '\n'
  | _ => false

/-- The token with one more character at its end. -/
def Token.stretched (token : Token) : Token :=
  { token with location := { token.location with stop := token.location.stop + 1 } }

/-- The tokens of a source when a line feed is put behind it: it becomes part of a line comment
that stands last and is not ended yet. -/
def stretchLast (source : String) : List Token → List Token
  | [] => []
  | [token] => [if token.runsOut source then token.stretched else token]
  | token :: others => token :: stretchLast source others

/-- A token that a line feed ends, or that is no line comment, stays as it is. -/
theorem stretchLast_cons {source : String} {token : Token} (ended : token.runsOut source = false)
    (others : List Token) :
    stretchLast source (token :: others) = token :: stretchLast source others := by
  cases others with
  | nil => simp [stretchLast, ended]
  | cons second others => rfl

namespace Lexeme

variable {first : Char} {rest : List Char} {kind : Token.Kind}

/-- Only what begins with two slashes is a line comment. -/
theorem slashes_of_lineComment {line : String}
    (scanned : (scan first rest).outcome = .ok (.lineComment line)) :
    first = '/' ∧ rest.head? = some '/' := by
  unfold scan at scanned
  split at scanned
  · grind [word, wordKind]
  split at scanned
  · obtain ⟨value, same⟩ := number_kind scanned
    cases same
  split at scanned
  · obtain ⟨value, same⟩ := string_kind scanned
    cases same
  split at scanned
  · assumption
  split at scanned
  · grind [blockComment]
  · grind [Lexeme.symbol]

/-- A token runs out just when it stands where a line comment begins that nothing ends. -/
theorem runsOut_eq {source : String} {token : Token}
    (lexeme : Lexer.LexemeAt source.toList token first rest) :
    token.runsOut source = isOpenComment first rest := by
  have length_eq : token.location.stop - token.location.start = (scan first rest).length := by
    have stop_eq := lexeme.stop_eq
    omega
  have written : (slice source token.location.start token.location.stop).toList =
      (first :: rest).take (scan first rest).length := by
    rw [slice, String.toList_ofList, lexeme.ahead, length_eq]
  by_cases slashes : first = '/' ∧ rest.head? = some '/'
  · obtain ⟨rfl, slash⟩ := slashes
    obtain ⟨text, rfl⟩ := List.head?_eq_some_iff.mp slash
    have comment : scan '/' ('/' :: text) = lineComment text := rfl
    have scanned := lexeme.scanned
    rw [comment] at scanned written
    rw [take_lineComment] at written
    simp only [Token.runsOut, ← Except.ok.inj scanned, written]
    by_cases feed : '\n' ∈ text
    · rw [if_pos feed, ← List.cons_append, ← List.cons_append, List.getLast?_concat]
      simp [isOpenComment, feed]
    · have last : ('/' :: '/' :: text.takeWhile (· != '\n')).getLast? ≠ some '\n' := by
        intro same
        have member := List.mem_of_getLast? same
        exact feed ((List.takeWhile_prefix _).subset (by simpa using member))
      rw [if_neg feed, List.append_nil]
      simpa [isOpenComment, feed] using last
  · have other : isOpenComment first rest = false := by
      rw [Bool.eq_false_iff]
      intro isOpen
      simp only [isOpenComment, Bool.and_eq_true, beq_iff_eq] at isOpen
      exact slashes isOpen.1
    rw [other, Token.runsOut]
    split
    · rename_i line kind
      exact absurd (slashes_of_lineComment (kind ▸ lexeme.scanned)) slashes
    · rfl

end Lexeme

namespace Lexer

/-- The first token of a text that is scanned is the lexeme that stands behind the blanks. -/
theorem StandsIn.lexemeAt {source : List Char} {lexer : Lexer} (stands : StandsIn source lexer)
    {first : Char} {rest : List Char} {kind : Token.Kind}
    (ahead : lexer.skipBlanks.rest = first :: rest)
    (scanned : (Lexeme.scan first rest).outcome = .ok kind) :
    LexemeAt source
      ⟨kind, .ofPosition lexer.skipBlanks.position (Lexeme.scan first rest).length⟩ first rest :=
  ⟨stands.skipBlanks.rest_eq ▸ ahead, not_blank_of_ahead ahead, scanned, rfl⟩

/-- A line feed behind blanks is one of them. -/
theorem skipBlanks_lineFeed {lexer : Lexer} (blank : lexer.skipBlanks.rest = [])
    (second : List Char) :
    (lexer.followedBy ('\n' :: second)).skipBlanks =
      skipBlanks ⟨second, lexer.position.advance (lexer.rest ++ ['\n'])⟩ := by
  have feed : Text.isBlank '\n' = true := by decide
  rw [skipBlanks_followedBy, ← advance_skipBlanks, followedBy, blank]
  simp only [skipBlanks, List.nil_append, List.dropWhile_cons_of_pos feed,
    List.takeWhile_cons_of_pos feed, Position.advance_cons, Position.advance_nil]

/-- No token is left of a text that has been read to its end. -/
theorem Scans.eq_nil {lexer : Lexer} {tokens : List Token} (scans : Scans lexer tokens)
    (finished : lexer.rest = []) : tokens = [] := by
  cases scans with
  | done blank => rfl
  | token ahead scanned others => simp [skipBlanks, finished] at ahead

section OneToken

variable {lexer : Lexer} {first : Char} {rest : List Char} {kind : Token.Kind}
  (ahead : lexer.skipBlanks.rest = first :: rest)
include ahead

/-- The first lexeme begins where it did. -/
theorem skipBlanks_followedBy_of_ahead (behind : List Char) :
    (lexer.followedBy behind).skipBlanks = lexer.skipBlanks.followedBy behind := by
  have longer : (lexer.skipBlanks.followedBy behind).rest = first :: (rest ++ behind) := by
    rw [followedBy, ahead, List.cons_append]
  rw [skipBlanks_followedBy, skipBlanks_eq_self (not_blank_of_ahead ahead) longer]

/-- The first token stays the same if it does not run out. -/
theorem tokens_of_ended (scanned : (Lexeme.scan first rest).outcome = .ok kind)
    (ended : Lexeme.isOpenComment first rest = false) (second : List Char) :
    (lexer.followedBy ('\n' :: second)).tokens.1 =
      ((lexer.past first rest).followedBy ('\n' :: second)).tokens.1.map
        (⟨kind, .ofPosition lexer.skipBlanks.position (Lexeme.scan first rest).length⟩ :: ·) := by
  have bound := (Lexeme.scan_fits first rest).length_le
  have same : Lexeme.scan first (rest.take rest.length ++ '\n' :: second) =
      Lexeme.scan first rest := Lexeme.scan_break rfl (.inr ended) scanned bound
  rw [List.take_length] at same
  have skipped := skipBlanks_followedBy_of_ahead ahead ('\n' :: second)
  have longer : (lexer.followedBy ('\n' :: second)).skipBlanks.rest =
      first :: (rest ++ '\n' :: second) := by
    rw [skipped, followedBy, ahead, List.cons_append]
  have behind : (lexer.followedBy ('\n' :: second)).past first (rest ++ '\n' :: second) =
      (lexer.past first rest).followedBy ('\n' :: second) := by
    rw [past, past, same, skipped, drop_followedBy]
    rw [ahead]
    exact bound
  rw [tokens_of_token longer (same ▸ scanned), behind, same, skipped, followedBy]

/-- A comment that runs out takes the line feed, and reading goes on behind it. -/
theorem tokens_of_open (scanned : (Lexeme.scan first rest).outcome = .ok kind)
    (isOpen : Lexeme.isOpenComment first rest = true) (second : List Char) :
    (lexer.followedBy ('\n' :: second)).tokens.1 =
      (Lexer.mk second (lexer.position.advance (lexer.rest ++ ['\n']))).tokens.1.map
        (Token.stretched ⟨kind, .ofPosition lexer.skipBlanks.position
          (Lexeme.scan first rest).length⟩ :: ·) := by
  obtain ⟨all, same⟩ := Lexeme.scan_openComment isOpen second
  have skipped := skipBlanks_followedBy_of_ahead ahead ('\n' :: second)
  have longer : (lexer.followedBy ('\n' :: second)).skipBlanks.rest =
      first :: (rest ++ '\n' :: second) := by
    rw [skipped, followedBy, ahead, List.cons_append]
  have behind : (lexer.followedBy ('\n' :: second)).past first (rest ++ '\n' :: second) =
      ⟨second, lexer.position.advance (lexer.rest ++ ['\n'])⟩ := by
    have text : (lexer.skipBlanks.followedBy ('\n' :: second)).rest =
        (first :: rest ++ ['\n']) ++ second := by
      rw [followedBy, ahead]
      simp
    have taken : (first :: rest ++ ['\n']).length = rest.length + 1 + 1 := by simp
    rw [past, same, skipped, drop, all, text, List.drop_left' taken, List.take_left' taken, ← ahead,
      ← advance_skipBlanks]
    rfl
  rw [tokens_of_token longer (by rw [same]; exact scanned), behind, same, skipped, followedBy]
  rfl

end OneToken

/-- A text that is scanned, a line feed and another text: the tokens of the first come first, and
reading goes on behind the line feed. -/
theorem tokens_followedBy {source : String} {lexer : Lexer} {tokens : List Token}
    (scans : Scans lexer tokens) (stands : StandsIn source.toList lexer) (second : List Char) :
    (lexer.followedBy ('\n' :: second)).tokens.1 =
      (Lexer.mk second (lexer.position.advance (lexer.rest ++ ['\n']))).tokens.1.map
        (stretchLast source tokens ++ ·) := by
  induction scans with
  | @done lexer blank =>
    rw [tokens_congr (skipBlanks_lineFeed blank second)]
    cases (Lexer.mk second _).tokens.1 with
    | error error => rfl
    | ok tokens => rfl
  | @token lexer first rest kind tokens ahead scanned others ih =>
    have ending := Lexeme.runsOut_eq (stands.lexemeAt ahead scanned)
    cases isOpen : Lexeme.isOpenComment first rest with
    | false =>
      rw [isOpen] at ending
      have finish : (lexer.past first rest).position.advance
          ((lexer.past first rest).rest ++ ['\n']) =
            lexer.position.advance (lexer.rest ++ ['\n']) := by
        rw [past, advance_drop, advance_skipBlanks]
      rw [tokens_of_ended ahead scanned isOpen second, ih (stands.skipBlanks.drop _), finish,
        stretchLast_cons ending]
      cases (Lexer.mk second _).tokens.1 with
      | error error => rfl
      | ok tokens => rfl
    | true =>
      rw [isOpen] at ending
      have all := (Lexeme.scan_openComment isOpen second).1
      obtain rfl : tokens = [] := by
        apply others.eq_nil
        rw [past, drop, ahead, all]
        simp
      rw [tokens_of_open ahead scanned isOpen second, stretchLast, if_pos ending]
      rfl

end Lexer

/-- Behind a text and a line feed a line begins: the position is the initial one, moved. -/
theorem advance_lineFeed (text : List Char) :
    Position.advance {} (text ++ ['\n']) =
      Position.moved {} (text.length + 1) (text.count '\n' + 1) := by
  have read := @Position.advance_ofOffset (text ++ ['\n']) 0 (text ++ ['\n']) [] (by simp)
  rw [Position.ofOffset_zero] at read
  have line : lineAt (text ++ ['\n']) (text.length + 1) = 1 + (text.count '\n' + 1) := by
    simp [lineAt, List.take_of_length_le]
  have column : columnAt (text ++ ['\n']) (text.length + 1) = 1 := by
    simp [columnAt, List.take_of_length_le]
  rw [read, Nat.zero_add, List.length_append, Position.ofOffset, List.length_singleton, line,
    column, UInt32.ofNat_add, Position.moved, Nat.zero_add]
  rfl

/-- If two texts and the line feed between them have fewer than `2 ^ 32` characters, the lines of
what the second answers are moved as numbers. -/
theorem lines_moved {first second : String}
    (short : (first ++ "\n" ++ second).length < UInt32.size) :
    ∀ location ∈ Lexer.Answer.locations (tokenize second),
      (location.moved (first.length + 1) (first.toList.count '\n' + 1)).line.toNat =
        location.line.toNat + (first.toList.count '\n' + 1) := by
  intro location told
  have feeds : first.toList.count '\n' ≤ first.length :=
    String.length_toList (s := first) ▸ List.count_le_length
  have feed : "\n".length = 1 := rfl
  rw [String.length_append, String.length_append] at short
  refine (Lexer.placed_of_tokenize rfl location told).line_moved ?_ _
  rw [String.length_toList]
  omega

end Oreo
