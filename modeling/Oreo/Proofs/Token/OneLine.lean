import Oreo.Proofs.Token.Faults

/-!
# Texts on one line

The text of a token, as messages show it, is on one line, unless the token is a string or a block
comment: a name has letters, digits and underscores only, a number is written with digits and a
point, a line comment ends before the line feed, and all else is fixed. The value of a string can
hold a line feed, written as it is or as an escape, and so can a block comment.
-/

namespace Oreo

/-- The text holds no line feed. -/
def OneLine (text : String) : Prop := '\n' ∉ text.toList

/-- Whether a text is one line can be computed. -/
instance (text : String) : Decidable (OneLine text) := inferInstanceAs (Decidable (_ ∉ _))

/-- Two texts make one line if each of them is one line. -/
@[simp] theorem oneLine_append {first second : String} :
    OneLine (first ++ second) ↔ OneLine first ∧ OneLine second := by
  simp [OneLine]

/-- A character is one line unless it is a line feed. -/
@[simp] theorem oneLine_singleton {character : Char} :
    OneLine (String.singleton character) ↔ character ≠ '\n' := by
  simp [OneLine, eq_comm]

/-- Characters that all pass a test, which a line feed does not, are on one line. -/
theorem oneLine_ofList {characters : List Char} (test : Char → Bool) (feed : test '\n' = false)
    (passed : ∀ character ∈ characters, test character = true) :
    OneLine (String.ofList characters) := by
  intro listed
  rw [String.toList_ofList] at listed
  rw [passed '\n' listed] at feed
  cases feed

/-- A natural number is written on one line. -/
theorem oneLine_natural (number : Nat) : OneLine (toString number) :=
  oneLine_ofList Char.isDigit rfl fun _ => Nat.isDigit_of_mem_toDigits (by decide) (by decide)

/-- Whether a character is a digit or a point. -/
def isDigitOrPoint (character : Char) : Bool := character.isDigit || character == '.'

/-- The digits of a decimal are digits. -/
theorem Decimal.isDigit_ofScaled (digits : Nat) (exponent : Int) :
    ∀ digit ∈ (ofScaled digits exponent).digits, digit.isDigit = true := by
  intro digit listed
  have written : digit ∈ Nat.toDigits 10 digits := by
    have kept := (List.dropWhile_sublist _).subset (List.mem_reverse.mp listed)
    exact List.mem_reverse.mp kept
  exact Nat.isDigit_of_mem_toDigits (by decide) (by decide) written

/-- The shortest decimal of a magnitude is a scaled number, on whichever grid it is found. -/
theorem Magnitude.shortest_eq_ofScaled (tie : Tie) (mantissa : Nat) (power : Int) :
    ∃ digits exponent, shortest tie mantissa power = .ofScaled digits exponent := by
  unfold shortest
  simp only
  cases found : (List.range 17).findSome? _ with
  | none =>
    rw [Option.getD_none]
    split
    · exact ⟨_, _, rfl⟩
    · exact ⟨_, _, rfl⟩
  | some decimal =>
    obtain ⟨count, _, onGrid⟩ := List.exists_of_findSome?_eq_some found
    obtain ⟨digits, _, rfl⟩ := Option.map_eq_some_iff.mp onGrid
    exact ⟨digits, _, rfl⟩

/-- Digits with a point among them and zeros filled in are digits and a point. -/
theorem Decimal.isDigitOrPoint_positional {decimal : Decimal} (pointZero : Bool)
    (isDigit : ∀ digit ∈ decimal.digits, digit.isDigit = true) :
    ∀ character ∈ decimal.positional pointZero, isDigitOrPoint character = true := by
  have digits : ∀ digit ∈ decimal.digits, isDigitOrPoint digit = true := by
    intro digit listed
    rw [isDigitOrPoint, isDigit digit listed, Bool.true_or]
  have zeros (count : Nat) : ∀ zero ∈ List.replicate count '0', isDigitOrPoint zero = true := by
    intro zero listed
    rw [List.eq_of_mem_replicate listed]
    rfl
  unfold positional
  simp only
  split
  · rw [List.forall_mem_cons, List.forall_mem_cons, List.forall_mem_append]
    exact ⟨rfl, rfl, zeros _, digits⟩
  split
  · rw [List.forall_mem_append, List.forall_mem_cons]
    exact ⟨fun digit front => digits digit (List.mem_of_mem_take front), rfl,
      fun digit back => digits digit (List.mem_of_mem_drop back)⟩
  · rw [List.forall_mem_append, List.forall_mem_append]
    refine ⟨⟨digits, zeros _⟩, ?_⟩
    split
    · rw [List.forall_mem_cons, List.forall_mem_singleton]
      exact ⟨rfl, rfl⟩
    · exact List.forall_mem_nil _

/-- A magnitude in a message is on one line. -/
theorem Magnitude.oneLine_write (size : Magnitude) : OneLine (size.write .message) := by
  cases size with
  | infinite => decide
  | finite mantissa power =>
    cases mantissa with
    | zero =>
      have written : write .message (.finite 0 power) = "0" := rfl
      rw [written]
      decide
    | succ mantissa =>
      obtain ⟨digits, exponent, scaled⟩ :=
        shortest_eq_ofScaled NumberStyle.message.tie (mantissa + 1) power
      have isDigit := Decimal.isDigit_ofScaled digits exponent
      rw [← scaled] at isDigit
      exact oneLine_ofList isDigitOrPoint rfl (Decimal.isDigitOrPoint_positional false isDigit)

/-- A number in a message is on one line. -/
theorem Double.oneLine_write (value : Double) : OneLine (value.write .message) := by
  cases value with
  | positive size => exact size.oneLine_write
  | negative size =>
    cases size with
    | infinite => decide
    | finite mantissa power =>
      exact oneLine_append.mpr ⟨by decide, Magnitude.oneLine_write (.finite mantissa power)⟩
  | nan => decide

/-- The text of a keyword has no line break. -/
theorem Keyword.oneLine_text (keyword : Keyword) : OneLine keyword.text := by
  cases keyword <;> decide

/-- The text of an operator has no line break. -/
theorem Operator.oneLine_text (operator : Operator) : OneLine operator.text := by
  cases operator <;> decide

/-- The text of a mark has no line break. -/
theorem Punctuation.oneLine_text (mark : Punctuation) : OneLine mark.text := by
  cases mark <;> decide

/-- The value of a string or of a block comment, which can hold line feeds. -/
def Token.Kind.body? : Token.Kind → Option String
  | .string value _ => some value
  | .blockComment text => some text
  | _ => none

namespace Lexeme

variable {first : Char} {rest text : List Char} {kind : Token.Kind}

/-- A word is on one line. -/
theorem oneLine_word (scanned : (word text).outcome = .ok kind) : OneLine kind.text := by
  have letters : OneLine (String.ofList (text.takeWhile isWordPart)) :=
    oneLine_ofList isWordPart rfl (List.all_eq_true.mp List.all_takeWhile)
  cases scanned
  unfold wordKind
  split
  · exact Keyword.oneLine_text _
  split
  · decide
  split
  · decide
  · exact letters

/-- A line comment is on one line. -/
theorem oneLine_lineComment (scanned : (lineComment text).outcome = .ok kind) :
    OneLine kind.text := by
  have line : OneLine (String.ofList (text.takeWhile (· != '\n'))) :=
    oneLine_ofList (· != '\n') rfl (List.all_eq_true.mp List.all_takeWhile)
  cases scanned
  exact oneLine_append.mpr ⟨by decide, line⟩

/-- An operator or a mark is on one line. -/
theorem oneLine_symbol (scanned : (symbol first rest).outcome = .ok kind) :
    OneLine kind.text := by
  unfold symbol at scanned
  split at scanned
  · cases scanned
    exact Operator.oneLine_text _
  · cases scanned
    exact Operator.oneLine_text _
  · cases scanned
    exact Punctuation.oneLine_text _
  · cases scanned

/-- A lexeme is on one line if its value is, in case that it is a string or a block comment. -/
theorem oneLine_scan (scanned : (scan first rest).outcome = .ok kind)
    (body : ∀ text, kind.body? = some text → OneLine text) : OneLine kind.text := by
  unfold scan at scanned
  split at scanned
  · exact oneLine_word scanned
  split at scanned
  · obtain ⟨value, rfl⟩ := number_kind scanned
    exact value.oneLine_write
  split at scanned
  · rename_i quote
    obtain ⟨value, rfl⟩ := string_kind scanned
    have noFeed : first ≠ '\n' := by
      rintro rfl
      cases quote
    exact oneLine_append.mpr ⟨oneLine_append.mpr ⟨oneLine_singleton.mpr noFeed, body value rfl⟩,
      oneLine_singleton.mpr noFeed⟩
  split at scanned
  · exact oneLine_lineComment scanned
  split at scanned
  · obtain ⟨text, rfl⟩ := blockComment_kind scanned
    exact oneLine_append.mpr ⟨oneLine_append.mpr ⟨by decide, body text rfl⟩, by decide⟩
  exact oneLine_symbol scanned

end Lexeme

/-- The text of a token of a source is on one line if its value is, in case that it is a string or
a block comment. -/
theorem oneLine_of_tokenize {source : String} {tokens : List Token} {token : Token}
    (scanned : tokenize source = .ok tokens) (listed : token ∈ tokens)
    (body : ∀ text, token.kind.body? = some text → OneLine text) : OneLine token.text := by
  obtain ⟨first, rest, lexeme⟩ :=
    (Lexer.scans_of_tokens scanned).lexemeAt (.ofSource source) token listed
  exact Lexeme.oneLine_scan lexeme.scanned body

/-- A character that starts no token is no line feed. -/
theorem ne_lineFeed_of_tokenize {source : String} {character : Char} {place : Location}
    (failed : tokenize source = .error ⟨.unexpectedCharacter character, place⟩) :
    character ≠ '\n' := by
  obtain ⟨tokens, fails⟩ := Lexer.fails_of_tokens failed
  obtain ⟨_, _, notBlank, _⟩ := fails.standsAt (Lexer.StandsIn.ofSource source)
  rintro rfl
  cases notBlank

end Oreo
