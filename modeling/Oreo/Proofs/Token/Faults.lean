import Oreo.Proofs.Token.Longest

/-!
# Faults point at the first lexeme that is none

A source that is not a sequence of tokens has a first place where no token can be read. What stands
before that place is a sequence of tokens by itself, the same that a lexer reads one by one before
it meets the fault: a lexeme is not changed when the text is cut off behind it
(`Lexeme.scan_break`), and the cut comes behind all of them. `Lexer.Fails` goes through the tokens
up to the fault, as `Lexer.Scans` goes through all tokens of a text.

What stands at the place can be told from the fault, and how far the fault reaches, too
(`ScanFault.StandsAt`). Each class of lexemes has at most one way to fail.

The digits of a binary number are counted in a word of 32 bits. A number whose digits are as many as
a positive multiple of `2 ^ 32` is taken for one that has none; the fault then reaches over all of
them. In a source of fewer than `2 ^ 32` characters, a binary number that fails has no digit.
-/

namespace Oreo

/-- The binary digits behind a mark of two characters at an offset. -/
def binaryDigitsAt (source : List Char) (offset : Nat) : List Char :=
  (source.drop (offset + 2)).takeWhile Lexeme.isBinaryDigit

/-- What stands in a source where a fault is reported, and how far its location reaches. A string or
a comment that is not ended reaches to the end of the source, the mark of a binary number over its
two characters and all digits behind it, the number of which is zero as a word, and a character that
starts no token over itself. -/
def ScanFault.StandsAt (source : List Char) (location : Location) : ScanFault → Prop
  | .unterminatedString quote _ =>
    source[location.start]? = some quote ∧ (quote = '"' ∨ quote = '\'') ∧
      location.stop = source.length
  | .unterminatedComment =>
    source[location.start]? = some '/' ∧ source[location.start + 1]? = some '*' ∧
      location.stop = source.length
  | .invalidBinary =>
    source[location.start]? = some '0' ∧
      (source[location.start + 1]? = some 'b' ∨ source[location.start + 1]? = some 'B') ∧
      UInt32.size ∣ (binaryDigitsAt source location.start).length ∧
      location.stop = location.start + 2 + (binaryDigitsAt source location.start).length
  | .unexpectedCharacter character =>
    source[location.start]? = some character ∧ location.stop = location.start + 1 ∧
      Text.isBlank character = false ∧ character.isAlphanum = false ∧ character ≠ '_' ∧
      character ≠ '"' ∧ character ≠ '\'' ∧
      character ∉ ['+', '-', '*', '/', '<', '>', '^', '%'] ∧
      character ∉ ['(', ')', '\x7b', '\x7d', '.', ',', ';', ':', '[', ']', '=', '|', '!'] ∧
      (character = '&' → source[location.start + 1]? ≠ some '&')

namespace Lexeme

variable {source text rest : List Char} {first : Char} {fault : ScanFault} {position : Position}

/-- Digits are counted on from any count. -/
theorem foldl_count (digits : List Char) (start : Int32) :
    digits.foldl (fun count _ => count + 1) start = start + Int32.ofNat digits.length := by
  induction digits generalizing start with
  | nil => exact (Int32.add_zero start).symm
  | cons digit digits ih =>
    rw [List.foldl_cons, ih, List.length_cons, Int32.ofNat_add, Int32.add_assoc, Int32.add_comm 1]
    rfl

/-- The count of digits is zero exactly for a multiple of `2 ^ 32` digits. -/
theorem digitCount_eq_zero_iff {digits : List Char} :
    digitCount digits = 0 ↔ UInt32.size ∣ digits.length := by
  rw [digitCount, foldl_count, Int32.zero_add, ← Int32.toBitVec_inj, ← BitVec.toNat_inj,
    Nat.dvd_iff_mod_eq_zero]
  rfl

/-- A binary number fails just when the number of its digits is a multiple of `2 ^ 32`. -/
theorem binary_fault_iff :
    (binary text).outcome = .error fault ↔
      fault = .invalidBinary ∧ UInt32.size ∣ (text.takeWhile isBinaryDigit).length := by
  rw [← digitCount_eq_zero_iff]
  dsimp only [binary]
  split
  · rename_i none
    simp [none, eq_comm]
  · rename_i some
    simp [some]

/-- A number fails only behind the mark of a binary number. -/
theorem number_fault (failed : (number text).outcome = .error fault) :
    ∃ mark rest, text = '0' :: mark :: rest ∧ (mark = 'b' ∨ mark = 'B') ∧
      number text = binary rest ∧ (binary rest).outcome = .error fault := by
  unfold number at failed ⊢
  split at failed
  · rename_i rest
    exact ⟨'b', rest, rfl, .inl rfl, rfl, failed⟩
  · rename_i rest
    exact ⟨'B', rest, rfl, .inr rfl, rfl, failed⟩
  · cases failed

/-- A string that is not ended takes all of the text. -/
theorem length_stringBody_open (unclosed : (stringBody text).isClosed = false) :
    (stringBody text).length = text.length := by
  fun_induction stringBody text with
  | case1 => rfl
  | case2 => rfl
  | case3 escaped rest ih =>
    have inner := ih unclosed
    simp only [StringBody.prepend, List.length_cons]
    omega
  | case4 => cases unclosed
  | case5 first rest plain noQuote ih =>
    have inner := ih unclosed
    simp only [StringBody.prepend, List.length_cons]
    omega

/-- A string fails only at the end of the text. -/
theorem string_fault {quote : Char} (failed : (string quote text).outcome = .error fault) :
    (∃ content, fault = .unterminatedString quote content) ∧
      (string quote text).length = text.length + 1 := by
  simp only [string] at failed ⊢
  split at failed
  · cases failed
  · rename_i unclosed
    cases failed
    have all := length_stringBody_open (by simpa using unclosed)
    exact ⟨⟨_, rfl⟩, by omega⟩

/-- A block comment fails only at the end of the text. -/
theorem blockComment_fault (failed : (blockComment text).outcome = .error fault) :
    fault = .unterminatedComment ∧ (blockComment text).length = text.length + 2 := by
  unfold blockComment at failed ⊢
  split at failed
  · cases failed
  · cases failed
    exact ⟨rfl, Nat.add_comm _ _⟩

/-- A character that is no symbol is none of the characters of operators and marks, and does not
begin an operator with the one behind it. -/
theorem symbol_fault (failed : (symbol first rest).outcome = .error fault) :
    fault = .unexpectedCharacter first ∧
      first ∉ ['+', '-', '*', '/', '<', '>', '^', '%'] ∧
      first ∉ ['(', ')', '\x7b', '\x7d', '.', ',', ';', ':', '[', ']', '=', '|', '!'] ∧
      (first = '&' → rest.head? ≠ some '&') := by
  unfold symbol at failed
  split at failed
  · cases failed
  · cases failed
  · cases failed
  · rename_i noSingle noDouble noMark
    cases failed
    refine ⟨rfl, ?_, ?_, ?_⟩
    · intro listed
      have known : ['+', '-', '*', '/', '<', '>', '^', '%'].all
          (fun character => (singleOperator? character).isSome) = true := by rfl
      have found := List.all_eq_true.mp known first listed
      rw [noSingle] at found
      cases found
    · intro listed
      have known : ['(', ')', '\x7b', '\x7d', '.', ',', ';', ':', '[', ']', '=', '|', '!'].all
          (fun character => (Punctuation.ofCharacter? character).isSome) = true := by rfl
      have found := List.all_eq_true.mp known first listed
      rw [noMark] at found
      cases found
    · rintro rfl same
      rw [same] at noDouble
      exact absurd noDouble (by decide)

/-- The characters of a source, told by what is left of it. -/
theorem getElem?_ahead (ahead : source.drop position.offset = text) (index : Nat) :
    source[position.offset + index]? = text[index]? := by
  rw [← ahead, List.getElem?_drop]

/-- The length of a source, told by what is left of it. -/
theorem length_ahead (ahead : source.drop position.offset = first :: rest) :
    source.length = position.offset + (rest.length + 1) := by
  have length := congrArg List.length ahead
  rw [List.length_drop, List.length_cons] at length
  omega

/-- The fault of a number stands where the number does. -/
theorem number_standsAt (ahead : source.drop position.offset = text)
    (failed : (number text).outcome = .error fault) :
    fault.StandsAt source (.ofPosition position (number text).extent) := by
  obtain ⟨mark, digits, rfl, isMark, same, binaryFailed⟩ := number_fault failed
  obtain ⟨rfl, multiple⟩ := binary_fault_iff.mp binaryFailed
  have run : binaryDigitsAt source position.offset = digits.takeWhile isBinaryDigit := by
    rw [binaryDigitsAt, ← List.drop_drop, ahead]
    rfl
  have spanned : (number ('0' :: mark :: digits)).extent =
      2 + (digits.takeWhile isBinaryDigit).length := by
    rw [same, extent_binary]
    rfl
  rw [spanned, ← run]
  refine ⟨getElem?_ahead ahead 0, ?_, run ▸ multiple, (Nat.add_assoc _ _ _).symm⟩
  rcases isMark with rfl | rfl
  · exact .inl (getElem?_ahead ahead 1)
  · exact .inr (getElem?_ahead ahead 1)

/-- The fault of a string stands where the string does. -/
theorem string_standsAt (ahead : source.drop position.offset = first :: rest)
    (quote : isQuote first = true) (failed : (string first rest).outcome = .error fault) :
    fault.StandsAt source (.ofPosition position (string first rest).extent) := by
  obtain ⟨⟨content, rfl⟩, length⟩ := string_fault failed
  have spanned : (string first rest).extent = rest.length + 1 := by
    simp only [extent, failed, length, Lexer.faultLength]
  rw [spanned]
  exact ⟨getElem?_ahead ahead 0, by simpa [isQuote] using quote, (length_ahead ahead).symm⟩

/-- The fault of a comment stands where the comment does. -/
theorem blockComment_standsAt (ahead : source.drop position.offset = '/' :: '*' :: text)
    (failed : (blockComment text).outcome = .error fault) :
    fault.StandsAt source (.ofPosition position (blockComment text).extent) := by
  obtain ⟨rfl, length⟩ := blockComment_fault failed
  have spanned : (blockComment text).extent = text.length + 2 := by
    simp only [extent, failed, length, Lexer.faultLength]
  rw [spanned]
  exact ⟨getElem?_ahead ahead 0, getElem?_ahead ahead 1, (length_ahead ahead).symm⟩

/-- The fault of a symbol stands where the symbol does. -/
theorem symbol_standsAt (ahead : source.drop position.offset = first :: rest)
    (notBlank : Text.isBlank first = false) (noWord : isWordStart first = false)
    (noDigit : first.isDigit = false) (noQuote : isQuote first = false)
    (failed : (symbol first rest).outcome = .error fault) :
    fault.StandsAt source (.ofPosition position (symbol first rest).extent) := by
  obtain ⟨rfl, noOperator, noMark, noPair⟩ := symbol_fault failed
  have second : source[position.offset + 1]? = rest.head? := by
    rw [getElem?_ahead ahead, List.head?_eq_getElem?]
    rfl
  have spanned : (symbol first rest).extent = 1 := by
    simp only [extent, failed, Lexer.faultLength]
  rw [spanned]
  simp only [isWordStart, Bool.or_eq_false_iff, beq_eq_false_iff_ne] at noWord
  simp only [isQuote, Bool.or_eq_false_iff, beq_eq_false_iff_ne] at noQuote
  refine ⟨getElem?_ahead ahead 0, rfl, notBlank, ?_, noWord.2, noQuote.1, noQuote.2, noOperator,
    noMark, second ▸ noPair⟩
  rw [Char.isAlphanum, noWord.1, noDigit]
  rfl

/-- A fault at the beginning of a text that does not begin with a blank is told by what stands
there. -/
theorem scan_standsAt (ahead : source.drop position.offset = first :: rest)
    (notBlank : Text.isBlank first = false)
    (failed : (scan first rest).outcome = .error fault) :
    fault.StandsAt source (.ofPosition position (scan first rest).extent) := by
  by_cases word : isWordStart first = true
  · rw [scan, if_pos word] at failed
    cases failed
  by_cases digit : (first.isDigit || (first == '.' && startsWithDigit rest)) = true
  · rw [scan, if_neg word, if_pos digit] at failed ⊢
    exact number_standsAt ahead failed
  by_cases quote : isQuote first = true
  · rw [scan, if_neg word, if_neg digit, if_pos quote] at failed ⊢
    exact string_standsAt ahead quote failed
  by_cases slashes : first = '/' ∧ rest.head? = some '/'
  · rw [scan, if_neg word, if_neg digit, if_neg quote, if_pos slashes] at failed
    cases failed
  by_cases marker : first = '/' ∧ rest.head? = some '*'
  · rw [scan, if_neg word, if_neg digit, if_neg quote, if_neg slashes, if_pos marker] at failed ⊢
    obtain ⟨rfl, star⟩ := marker
    obtain ⟨text, rfl⟩ := List.head?_eq_some_iff.mp star
    exact blockComment_standsAt ahead failed
  · rw [scan, if_neg word, if_neg digit, if_neg quote, if_neg slashes, if_neg marker] at failed ⊢
    simp only [Bool.not_eq_true] at word digit quote
    exact symbol_standsAt ahead notBlank word (Bool.or_eq_false_iff.mp digit).1 quote failed

end Lexeme

namespace Lexer

/-- From where the lexer stands, the tokens are read one by one, and then the fault is met. -/
inductive Fails : Lexer → List Token → ScanError → Prop
  /-- The next lexeme is a fault. -/
  | fault {lexer : Lexer} {first : Char} {rest : List Char} {fault : ScanFault}
      (ahead : lexer.skipBlanks.rest = first :: rest)
      (scanned : (Lexeme.scan first rest).outcome = .error fault) :
      Fails lexer []
        ⟨fault, .ofPosition lexer.skipBlanks.position (Lexeme.scan first rest).extent⟩
  /-- The next lexeme is a token, and the fault is met behind it. -/
  | token {lexer : Lexer} {first : Char} {rest : List Char} {kind : Token.Kind}
      {tokens : List Token} {error : ScanError} (ahead : lexer.skipBlanks.rest = first :: rest)
      (scanned : (Lexeme.scan first rest).outcome = .ok kind)
      (others : Fails (lexer.past first rest) tokens error) :
      Fails lexer
        (⟨kind, .ofPosition lexer.skipBlanks.position (Lexeme.scan first rest).length⟩ :: tokens)
        error

variable {source : List Char} {lexer : Lexer} {tokens : List Token} {error : ScanError}

/-- A lexer that answers with a fault has met it behind some tokens. -/
theorem fails_of_tokens (answered : lexer.tokens.1 = .error error) :
    ∃ tokens, Fails lexer tokens error := by
  induction size : lexer.rest.length using Nat.strongRecOn generalizing lexer with
  | ind size ih =>
    cases ahead : lexer.skipBlanks.rest with
    | nil =>
      rw [tokens_of_blank ahead] at answered
      cases answered
    | cons first rest =>
      cases scanned : (Lexeme.scan first rest).outcome with
      | error fault =>
        rw [tokens_of_fault ahead scanned] at answered
        cases answered
        exact ⟨[], .fault ahead scanned⟩
      | ok kind =>
        rw [tokens_of_token ahead scanned] at answered
        have fewer := length_past_lt ahead scanned
        cases found : (lexer.past first rest).tokens.1 with
        | ok others =>
          rw [found] at answered
          cases answered
        | error other =>
          rw [found] at answered
          cases answered
          obtain ⟨others, fails⟩ := ih _ (by omega) found rfl
          exact ⟨_, .token ahead scanned fails⟩

namespace Fails

/-- A lexer that is asked for the next token again and again answers with the tokens, and then with
the fault. -/
theorem answers (fails : Fails lexer tokens error) :
    (lexer.serveAll (List.replicate (tokens.length + 1) .next)).1 =
      tokens.map (fun token => .ok [token]) ++ [.error error] := by
  induction fails with
  | fault ahead scanned =>
    simp only [List.length_nil, List.replicate_succ, List.replicate_zero, serveAll, serve,
      next_of_fault ahead scanned]
    rfl
  | @token lexer first rest kind tokens error ahead scanned _ ih =>
    have one : lexer.next = (.ok (some ⟨kind, .ofPosition lexer.skipBlanks.position
        (Lexeme.scan first rest).length⟩), lexer.past first rest) := by
      rw [next_of_token ahead scanned, past]
      simp only [Lexeme.extent, scanned]
    rw [List.length_cons, List.replicate_succ]
    simp only [serveAll, serve, one, ih]
    rfl

/-- What stands at the fault is what the fault says. -/
theorem standsAt (fails : Fails lexer tokens error) (stands : StandsIn source lexer) :
    error.value.StandsAt source error.location := by
  induction fails with
  | fault ahead scanned =>
    exact Lexeme.scan_standsAt (stands.skipBlanks.rest_eq ▸ ahead) (not_blank_of_ahead ahead)
      scanned
  | token _ _ _ ih => exact ih (stands.skipBlanks.drop _)

end Fails

/-- The lexer for the first characters of its text. -/
def cut (lexer : Lexer) (count : Nat) : Lexer := { lexer with rest := lexer.rest.take count }

/-- The blank characters that are skipped are those that stand ahead. -/
theorem offset_skipBlanks :
    lexer.skipBlanks.position.offset =
      lexer.position.offset + (lexer.rest.takeWhile Text.isBlank).length :=
  Position.offset_advance _ _

/-- The lexer behind a lexeme has moved by the characters of the lexeme. -/
theorem offset_past {first : Char} {rest : List Char}
    (ahead : lexer.skipBlanks.rest = first :: rest) :
    (lexer.past first rest).position.offset =
      lexer.skipBlanks.position.offset + (Lexeme.scan first rest).length := by
  have bound := (Lexeme.scan_fits first rest).length_le
  rw [past, drop, Position.offset_advance, ahead, List.length_take, List.length_cons,
    Nat.min_eq_left bound]

/-- A fault is met behind where the lexer stands, with the blanks passed. -/
theorem Fails.offset_le (fails : Fails lexer tokens error) :
    lexer.skipBlanks.position.offset ≤ error.location.start := by
  induction fails with
  | fault => exact Nat.le_refl _
  | token ahead scanned _ ih =>
    rw [offset_skipBlanks, offset_past ahead] at ih
    omega

/-- A text that is cut behind its leading blanks has the same leading blanks. -/
theorem skipBlanks_cut (count : Nat) :
    (lexer.cut ((lexer.rest.takeWhile Text.isBlank).length + count)).skipBlanks =
      lexer.skipBlanks.cut count := by
  have parts : lexer.rest.take ((lexer.rest.takeWhile Text.isBlank).length + count) =
      lexer.rest.takeWhile Text.isBlank ++ (lexer.rest.dropWhile Text.isBlank).take count := by
    have taken := @List.take_length_add_append _ (lexer.rest.takeWhile Text.isBlank)
      (lexer.rest.dropWhile Text.isBlank) count
    rwa [List.takeWhile_append_dropWhile] at taken
  have blank : ∀ character ∈ lexer.rest.takeWhile Text.isBlank, Text.isBlank character = true :=
    List.all_eq_true.mp List.all_takeWhile
  have stopped : ∀ character, ((lexer.rest.dropWhile Text.isBlank).take count).head? =
      some character → Text.isBlank character = false := by
    intro character same
    cases ahead : lexer.rest.dropWhile Text.isBlank with
    | nil => simp [ahead] at same
    | cons first rest =>
      cases count with
      | zero => simp at same
      | succ count =>
        rw [ahead, List.take_succ_cons, List.head?_cons] at same
        cases same
        exact not_blank_of_ahead ahead
  simp only [skipBlanks, cut]
  rw [parts, List.dropWhile_append_of_pos blank, List.takeWhile_append_of_pos blank]
  cases left : (lexer.rest.dropWhile Text.isBlank).take count with
  | nil => simp
  | cons first rest =>
    have noBlank : ¬ Text.isBlank first = true := by
      rw [stopped first (by rw [left]; rfl)]
      exact Bool.false_ne_true
    rw [List.dropWhile_cons_of_neg noBlank, List.takeWhile_cons_of_neg noBlank, List.append_nil]

/-- Passing characters before the cut leaves a text that is cut at the same place. -/
theorem drop_cut (count more : Nat) :
    (lexer.cut (count + more)).drop count = (lexer.drop count).cut more := by
  simp only [drop, cut, List.take_take, List.drop_take]
  rw [Nat.min_eq_left (Nat.le_add_right _ _), Nat.add_sub_cancel_left]

/-- Before a fault, the text is a sequence of tokens: those that were read on the way. -/
theorem Fails.tokens_cut (fails : Fails lexer tokens error) :
    (lexer.cut (error.location.start - lexer.position.offset)).tokens.1 = .ok tokens := by
  induction fails with
  | @fault lexer first rest fault ahead scanned =>
    have count : lexer.skipBlanks.position.offset - lexer.position.offset =
        (lexer.rest.takeWhile Text.isBlank).length + 0 := by
      rw [offset_skipBlanks]
      omega
    apply tokens_of_blank
    simp only [Location.ofPosition]
    rw [count, skipBlanks_cut]
    rfl
  | @token lexer first rest kind tokens error ahead scanned others ih =>
    have positive := (Lexeme.scan_fits first rest).extent_pos
    simp only [Lexeme.extent, scanned] at positive
    have behind := others.offset_le
    have moved := offset_past ahead
    have blanks := @offset_skipBlanks lexer
    have later := @offset_skipBlanks (lexer.past first rest)
    obtain ⟨more, more_eq⟩ : ∃ more,
        error.location.start = (lexer.past first rest).position.offset + more :=
      ⟨error.location.start - (lexer.past first rest).position.offset, by omega⟩
    obtain ⟨count, count_eq⟩ : ∃ count, (Lexeme.scan first rest).length + more = count + 1 :=
      ⟨(Lexeme.scan first rest).length + more - 1, by omega⟩
    have whole : error.location.start - lexer.position.offset =
        (lexer.rest.takeWhile Text.isBlank).length +
          ((Lexeme.scan first rest).length + more) := by
      omega
    have same : Lexeme.scan first (rest.take count ++ []) = Lexeme.scan first rest :=
      Lexeme.scan_break trivial (.inl rfl) scanned (by omega)
    rw [List.append_nil] at same
    rw [more_eq, Nat.add_sub_cancel_left] at ih
    rw [whole]
    have skipped := @skipBlanks_cut lexer ((Lexeme.scan first rest).length + more)
    have cutAhead : (lexer.cut ((lexer.rest.takeWhile Text.isBlank).length +
        ((Lexeme.scan first rest).length + more))).skipBlanks.rest =
          first :: rest.take count := by
      rw [skipped, cut, ahead, count_eq, List.take_succ_cons]
    have left : (lexer.cut ((lexer.rest.takeWhile Text.isBlank).length +
        ((Lexeme.scan first rest).length + more))).past first (rest.take count) =
          (lexer.past first rest).cut more := by
      rw [past, skipped, same, drop_cut, past]
    rw [tokens_of_token cutAhead (same ▸ scanned), left, ih, same, skipped]
    rfl

end Lexer

/-- In a source of fewer than `2 ^ 32` characters, a binary number that fails has no digit. -/
theorem noDigit_of_standsAt {source : List Char} {location : Location}
    (stands : ScanFault.invalidBinary.StandsAt source location)
    (short : source.length < UInt32.size) :
    source[location.start + 2]? ≠ some '0' ∧ source[location.start + 2]? ≠ some '1' ∧
      location.stop = location.start + 2 := by
  obtain ⟨-, -, multiple, stop⟩ := stands
  have bound : (binaryDigitsAt source location.start).length ≤ source.length :=
    Nat.le_trans (List.takeWhile_prefix _).length_le
      (by rw [List.length_drop]; exact Nat.sub_le _ _)
  have none : (binaryDigitsAt source location.start).length = 0 :=
    Nat.eq_zero_of_dvd_of_lt multiple (Nat.lt_of_le_of_lt bound short)
  have noDigit {digit : Char} (isDigit : Lexeme.isBinaryDigit digit = true) :
      source[location.start + 2]? ≠ some digit := by
    intro found
    rw [← List.head?_drop] at found
    obtain ⟨rest, ahead⟩ := List.head?_eq_some_iff.mp found
    rw [binaryDigitsAt, ahead, List.takeWhile_cons_of_pos isDigit] at none
    cases none
  rw [none] at stop
  exact ⟨noDigit rfl, noDigit rfl, stop⟩

/-- A fault points at the first lexeme that is none. For every source with a fault: what stands
before the place of the fault is a sequence of tokens, and these are the tokens, with their classes
and places, that a lexer answers when it is asked for the next token again and again, before it
answers with the fault. At the place of the fault stands what the fault says. A binary number that
fails has no digit, if the source has fewer than `2 ^ 32` characters. -/
theorem tokenize_fault {source : String} {error : ScanError}
    (failed : tokenize source = .error error) :
    (∃ tokens, tokenize (slice source 0 error.location.start) = .ok tokens ∧
      ((Lexer.ofSource source).serveAll (List.replicate (tokens.length + 1) .next)).1 =
        tokens.map (fun token => .ok [token]) ++ [.error error]) ∧
      error.value.StandsAt source.toList error.location ∧
      (error.value = .invalidBinary → source.toList.length < UInt32.size →
        source.toList[error.location.start + 2]? ≠ some '0' ∧
          source.toList[error.location.start + 2]? ≠ some '1' ∧
          error.location.stop = error.location.start + 2) := by
  obtain ⟨tokens, fails⟩ := Lexer.fails_of_tokens failed
  have front : Lexer.ofSource (slice source 0 error.location.start) =
      (Lexer.ofSource source).cut (error.location.start -
        (Lexer.ofSource source).position.offset) := by
    simp [Lexer.ofSource, Lexer.cut, slice]
  have stands := fails.standsAt (Lexer.StandsIn.ofSource source)
  refine ⟨⟨tokens, ?_, fails.answers⟩, stands, ?_⟩
  · rw [tokenize, front]
    exact fails.tokens_cut
  · intro binary short
    rw [binary] at stands
    exact noDigit_of_standsAt stands short

/-- The number and the dot are told apart by the ampersand behind the dot, where a digit might
stand. They stay what they are when the text is cut before it. -/
theorem tokenize_fault_ampersand :
    let error : ScanError := ⟨.unexpectedCharacter '&', ⟨2, 3, 1, 3⟩⟩
    tokenize "1.&" = .error error ∧
      (∃ tokens, tokenize (slice "1.&" 0 error.location.start) = .ok tokens ∧
        ((Lexer.ofSource "1.&").serveAll (List.replicate (tokens.length + 1) .next)).1 =
          tokens.map (fun token => .ok [token]) ++ [.error error]) ∧
      error.value.StandsAt "1.&".toList error.location := by
  intro error
  have failed : tokenize "1.&" = .error error := by rfl
  exact ⟨failed, (tokenize_fault failed).1, (tokenize_fault failed).2.1⟩

/-- Zeros behind the mark of a binary number, as many as a multiple of `2 ^ 32`, are a fault. -/
theorem tokenize_zeros {count : Nat} (multiple : UInt32.size ∣ count) :
    tokenize (String.ofList ('0' :: 'b' :: List.replicate count '0')) =
      .error ⟨.invalidBinary, ⟨0, 2 + count, 1, 1⟩⟩ := by
  have skipped : Lexer.skipBlanks ⟨'0' :: 'b' :: List.replicate count '0', {}⟩ =
      ⟨'0' :: 'b' :: List.replicate count '0', {}⟩ := Lexer.skipBlanks_eq_self (by decide) rfl
  have run : (List.replicate count '0').takeWhile Lexeme.isBinaryDigit =
      List.replicate count '0' := by
    rw [List.takeWhile_replicate, if_pos (by decide)]
  have scanned : Lexeme.scan '0' ('b' :: List.replicate count '0') =
      Lexeme.binary (List.replicate count '0') := rfl
  have failed : (Lexeme.binary (List.replicate count '0')).outcome = .error .invalidBinary := by
    rw [Lexeme.binary_fault_iff, run, List.length_replicate]
    exact ⟨rfl, multiple⟩
  have spanned : (Lexeme.binary (List.replicate count '0')).extent = 2 + count := by
    rw [Lexeme.extent_binary, Lexeme.binary, run, List.length_replicate]
  rw [tokenize, Lexer.ofSource, String.toList_ofList,
    Lexer.tokens_of_fault (by rw [skipped]) (by rw [scanned]; exact failed), skipped, scanned,
    spanned, Location.ofPosition, Nat.zero_add]

/-- A binary number of `2 ^ 32` zeros is refused as one that has no digit. -/
theorem fault_of_many_zeros :
    let text := '0' :: 'b' :: List.replicate UInt32.size '0'
    tokenize (String.ofList text) = .error ⟨.invalidBinary, ⟨0, 2 + UInt32.size, 1, 1⟩⟩ ∧
      text[2]? = some '0' := by
  refine ⟨tokenize_zeros (Nat.dvd_refl _), ?_⟩
  rw [List.getElem?_cons_succ, List.getElem?_cons_succ, List.getElem?_replicate,
    if_pos (by decide)]

end Oreo
