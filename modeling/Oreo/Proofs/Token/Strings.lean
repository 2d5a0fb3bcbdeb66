import Oreo.Proofs.Token.Lines

/-!
# Strings

Between quotes a backslash and the character behind it are read together. `Lexeme.units` cuts a
text in this way, and knows nothing else of strings: a quote ends a string exactly when it is a
unit of its own. A quote behind a backslash is none, however many backslashes stand before that
one, for these have been cut off in pairs.

Two facts are put together from this. A text that is escaped (`Lexeme.escapeAll`) holds no quote
as a unit and stands for what it was made of, so reading a string undoes escaping. And whatever
follows a quote, the string ends with the first unit that is a quote, or not at all.
-/

namespace Oreo

namespace Lexeme

/-- The characters that are written by an escape, each with the character that stands behind the
backslash. -/
def escapes : List (Char × Char) :=
  [('n', '\n'), ('t', '\t'), ('r', '\r'), ('\\', '\\'), ('"', '"'), ('\'', '\'')]

/-- A character as it is written between quotes: by its escape, if it has one. -/
def escape (character : Char) : List Char :=
  match escapes.find? (·.2 == character) with
  | some (letter, _) => ['\\', letter]
  | none => [character]

/-- A text as it is written between quotes. -/
def escapeAll (text : List Char) : List Char := text.flatMap escape

/-- What is read at once between quotes. -/
inductive StringUnit where
  /-- A character that stands for itself, or ends the string. -/
  | single (character : Char)
  /-- A backslash and the character behind it. -/
  | pair (character : Char)
  /-- A backslash at the end of the text. -/
  | backslash
deriving DecidableEq, Repr

namespace StringUnit

/-- The characters of a unit. -/
def text : StringUnit → List Char
  | .single character => [character]
  | .pair character => ['\\', character]
  | .backslash => ['\\']

/-- What a unit adds to the value of a string. A pair that is no escape stands for its two
characters, and a backslash at the end of the text for nothing. -/
def content : StringUnit → List Char
  | .single character => [character]
  | .pair character =>
    match escapes.lookup character with
    | some value => [value]
    | none => ['\\', character]
  | .backslash => []

/-- Whether the unit is a quote. -/
def isQuote : StringUnit → Bool
  | .single character => Lexeme.isQuote character
  | .pair _ | .backslash => false

end StringUnit

/-- The units of a text, from left to right. -/
def units : List Char → List StringUnit
  | [] => []
  | first :: rest =>
    if first = '\\' then
      match rest with
      | [] => [.backslash]
      | second :: rest => .pair second :: units rest
    else .single first :: units rest

/-- The characters of several units. -/
def written (parts : List StringUnit) : List Char := parts.flatMap StringUnit.text

/-- What several units stand for. -/
def decoded (parts : List StringUnit) : List Char := parts.flatMap StringUnit.content

/-- Units are written one behind the other. -/
@[simp] theorem written_cons (unit : StringUnit) (parts : List StringUnit) :
    written (unit :: parts) = unit.text ++ written parts := rfl

/-- Units stand for their contents, one behind the other. -/
@[simp] theorem decoded_cons (unit : StringUnit) (parts : List StringUnit) :
    decoded (unit :: parts) = unit.content ++ decoded parts := rfl

/-- Two lists of units are written one behind the other. -/
theorem written_append (first second : List StringUnit) :
    written (first ++ second) = written first ++ written second :=
  List.flatMap_append

/-- A backslash is read together with the character behind it. -/
theorem units_pair (second : Char) (rest : List Char) :
    units ('\\' :: second :: rest) = .pair second :: units rest := by
  rw [units, if_pos rfl]

/-- Any other character is read alone. -/
theorem units_single {first : Char} (other : first ≠ '\\') (rest : List Char) :
    units (first :: rest) = .single first :: units rest := by
  rw [units.eq_def]
  exact if_neg other

/-- Cutting a text into units loses nothing. -/
theorem written_units (text : List Char) : written (units text) = text := by
  fun_induction units text with
  | case1 => rfl
  | case2 => rfl
  | case3 second rest ih => rw [written_cons, ih, StringUnit.text]; rfl
  | case4 first rest other ih => rw [written_cons, ih, StringUnit.text]; rfl

/-- The scanner resolves a pair as the table of escapes says. -/
theorem unescape_eq (character : Char) :
    unescape character = (StringUnit.pair character).content := by
  by_cases listed : character ∈ ['n', 't', 'r', '\\', '"', '\'']
  · simp only [List.mem_cons, List.not_mem_nil, or_false] at listed
    rcases listed with rfl | rfl | rfl | rfl | rfl | rfl <;> decide
  · simp only [List.mem_cons, List.not_mem_nil, or_false, not_or] at listed
    obtain ⟨feed, tab, carriage, backslash, double, quote⟩ := listed
    have unknown : escapes.lookup character = none := by
      simp [escapes, List.lookup_eq_none_iff, feed, tab, carriage, backslash, double, quote]
    simp [unescape, StringUnit.content, unknown, Lexeme.isQuote, feed, tab, carriage, backslash,
      double, quote]

/-- No unit is a quote: the string is not ended, and all of the text belongs to it. -/
theorem stringBody_of_open {text : List Char}
    (noQuote : ∀ unit ∈ units text, unit.isQuote = false) :
    stringBody text = ⟨decoded (units text), text.length, false⟩ := by
  fun_induction stringBody text with
  | case1 => rfl
  | case2 => rfl
  | case3 escaped rest ih =>
    rw [units_pair] at noQuote ⊢
    rw [ih (List.forall_mem_cons.mp noQuote).2, StringBody.prepend, unescape_eq]
    simp only [decoded_cons, List.length_cons, StringBody.mk.injEq, true_and, and_true]
    omega
  | case4 first rest other quote =>
    rw [units_single other] at noQuote
    have none : Lexeme.isQuote first = false := (List.forall_mem_cons.mp noQuote).1
    rw [none] at quote
    contradiction
  | case5 first rest other quote ih =>
    rw [units_single other] at noQuote ⊢
    rw [ih (List.forall_mem_cons.mp noQuote).2, StringBody.prepend]
    simp only [decoded_cons, StringUnit.content, List.length_cons, StringBody.mk.injEq, true_and,
      and_true]
    omega

/-- The first unit that is a quote ends the string, and what stands before it is its content. -/
theorem stringBody_of_quote {text : List Char} {inside behind : List StringUnit} {closer : Char}
    (cut : units text = inside ++ .single closer :: behind)
    (noQuote : ∀ unit ∈ inside, unit.isQuote = false) (quote : Lexeme.isQuote closer = true) :
    stringBody text = ⟨decoded inside, (written inside).length + 1, true⟩ := by
  fun_induction stringBody text generalizing inside with
  | case1 => simp [units] at cut
  | case2 => simp [units, List.singleton_eq_append_iff] at cut
  | case3 escaped rest ih =>
    rw [units_pair] at cut
    cases inside with
    | nil => simp at cut
    | cons unit inside =>
      obtain ⟨rfl, later⟩ := List.cons.inj cut
      rw [ih later (List.forall_mem_cons.mp noQuote).2, StringBody.prepend, unescape_eq]
      simp only [decoded_cons, written_cons, StringUnit.text, List.length_append, List.length_cons,
        List.length_nil, StringBody.mk.injEq, true_and, and_true]
      omega
  | case4 first rest other found =>
    rw [units_single other] at cut
    cases inside with
    | nil => rfl
    | cons unit inside =>
      obtain ⟨rfl, _⟩ := List.cons.inj cut
      have none : Lexeme.isQuote first = false := (List.forall_mem_cons.mp noQuote).1
      rw [none] at found
      contradiction
  | case5 first rest other found ih =>
    rw [units_single other] at cut
    cases inside with
    | nil =>
      obtain ⟨same, _⟩ := List.cons.inj cut
      cases same
      contradiction
    | cons unit inside =>
      obtain ⟨rfl, later⟩ := List.cons.inj cut
      rw [ih later (List.forall_mem_cons.mp noQuote).2, StringBody.prepend]
      simp only [decoded_cons, written_cons, StringUnit.content, StringUnit.text,
        List.length_append, List.length_cons, List.length_nil, StringBody.mk.injEq, true_and,
        and_true]
      omega

/-- The unit that a character is written as. -/
def StringUnit.ofCharacter (character : Char) : StringUnit :=
  match escapes.find? (·.2 == character) with
  | some (letter, _) => .pair letter
  | none => .single character

/-- What is written for a character is one unit, which stands for the character and is no
quote. -/
theorem escape_unit (character : Char) :
    escape character = (StringUnit.ofCharacter character).text ∧
      (StringUnit.ofCharacter character).content = [character] ∧
      (StringUnit.ofCharacter character).isQuote = false := by
  by_cases listed : character ∈ ['\n', '\t', '\r', '\\', '"', '\'']
  · simp only [List.mem_cons, List.not_mem_nil, or_false] at listed
    rcases listed with rfl | rfl | rfl | rfl | rfl | rfl <;> decide
  · simp only [List.mem_cons, List.not_mem_nil, or_false, not_or, ← ne_eq] at listed
    obtain ⟨feed, tab, carriage, backslash, double, quote⟩ := listed
    have unlisted : escapes.find? (·.2 == character) = none := by
      simp [escapes, feed.symm, tab.symm, carriage.symm, backslash.symm, double.symm, quote.symm]
    simp [escape, StringUnit.ofCharacter, unlisted, StringUnit.text, StringUnit.content,
      StringUnit.isQuote, Lexeme.isQuote, double, quote]

/-- What is written for a character is cut off as one unit. -/
theorem units_escape (character : Char) (rest : List Char) :
    units (escape character ++ rest) = .ofCharacter character :: units rest := by
  unfold escape StringUnit.ofCharacter
  cases found : escapes.find? (·.2 == character) with
  | some listed => exact units_pair listed.1 rest
  | none =>
    have other : character ≠ '\\' := by
      rintro rfl
      exact absurd found (by decide)
    exact units_single other rest

/-- The units of an escaped text are its characters, one by one. -/
theorem units_escapeAll (text rest : List Char) :
    units (escapeAll text ++ rest) = text.map .ofCharacter ++ units rest := by
  induction text with
  | nil => rfl
  | cons character text ih =>
    have ahead : escapeAll (character :: text) ++ rest =
        escape character ++ (escapeAll text ++ rest) := by
      rw [escapeAll, List.flatMap_cons, List.append_assoc]
      rfl
    rw [ahead, units_escape, ih]
    rfl

/-- What is written for a text stands for the text. -/
theorem decoded_ofCharacter (text : List Char) : decoded (text.map .ofCharacter) = text := by
  induction text with
  | nil => rfl
  | cons character text ih =>
    rw [List.map_cons, decoded_cons, ih, (escape_unit character).2.1]
    rfl

/-- The characters of these units are the escaped text. -/
theorem written_ofCharacter (text : List Char) :
    written (text.map .ofCharacter) = escapeAll text := by
  induction text with
  | nil => rfl
  | cons character text ih =>
    rw [List.map_cons, written_cons, ih, ← (escape_unit character).1]
    rfl

end Lexeme

namespace Lexer

open Lexeme (units written decoded escapeAll)

variable {quote : Char}

/-- A quote is neither a blank nor the beginning of a word or a number. -/
theorem scan_of_quote (opens : Lexeme.isQuote quote = true) (text : List Char) :
    Text.isBlank quote = false ∧ Lexeme.scan quote text = Lexeme.string quote text := by
  have either : quote = '"' ∨ quote = '\'' := by simpa [Lexeme.isQuote] using opens
  rcases either with rfl | rfl <;> exact ⟨by decide, rfl⟩

/-- A text that begins with a quote is read as a string, ended or not. -/
theorem next_of_string (opens : Lexeme.isQuote quote = true) (text : List Char)
    (position : Position) :
    next ⟨quote :: text, position⟩ =
      (if (Lexeme.stringBody text).isClosed then
        .ok (some ⟨.string (String.ofList (Lexeme.stringBody text).content) quote,
          .ofPosition position (1 + (Lexeme.stringBody text).length)⟩)
      else
        .error ⟨.unterminatedString quote (String.ofList (Lexeme.stringBody text).content),
          .ofPosition position (1 + (Lexeme.stringBody text).length)⟩,
      drop ⟨quote :: text, position⟩ (1 + (Lexeme.stringBody text).length)) := by
  obtain ⟨notBlank, scanned⟩ := scan_of_quote opens text
  have ahead : skipBlanks ⟨quote :: text, position⟩ = ⟨quote :: text, position⟩ :=
    skipBlanks_eq_self notBlank rfl
  simp only [next, ahead, scanned, Lexeme.string]
  by_cases closed : (Lexeme.stringBody text).isClosed = true
  · simp only [closed, ↓reduceIte]
  · simp only [closed]
    rfl

/-- A string that is not ended is reported from its quote to the end of the text, with all that
was read of its content. -/
theorem next_of_open {text : List Char} (opens : Lexeme.isQuote quote = true)
    (noQuote : ∀ unit ∈ units text, unit.isQuote = false) (position : Position) :
    next ⟨quote :: text, position⟩ =
      (.error ⟨.unterminatedString quote (String.ofList (decoded (units text))),
        .ofPosition position (text.length + 1)⟩, ⟨[], position.advance (quote :: text)⟩) := by
  have moved : drop ⟨quote :: text, position⟩ (text.length + 1) =
      ⟨[], position.advance (quote :: text)⟩ := by
    simp [drop]
  rw [next_of_string opens, Lexeme.stringBody_of_open noQuote, Nat.add_comm 1, moved]
  rfl

/-- A string ends behind the first unit that is a quote. -/
theorem next_of_closed {text : List Char} {inside behind : List Lexeme.StringUnit} {closer : Char}
    (opens : Lexeme.isQuote quote = true) (cut : units text = inside ++ .single closer :: behind)
    (noQuote : ∀ unit ∈ inside, unit.isQuote = false) (closes : Lexeme.isQuote closer = true)
    (position : Position) :
    next ⟨quote :: text, position⟩ =
      (.ok (some ⟨.string (String.ofList (decoded inside)) quote,
        .ofPosition position ((written inside).length + 2)⟩),
        ⟨written behind, position.advance (quote :: (written inside ++ [closer]))⟩) := by
  have whole : text = (written inside ++ [closer]) ++ written behind := by
    rw [← Lexeme.written_units text, cut, Lexeme.written_append, Lexeme.written_cons,
      Lexeme.StringUnit.text, List.append_assoc]
  have taken : (quote :: (written inside ++ [closer])).length = (written inside).length + 2 := by
    simp
  have moved : drop ⟨quote :: text, position⟩ ((written inside).length + 2) =
      ⟨written behind, position.advance (quote :: (written inside ++ [closer]))⟩ := by
    rw [← taken, whole, ← List.cons_append]
    simp only [drop, List.drop_left, List.take_left]
  have length : 1 + ((written inside).length + 1) = (written inside).length + 2 := by omega
  rw [next_of_string opens, Lexeme.stringBody_of_quote cut noQuote closes]
  simp only [length, moved, ↓reduceIte]

/-- If some unit is a quote, there is a first one. -/
theorem exists_first_quote {parts : List Lexeme.StringUnit}
    (found : ∃ unit ∈ parts, unit.isQuote = true) :
    ∃ inside closer behind, parts = inside ++ .single closer :: behind ∧
      (∀ unit ∈ inside, unit.isQuote = false) ∧ Lexeme.isQuote closer = true := by
  induction parts with
  | nil => simp at found
  | cons unit parts ih =>
    by_cases quote : unit.isQuote = true
    · cases unit with
      | single closer => exact ⟨[], closer, parts, rfl, by simp, quote⟩
      | pair character => cases quote
      | backslash => cases quote
    · have later : ∃ unit ∈ parts, unit.isQuote = true := by
        simpa [quote] using found
      obtain ⟨inside, closer, behind, rfl, noQuote, closes⟩ := ih later
      have front : ∀ other ∈ unit :: inside, other.isQuote = false :=
        List.forall_mem_cons.mpr ⟨by simpa using quote, noQuote⟩
      exact ⟨unit :: inside, closer, behind, rfl, front, closes⟩

/-- The escaped form of a text between quotes is read as the text. -/
theorem next_of_escapeAll {closer : Char} (opens : Lexeme.isQuote quote = true)
    (closes : Lexeme.isQuote closer = true) (value : String) (rest : List Char)
    (position : Position) :
    next ⟨quote :: (escapeAll value.toList ++ closer :: rest), position⟩ =
      (.ok (some ⟨.string value quote,
        .ofPosition position ((escapeAll value.toList).length + 2)⟩),
        ⟨rest, position.advance (quote :: (escapeAll value.toList ++ [closer]))⟩) := by
  have other : closer ≠ '\\' := by
    rintro rfl
    exact absurd closes (by decide)
  have cut : units (escapeAll value.toList ++ closer :: rest) =
      value.toList.map .ofCharacter ++ .single closer :: units rest := by
    rw [Lexeme.units_escapeAll, Lexeme.units_single other]
  have noQuote : ∀ unit ∈ value.toList.map Lexeme.StringUnit.ofCharacter,
      unit.isQuote = false :=
    List.forall_mem_map.mpr fun character _ => (Lexeme.escape_unit character).2.2
  rw [next_of_closed opens cut noQuote closes, Lexeme.decoded_ofCharacter,
    Lexeme.written_ofCharacter, Lexeme.written_units, String.ofList_toList]

/-- There is a fault behind a quote exactly when no unit of the text is a quote. -/
theorem next_eq_error_iff (opens : Lexeme.isQuote quote = true) (text : List Char)
    (position : Position) (error : ScanError) :
    (next ⟨quote :: text, position⟩).1 = .error error ↔
      (∀ unit ∈ units text, unit.isQuote = false) ∧
        error = ⟨.unterminatedString quote (String.ofList (decoded (units text))),
          .ofPosition position (text.length + 1)⟩ := by
  by_cases noQuote : ∀ unit ∈ units text, unit.isQuote = false
  · rw [next_of_open opens noQuote]
    constructor
    · intro same
      exact ⟨noQuote, (Except.error.inj same).symm⟩
    · rintro ⟨_, rfl⟩
      rfl
  · have found : ∃ unit ∈ units text, unit.isQuote = true := by simpa using noQuote
    obtain ⟨inside, closer, behind, cut, before, closes⟩ := exists_first_quote found
    rw [next_of_closed opens cut before closes]
    constructor
    · intro same
      cases same
    · intro both
      exact absurd both.1 noQuote

/-- Scanning a string undoes escaping, and a string ends at the first quote that is not escaped.
From any position on: the escaped form of any text between any two quotes is read as the text, and
the lexer stops just behind the second quote, whatever stands there. For any text behind a quote,
there is a fault exactly when no unit of the text is a quote; it is then that of a string that is
not ended, from the quote to the end of the text, with all that the units stand for as its content,
and nothing is left to be read. Otherwise the string ends right behind the first unit that is a
quote, and its value is what the units before it stand for. -/
theorem next_of_quote (opens : Lexeme.isQuote quote = true) (position : Position) :
    (∀ (value : String) (closer : Char) (rest : List Char), Lexeme.isQuote closer = true →
      next ⟨quote :: (escapeAll value.toList ++ closer :: rest), position⟩ =
        (.ok (some ⟨.string value quote,
          .ofPosition position ((escapeAll value.toList).length + 2)⟩),
          ⟨rest, position.advance (quote :: (escapeAll value.toList ++ [closer]))⟩)) ∧
      ∀ text : List Char,
        (∀ error, (next ⟨quote :: text, position⟩).1 = .error error ↔
          (∀ unit ∈ units text, unit.isQuote = false) ∧
            error = ⟨.unterminatedString quote (String.ofList (decoded (units text))),
              .ofPosition position (text.length + 1)⟩) ∧
        ((∀ unit ∈ units text, unit.isQuote = false) →
          (next ⟨quote :: text, position⟩).2 = ⟨[], position.advance (quote :: text)⟩) ∧
        ((∃ unit ∈ units text, unit.isQuote = true) →
          ∃ inside closer behind, units text = inside ++ .single closer :: behind ∧
            (∀ unit ∈ inside, unit.isQuote = false) ∧ Lexeme.isQuote closer = true ∧
            next ⟨quote :: text, position⟩ =
              (.ok (some ⟨.string (String.ofList (decoded inside)) quote,
                .ofPosition position ((written inside).length + 2)⟩),
                ⟨written behind, position.advance (quote :: (written inside ++ [closer]))⟩)) := by
  refine ⟨fun value closer rest closes => next_of_escapeAll opens closes value rest position,
    fun text => ⟨next_eq_error_iff opens text position, fun noQuote => ?_, fun found => ?_⟩⟩
  · rw [next_of_open opens noQuote]
  · obtain ⟨inside, closer, behind, cut, before, closes⟩ := exists_first_quote found
    exact ⟨inside, closer, behind, cut, before, closes,
      next_of_closed opens cut before closes position⟩

/-- A text with a quote, a line feed and a backslash before its end, and one that ends in a
backslash: three backslashes and a quote behind them are two pairs, and the last backslash is
dropped. -/
theorem next_of_quote_backslashes :
    let text := ['a', '\\', '\\', '\\', '\'', 'q', '\\']
    Lexeme.isQuote '"' = true ∧
      escapeAll "it's\n\\".toList = "it\\'s\\n\\\\".toList ∧
      next ⟨'"' :: (escapeAll "it's\n\\".toList ++ '\'' :: ['x']), {}⟩ =
        (.ok (some ⟨.string "it's\n\\" '"', ⟨0, 11, 1, 1⟩⟩), ⟨['x'], ⟨11, 1, 12⟩⟩) ∧
      units text = [.single 'a', .pair '\\', .pair '\'', .single 'q', .backslash] ∧
      (next ⟨'"' :: text, {}⟩).1 =
        .error ⟨.unterminatedString '"' "a\\'q", ⟨0, 8, 1, 1⟩⟩ := by
  intro text
  have opens : Lexeme.isQuote '"' = true := by decide
  have cut : units text = [.single 'a', .pair '\\', .pair '\'', .single 'q', .backslash] := by
    decide
  obtain ⟨undone, ended⟩ := next_of_quote opens {}
  refine ⟨opens, by decide, undone "it's\n\\" '\'' ['x'] (by decide), cut, ?_⟩
  exact ((ended text).1 _).mpr ⟨by rw [cut]; decide, by rw [cut]; rfl⟩

end Lexer

end Oreo
