import Oreo.Proofs.Token.Extent

/-!
# A lexeme depends on itself

The lexeme at the beginning of a text stays the same when the text is broken off behind it: cut
short, or continued on a new line. Everything that a scan looks at behind a lexeme (a letter, a
digit, a dot before a digit, the second half of an operator) has to be there for the scan to go
on, and neither the end of a text nor a line feed is any of it.

One lexeme is not like this. A line comment that is ended by the end of its text takes the line
feed as well, if one is put there.

A broken text is written `text.take count ++ behind`, where `behind` begins with a line feed or
is empty (`EndsLine`), and the lexeme takes at most `count` characters.
-/

namespace Oreo.Lexeme

/-- The text does not go on in its line: it is empty or begins with a line feed. -/
def EndsLine : List Char → Prop
  | [] => True
  | first :: _ => first = '\n'

variable {text rest behind : List Char} {count : Nat}

/-- A broken text begins with a character other than the line feed just when the whole text does
and the break comes later. -/
theorem head?_break (ends : EndsLine behind) {character : Char} (other : character ≠ '\n') :
    (rest.take count ++ behind).head? = some character ↔
      0 < count ∧ rest.head? = some character := by
  have noHead : behind.head? ≠ some character := by
    intro same
    cases behind with
    | nil => simp at same
    | cons first behind =>
      obtain rfl : first = '\n' := ends
      exact other (Option.some.inj same).symm
  cases count with
  | zero => simpa using noHead
  | succ count =>
    cases rest with
    | nil => simpa using noHead
    | cons first rest => simp

/-- A broken text begins with a digit just when the whole text does and the break comes later. -/
theorem startsWithDigit_break (ends : EndsLine behind) :
    startsWithDigit (rest.take count ++ behind) = true ↔
      0 < count ∧ startsWithDigit rest = true := by
  have byHead (text : List Char) : startsWithDigit text = true ↔
      ∃ digit, digit.isDigit = true ∧ text.head? = some digit := by
    cases text with
    | nil => simp [startsWithDigit]
    | cons first text => simp [startsWithDigit]
  have noFeed {digit : Char} (isDigit : digit.isDigit = true) : digit ≠ '\n' := by
    rintro rfl
    contradiction
  rw [byHead, byHead]
  constructor
  · rintro ⟨digit, isDigit, same⟩
    obtain ⟨positive, same⟩ := (head?_break ends (noFeed isDigit)).mp same
    exact ⟨positive, digit, isDigit, same⟩
  · rintro ⟨positive, digit, isDigit, same⟩
    exact ⟨digit, isDigit, (head?_break ends (noFeed isDigit)).mpr ⟨positive, same⟩⟩

/-- A run of characters that are no line feeds ends where it ended before the break. -/
theorem takeWhile_break (test : Char → Bool) (ends : EndsLine behind)
    (lineFeed : test '\n' = false) (enough : (text.takeWhile test).length ≤ count) :
    (text.take count ++ behind).takeWhile test = text.takeWhile test := by
  have nothing : behind.takeWhile test = [] := by
    cases behind with
    | nil => rfl
    | cons first behind =>
      obtain rfl : first = '\n' := ends
      simp [lineFeed]
  induction text generalizing count with
  | nil => simpa using nothing
  | cons first text ih =>
    by_cases taken : test first = true
    · rw [List.takeWhile_cons_of_pos taken, List.length_cons] at enough
      obtain ⟨count, rfl⟩ : ∃ fewer, count = fewer + 1 := ⟨count - 1, by omega⟩
      rw [List.take_succ_cons, List.cons_append, List.takeWhile_cons_of_pos taken,
        List.takeWhile_cons_of_pos taken, ih (by omega)]
    · cases count with
      | zero => rw [List.take_zero, List.nil_append, nothing, List.takeWhile_cons_of_neg taken]
      | succ count =>
        rw [List.take_succ_cons, List.cons_append, List.takeWhile_cons_of_neg taken,
          List.takeWhile_cons_of_neg taken]

/-- A word that is broken off behind its end stays the same. -/
theorem word_break (ends : EndsLine behind) (enough : (word text).length ≤ count) :
    word (text.take count ++ behind) = word text := by
  unfold word
  rw [takeWhile_break isWordPart ends (by decide) enough]

/-- A run of digits and dots that is broken off behind its end stays the same. -/
theorem decimalRun_break (ends : EndsLine behind) (enough : (decimalRun text).length ≤ count) :
    decimalRun (text.take count ++ behind) = decimalRun text := by
  have nothing : decimalRun behind = [] := by
    cases behind with
    | nil => rfl
    | cons first behind =>
      obtain rfl : first = '\n' := ends
      simp [decimalRun]
  induction text generalizing count with
  | nil => simpa [decimalRun] using nothing
  | cons first text ih =>
    have run : decimalRun (first :: text) =
        if first.isDigit || (first == '.' && startsWithDigit text) then first :: decimalRun text
        else [] := rfl
    rw [run] at enough ⊢
    split
    · rename_i goes
      rw [if_pos goes, List.length_cons] at enough
      obtain ⟨count, rfl⟩ : ∃ fewer, count = fewer + 1 := ⟨count - 1, by omega⟩
      have later : startsWithDigit text = true → 0 < count := by
        intro digit
        cases text with
        | nil => simp [startsWithDigit] at digit
        | cons second text =>
          have second : second.isDigit = true := digit
          simp [decimalRun, second] at enough
          omega
      have same : startsWithDigit text = true →
          startsWithDigit (text.take count ++ behind) = true := fun digit =>
        (startsWithDigit_break ends).mpr ⟨later digit, digit⟩
      rw [List.take_succ_cons, List.cons_append, decimalRun, ih (by omega), if_pos]
      simp only [Bool.or_eq_true, Bool.and_eq_true] at goes ⊢
      exact goes.imp_right fun dot => ⟨dot.1, same dot.2⟩
    · rename_i stops
      cases count with
      | zero => exact nothing
      | succ count =>
        have same : startsWithDigit (text.take count ++ behind) = true →
            startsWithDigit text = true := fun digit => ((startsWithDigit_break ends).mp digit).2
        rw [List.take_succ_cons, List.cons_append, decimalRun, if_neg]
        intro goes
        simp only [Bool.or_eq_true, Bool.and_eq_true] at goes stops
        exact stops (goes.imp_right fun dot => ⟨dot.1, same dot.2⟩)

/-- A decimal number that is broken off behind its end stays the same. -/
theorem decimal_break (ends : EndsLine behind) (enough : (decimal text).length ≤ count) :
    decimal (text.take count ++ behind) = decimal text := by
  unfold decimal
  rw [decimalRun_break ends enough]

/-- A binary number that is broken off behind its end stays the same. -/
theorem binary_break (ends : EndsLine behind) (enough : (binary text).length ≤ count + 2) :
    binary (text.take count ++ behind) = binary text := by
  have run : (text.takeWhile isBinaryDigit).length ≤ count := by
    dsimp only [binary] at enough
    omega
  unfold binary
  rw [takeWhile_break _ ends (by decide) run]

/-- The text begins with the mark of a binary number. -/
def BinaryMarked (text : List Char) : Prop :=
  text.head? = some '0' ∧ (text.tail.head? = some 'b' ∨ text.tail.head? = some 'B')

/-- Whether a text is marked as binary can be computed. -/
instance : Decidable (BinaryMarked text) := inferInstanceAs (Decidable (_ ∧ _))

/-- Without the mark of a binary number, a number is decimal. -/
theorem number_of_unmarked (unmarked : ¬ BinaryMarked text) : number text = decimal text := by
  unfold number
  split
  · exact absurd ⟨rfl, .inl rfl⟩ unmarked
  · exact absurd ⟨rfl, .inr rfl⟩ unmarked
  · rfl

/-- A number that is broken off behind its end stays the same. -/
theorem number_break {first : Char} (ends : EndsLine behind)
    (enough : (number (first :: rest)).length ≤ count + 1) :
    number (first :: (rest.take count ++ behind)) = number (first :: rest) := by
  by_cases marked : BinaryMarked (first :: rest)
  · obtain ⟨zero, mark⟩ := marked
    obtain rfl := Option.some.inj zero
    cases rest with
    | nil => simp at mark
    | cons second rest =>
      have two : 2 ≤ count + 1 := by
        refine Nat.le_trans ?_ enough
        rcases mark with mark | mark
        all_goals
          obtain rfl := Option.some.inj mark
          exact Nat.le_add_right 2 _
      obtain ⟨count, rfl⟩ : ∃ fewer, count = fewer + 1 := ⟨count - 1, by omega⟩
      rcases mark with mark | mark
      all_goals
        obtain rfl := Option.some.inj mark
        exact binary_break ends enough
  · -- Without the mark of a binary number, breaking the text does not bring one about.
    have stays : ¬ BinaryMarked (first :: (rest.take count ++ behind)) := by
      rintro ⟨zero, mark⟩
      rw [List.tail_cons, head?_break ends (by decide), head?_break ends (by decide)] at mark
      exact marked ⟨zero, mark.imp And.right And.right⟩
    rw [number_of_unmarked marked] at enough ⊢
    rw [number_of_unmarked stays]
    change decimal ((first :: rest).take (count + 1) ++ behind) = decimal (first :: rest)
    exact decimal_break ends enough

/-- A string that is ended does not depend on anything behind its quote. -/
theorem stringBody_break (closed : (stringBody text).isClosed = true)
    (enough : (stringBody text).length ≤ count) :
    stringBody (text.take count ++ behind) = stringBody text := by
  fun_induction stringBody text generalizing count with
  | case1 => contradiction
  | case2 => contradiction
  | case3 escaped rest ih =>
    simp only [StringBody.prepend] at closed enough
    obtain ⟨count, rfl⟩ : ∃ fewer, count = fewer + 2 := ⟨count - 2, by omega⟩
    simp only [List.take_succ_cons, List.cons_append, stringBody, ↓reduceIte]
    rw [ih closed (by omega)]
  | case4 first rest plain quote =>
    obtain ⟨count, rfl⟩ : ∃ fewer, count = fewer + 1 := ⟨count - 1, by simp at enough; omega⟩
    simp only [List.take_succ_cons, List.cons_append]
    rw [stringBody.eq_def]
    simp only [if_neg plain, if_pos quote]
  | case5 first rest plain noQuote ih =>
    simp only [StringBody.prepend] at closed enough
    obtain ⟨count, rfl⟩ : ∃ fewer, count = fewer + 1 := ⟨count - 1, by omega⟩
    simp only [List.take_succ_cons, List.cons_append]
    rw [stringBody.eq_def]
    simp only [if_neg plain, if_neg noQuote]
    rw [ih closed (by omega)]

/-- A string that is broken off behind its closing quote stays the same. -/
theorem string_break {quote : Char} {kind : Token.Kind}
    (scanned : (string quote text).outcome = .ok kind)
    (enough : (string quote text).length ≤ count + 1) :
    string quote (text.take count ++ behind) = string quote text := by
  have closed : (stringBody text).isClosed = true := by
    cases unclosed : (stringBody text).isClosed with
    | true => rfl
    | false => simp [string, unclosed] at scanned
  have within : (stringBody text).length ≤ count := by
    simp only [string] at enough
    omega
  unfold string
  rw [stringBody_break closed within]

/-- A marker takes two characters. -/
theorem two_le_closeBlocks {depth length : Nat} (closed : closeBlocks depth text = some length) :
    2 ≤ length := by
  fun_induction closeBlocks depth text generalizing length with
  | case1 => contradiction
  | case2 => contradiction
  | case3 => cases closed; omega
  | case4 first second rest marker depth ih =>
    obtain ⟨inner, found, rfl⟩ := Option.map_eq_some_iff.mp closed
    omega
  | case5 depth first second rest outer marker ih =>
    obtain ⟨inner, found, rfl⟩ := Option.map_eq_some_iff.mp closed
    omega
  | case6 depth first second rest outer inner ih =>
    obtain ⟨taken, found, rfl⟩ := Option.map_eq_some_iff.mp closed
    have := ih found
    omega

/-- What closes block comments does not depend on anything behind the last marker. -/
theorem closeBlocks_break {depth length : Nat} (closed : closeBlocks depth text = some length)
    (enough : length ≤ count) : closeBlocks depth (text.take count ++ behind) = some length := by
  fun_induction closeBlocks depth text generalizing count length with
  | case1 => contradiction
  | case2 => contradiction
  | case3 first second rest marker =>
    cases closed
    obtain ⟨count, rfl⟩ : ∃ fewer, count = fewer + 2 := ⟨count - 2, by omega⟩
    simp [closeBlocks, marker]
  | case4 first second rest marker depth ih =>
    obtain ⟨inner, found, rfl⟩ := Option.map_eq_some_iff.mp closed
    obtain ⟨count, rfl⟩ : ∃ fewer, count = fewer + 2 := ⟨count - 2, by omega⟩
    simp only [List.take_succ_cons, List.cons_append, closeBlocks, marker, and_self, ↓reduceIte]
    rw [ih found (by omega), Option.map_some]
  | case5 depth first second rest outer marker ih =>
    obtain ⟨inner, found, rfl⟩ := Option.map_eq_some_iff.mp closed
    obtain ⟨count, rfl⟩ : ∃ fewer, count = fewer + 2 := ⟨count - 2, by omega⟩
    simp only [List.take_succ_cons, List.cons_append, closeBlocks]
    rw [if_neg outer, if_pos marker, ih found (by omega), Option.map_some]
  | case6 depth first second rest outer inner ih =>
    obtain ⟨taken, found, rfl⟩ := Option.map_eq_some_iff.mp closed
    have more := two_le_closeBlocks found
    obtain ⟨count, rfl⟩ : ∃ fewer, count = fewer + 2 := ⟨count - 2, by omega⟩
    have next : closeBlocks depth ((second :: rest).take (count + 1) ++ behind) = some taken :=
      ih found (by omega)
    simp only [List.take_succ_cons, List.cons_append] at next ⊢
    simp only [closeBlocks]
    rw [if_neg outer, if_neg inner, next, Option.map_some]

/-- A block comment that is broken off behind its last marker stays the same. -/
theorem blockComment_break {kind : Token.Kind} (scanned : (blockComment text).outcome = .ok kind)
    (enough : (blockComment text).length ≤ count + 2) :
    blockComment (text.take count ++ behind) = blockComment text := by
  cases closed : closeBlocks 0 text with
  | none => simp [blockComment, closed] at scanned
  | some length =>
    simp only [blockComment, closed] at enough ⊢
    have inside := closeBlocks_le closed
    have within : length ≤ count := by omega
    rw [closeBlocks_break closed within]
    simp only [Lexeme.mk.injEq, and_true]
    rw [List.take_append_of_le_length (by rw [List.length_take]; omega), List.take_take,
      Nat.min_eq_left (by omega)]

/-- The line of a comment is shorter than its text if a line feed ends it. -/
theorem length_line_lt (feed : '\n' ∈ text) :
    (text.takeWhile (· != '\n')).length < text.length := by
  have front := List.takeWhile_prefix (l := text) (· != '\n')
  apply Nat.lt_of_le_of_ne front.length_le
  intro same
  rw [← front.eq_of_length same] at feed
  have other := List.all_eq_true.mp List.all_takeWhile _ feed
  simp at other

/-- A line comment that a line feed ends, or behind which nothing is put, stays the same. -/
theorem lineComment_break (ends : EndsLine behind) (closed : behind = [] ∨ '\n' ∈ text)
    (enough : (lineComment text).length ≤ count + 2) :
    lineComment (text.take count ++ behind) = lineComment text := by
  simp only [lineComment] at enough
  have same : (text.take count ++ behind).takeWhile (· != '\n') = text.takeWhile (· != '\n') :=
    takeWhile_break _ ends (by decide) (by omega)
  have feed : (text.takeWhile (· != '\n')).length < (text.take count ++ behind).length ↔
      (text.takeWhile (· != '\n')).length < text.length := by
    rw [List.length_append, List.length_take]
    rcases closed with rfl | feed
    · rw [List.length_nil]
      split at enough <;> omega
    · have shorter := length_line_lt feed
      rw [if_pos shorter] at enough
      omega
  simp only [lineComment, same, feed]

/-- A text without a line feed is all on one line with what follows it. -/
theorem line_append (noFeed : '\n' ∉ text) (behind : List Char) :
    (text ++ behind).takeWhile (· != '\n') = text ++ behind.takeWhile (· != '\n') := by
  apply List.takeWhile_append_of_pos
  intro character member
  have other : character ≠ '\n' := fun same => noFeed (same ▸ member)
  simpa using other

/-- A line comment that nothing ends takes all of its text. -/
theorem length_lineComment_open (noFeed : '\n' ∉ text) :
    (lineComment text).length = 2 + text.length := by
  have line := line_append noFeed []
  simp only [List.append_nil, List.takeWhile_nil] at line
  simp only [lineComment, line, Nat.lt_irrefl, ↓reduceIte, Nat.add_zero]

/-- A line feed that is put behind such a comment is taken by it. -/
theorem lineComment_lineFeed (noFeed : '\n' ∉ text) (behind : List Char) :
    lineComment (text ++ '\n' :: behind) =
      { lineComment text with length := (lineComment text).length + 1 } := by
  have line := line_append noFeed []
  have longer := line_append noFeed ('\n' :: behind)
  simp only [List.append_nil, List.takeWhile_nil] at line
  simp [lineComment, line, longer]

/-- No operator ends in a line feed. -/
theorem doubleOperator?_lineFeed (first : Char) : doubleOperator? first '\n' = none := by
  simp [doubleOperator?, doubleOperators, Operator.text]

/-- A symbol that is broken off behind its end stays the same. -/
theorem symbol_break {first : Char} (ends : EndsLine behind)
    (enough : (symbol first rest).length ≤ count + 1) :
    symbol first (rest.take count ++ behind) = symbol first rest := by
  have alone : behind.head?.bind (doubleOperator? first) = none := by
    cases behind with
    | nil => rfl
    | cons second behind =>
      obtain rfl : second = '\n' := ends
      exact doubleOperator?_lineFeed first
  cases rest with
  | nil =>
    simp only [symbol, List.take_nil, List.nil_append, alone, List.head?_nil, Option.bind_none]
  | cons second rest =>
    cases count with
    | succ count => rfl
    | zero =>
      simp only [symbol, List.take_zero, List.nil_append, alone] at enough ⊢
      split at enough <;> simp_all

/-- Whether a text is a line comment that no line feed ends. -/
def isOpenComment (first : Char) (rest : List Char) : Bool :=
  first == '/' && rest.head? == some '/' && !rest.contains '\n'

/-- A number that begins with a dot takes the digit behind it. -/
theorem two_le_number (digit : startsWithDigit rest = true) :
    2 ≤ (number ('.' :: rest)).length := by
  have run : number ('.' :: rest) = decimal ('.' :: rest) := rfl
  cases rest with
  | nil => simp [startsWithDigit] at digit
  | cons second rest =>
    have isDigit : second.isDigit = true := digit
    simp [run, decimal, decimalRun, startsWithDigit, isDigit]

/-- The lexeme at the beginning of a text stays the same when the text is broken off behind it,
unless it is a line comment to which a line feed is added. -/
theorem scan_break {first : Char} {kind : Token.Kind} (ends : EndsLine behind)
    (closed : behind = [] ∨ isOpenComment first rest = false)
    (scanned : (scan first rest).outcome = .ok kind)
    (enough : (scan first rest).length ≤ count + 1) :
    scan first (rest.take count ++ behind) = scan first rest := by
  -- Each test of the scan comes out as it did: what it asks for was taken, or is missing still.
  unfold scan at scanned enough ⊢
  by_cases letter : isWordStart first = true
  · rw [if_pos letter] at enough ⊢
    rw [if_pos letter]
    change word ((first :: rest).take (count + 1) ++ behind) = word (first :: rest)
    exact word_break ends enough
  rw [if_neg letter] at scanned enough ⊢
  rw [if_neg letter]
  by_cases numeral : (first.isDigit || (first == '.' && startsWithDigit rest)) = true
  · rw [if_pos numeral] at enough ⊢
    have stays :
        (first.isDigit || (first == '.' && startsWithDigit (rest.take count ++ behind))) =
          true := by
      simp only [Bool.or_eq_true, Bool.and_eq_true, beq_iff_eq] at numeral ⊢
      rcases numeral with digit | ⟨rfl, digit⟩
      · exact .inl digit
      · have two := two_le_number digit
        exact .inr ⟨rfl, (startsWithDigit_break ends).mpr ⟨by omega, digit⟩⟩
    rw [if_pos stays]
    exact number_break ends enough
  have noNumeral :
      ¬ (first.isDigit || (first == '.' && startsWithDigit (rest.take count ++ behind))) =
        true := by
    intro goes
    simp only [Bool.or_eq_true, Bool.and_eq_true] at goes numeral
    exact numeral (goes.imp_right fun dot => ⟨dot.1, ((startsWithDigit_break ends).mp dot.2).2⟩)
  rw [if_neg numeral] at scanned enough ⊢
  rw [if_neg noNumeral]
  by_cases quote : isQuote first = true
  · rw [if_pos quote] at scanned enough ⊢
    rw [if_pos quote]
    exact string_break scanned enough
  rw [if_neg quote] at scanned enough ⊢
  rw [if_neg quote]
  simp only [head?_break ends (show '/' ≠ '\n' by decide),
    head?_break ends (show '*' ≠ '\n' by decide)]
  by_cases slashes : first = '/' ∧ rest.head? = some '/'
  · rw [if_pos slashes] at enough ⊢
    have later : 0 < count := by
      simp only [lineComment] at enough
      omega
    rw [if_pos ⟨slashes.1, later, slashes.2⟩]
    obtain ⟨rfl, slash⟩ := slashes
    obtain ⟨text, rfl⟩ := List.head?_eq_some_iff.mp slash
    obtain ⟨count, rfl⟩ : ∃ fewer, count = fewer + 1 := ⟨count - 1, by omega⟩
    exact lineComment_break ends (closed.imp_right (by simp [isOpenComment])) enough
  rw [if_neg slashes] at scanned enough ⊢
  rw [if_neg fun both => slashes ⟨both.1, both.2.2⟩]
  by_cases marker : first = '/' ∧ rest.head? = some '*'
  · rw [if_pos marker] at scanned enough ⊢
    obtain ⟨rfl, star⟩ := marker
    obtain ⟨text, rfl⟩ := List.head?_eq_some_iff.mp star
    have two : 2 ≤ (blockComment text).length := by
      unfold blockComment
      split <;> simp
    have later : 0 < count := by
      simp only [List.drop_succ_cons, List.drop_zero] at enough
      omega
    rw [if_pos ⟨rfl, later, rfl⟩]
    obtain ⟨count, rfl⟩ : ∃ fewer, count = fewer + 1 := ⟨count - 1, by omega⟩
    exact blockComment_break scanned enough
  rw [if_neg marker] at scanned enough ⊢
  rw [if_neg fun both => marker ⟨both.1, both.2.2⟩]
  exact symbol_break ends enough

/-- A line comment that no line feed ends takes all of its text, and takes a line feed that is put
behind it. -/
theorem scan_openComment {first : Char} (isOpen : isOpenComment first rest = true)
    (behind : List Char) :
    (scan first rest).length = rest.length + 1 ∧
      scan first (rest ++ '\n' :: behind) =
        { scan first rest with length := (scan first rest).length + 1 } := by
  simp only [isOpenComment, Bool.and_eq_true, beq_iff_eq, Bool.not_eq_true',
    List.contains_eq_mem, decide_eq_false_iff_not] at isOpen
  obtain ⟨⟨rfl, slash⟩, noFeed⟩ := isOpen
  obtain ⟨text, rfl⟩ := List.head?_eq_some_iff.mp slash
  have noFeed : '\n' ∉ text := fun member => noFeed (List.mem_cons_of_mem _ member)
  have comment (text : List Char) : scan '/' ('/' :: text) = lineComment text := rfl
  rw [List.cons_append, comment, comment]
  refine ⟨?_, lineComment_lineFeed noFeed behind⟩
  rw [length_lineComment_open noFeed, List.length_cons]
  omega

end Oreo.Lexeme
