import Oreo.Proofs.Token.Lines

/-!
# Decimal numbers

A decimal number is the longest run of digits and of dots that each stand directly before a digit
(`Lexeme.NumeralAt`). Such a run may begin with a dot and may hold any number of them, and only the
part before its second dot is read. Reading can fail, and zero would then stand for the number, but
a dot of a run is always followed by a digit: what is left of the run when it is cut is spelled as a
decimal (`Spells`), and every such text is read.
-/

namespace Oreo

/-- The text is a decimal with the given digits, the given number of them behind its dot: it is made
of digits, or of a dot with at least one digit behind it, and with or without digits before it. -/
inductive Spells : (text digits : List Char) → (places : Nat) → Prop
  /-- Digits without a dot. -/
  | whole {digits : List Char} (nonempty : digits ≠ [])
      (isDigit : ∀ digit ∈ digits, digit.isDigit = true) : Spells digits digits 0
  /-- Digits behind a dot. -/
  | pointed {whole fraction : List Char} (isDigit : ∀ digit ∈ whole, digit.isDigit = true)
      (nonempty : fraction ≠ []) (isDigitBehind : ∀ digit ∈ fraction, digit.isDigit = true) :
      Spells (whole ++ '.' :: fraction) (whole ++ fraction) fraction.length

/-- The part is what stands before the second dot of the text: it holds one dot and another one
stands behind it, or it holds at most one and is all of the text. -/
def EndsBeforeSecondDot (text part : List Char) : Prop :=
  ∃ behind, text = part ++ behind ∧
    (behind.head? = some '.' ∧ part.count '.' = 1 ∨ behind = [] ∧ part.count '.' ≤ 1)

section Dots

variable {text whole rest : List Char}

/-- In a text without a dot no character is one. -/
theorem ne_dot_of_not_mem (noDot : '.' ∉ whole) :
    ∀ character ∈ whole, (character != '.') = true := by
  intro character listed
  rw [bne_iff_ne]
  rintro rfl
  exact noDot listed

/-- Digits are no dots. -/
theorem not_dot_of_isDigit {digits : List Char} (isDigit : ∀ digit ∈ digits, digit.isDigit = true) :
    '.' ∉ digits := by
  intro listed
  exact absurd (isDigit '.' listed) (by decide)

/-- What stands before the first dot has none. -/
theorem not_mem_before_dot (text : List Char) : '.' ∉ text.takeWhile (· != '.') := by
  intro listed
  have other := List.all_eq_true.mp List.all_takeWhile _ listed
  simp at other

/-- Without a dot there is nothing behind the part before the first one. -/
theorem split_of_no_dot (noDot : '.' ∉ text) :
    text.takeWhile (· != '.') = text ∧ text.dropWhile (· != '.') = [] := by
  have all := ne_dot_of_not_mem noDot
  have front := @List.takeWhile_append_of_pos _ _ _ [] all
  have back := @List.dropWhile_append_of_pos _ _ _ [] all
  rw [List.append_nil] at front back
  exact ⟨front.trans (List.append_nil text), back⟩

/-- The first dot parts a text in two. -/
theorem split_of_dot (noDot : '.' ∉ whole) :
    (whole ++ '.' :: rest).takeWhile (· != '.') = whole ∧
      (whole ++ '.' :: rest).dropWhile (· != '.') = '.' :: rest := by
  have all := ne_dot_of_not_mem noDot
  constructor
  · rw [List.takeWhile_append_of_pos all]
    simp
  · rw [List.dropWhile_append_of_pos all]
    simp

/-- A text without a dot has nothing behind a second one. -/
theorem beforeSecondDot_of_no_dot (noDot : '.' ∉ text) : beforeSecondDot text = text := by
  rw [beforeSecondDot, (split_of_no_dot noDot).2]

/-- A text with a dot goes as far as the next one. -/
theorem beforeSecondDot_of_dot (noDot : '.' ∉ whole) :
    beforeSecondDot (whole ++ '.' :: rest) = whole ++ '.' :: rest.takeWhile (· != '.') := by
  simp only [beforeSecondDot, (split_of_dot noDot).1, (split_of_dot noDot).2]

/-- Any text is cut before its second dot. -/
theorem endsBeforeSecondDot (text : List Char) :
    EndsBeforeSecondDot text (beforeSecondDot text) := by
  by_cases dot : '.' ∈ text
  · obtain ⟨whole, rest, rfl, noDot⟩ := List.eq_append_cons_of_mem dot
    have count : (whole ++ '.' :: rest.takeWhile (· != '.')).count '.' = 1 := by
      rw [List.count_append, List.count_cons_self, List.count_eq_zero_of_not_mem noDot,
        List.count_eq_zero_of_not_mem (not_mem_before_dot rest)]
    rw [beforeSecondDot_of_dot noDot]
    refine ⟨rest.dropWhile (· != '.'), ?_, ?_⟩
    · rw [List.append_assoc, List.cons_append, List.takeWhile_append_dropWhile]
    · cases behind : rest.dropWhile (· != '.') with
      | nil => exact .inr ⟨rfl, Nat.le_of_eq count⟩
      | cons second others =>
        have stopped := List.head?_dropWhile_not (· != '.') rest
        have isDot : second = '.' := by simpa [behind] using stopped
        exact .inl ⟨congrArg some isDot, count⟩
  · rw [beforeSecondDot_of_no_dot dot]
    refine ⟨[], (List.append_nil text).symm, .inr ⟨rfl, ?_⟩⟩
    rw [List.count_eq_zero_of_not_mem dot]
    exact Nat.zero_le 1

/-- The texts that are read are those with at least one digit, at most one dot, anywhere, and
nothing else; the value is what the digits spell over a power of ten. -/
theorem Double.ofDecimal?_eq_some_iff {value : Double} :
    Double.ofDecimal? text = some value ↔ ∃ whole fraction : List Char,
      (text = whole ++ '.' :: fraction ∨ text = whole ∧ fraction = []) ∧ whole ++ fraction ≠ [] ∧
      (∀ digit ∈ whole ++ fraction, digit.isDigit = true) ∧
      .ofRatio (digitsValue (whole ++ fraction)) (Nat.pow 10 fraction.length) = value := by
  have read (digits : List Char) (places : Nat) :
      (if !digits.isEmpty && digits.all Char.isDigit then
        some (Double.ofRatio (digitsValue digits) (Nat.pow 10 places)) else none) = some value ↔
      digits ≠ [] ∧ (∀ digit ∈ digits, digit.isDigit = true) ∧
        .ofRatio (digitsValue digits) (Nat.pow 10 places) = value := by
    rw [Option.ite_none_right_eq_some, Bool.and_eq_true, Bool.not_eq_true', List.all_eq_true,
      List.isEmpty_eq_false_iff, and_assoc, Option.some_inj]
  constructor
  · intro answered
    by_cases dot : '.' ∈ text
    · obtain ⟨whole, fraction, rfl, noDot⟩ := List.eq_append_cons_of_mem dot
      simp only [Double.ofDecimal?, split_of_dot noDot, List.drop_succ_cons, List.drop_zero,
        read] at answered
      exact ⟨whole, fraction, .inl rfl, answered⟩
    · simp only [Double.ofDecimal?, split_of_no_dot dot, List.drop_nil, read] at answered
      exact ⟨text, [], .inr ⟨rfl, rfl⟩, answered⟩
  · rintro ⟨whole, fraction, spelled, nonempty, isDigit, rfl⟩
    have noDot := not_dot_of_isDigit (List.forall_mem_append.mp isDigit).1
    rcases spelled with rfl | ⟨rfl, rfl⟩
    · simp only [Double.ofDecimal?, split_of_dot noDot, List.drop_succ_cons, List.drop_zero]
      exact (read _ _).mpr ⟨nonempty, isDigit, rfl⟩
    · simp only [Double.ofDecimal?, split_of_no_dot noDot, List.drop_nil]
      exact (read _ _).mpr ⟨nonempty, isDigit, rfl⟩

/-- Every decimal is read, as its digits over a power of ten. -/
theorem Spells.ofDecimal?_eq {digits : List Char} {places : Nat}
    (spells : Spells text digits places) :
    Double.ofDecimal? text = some (.ofRatio (digitsValue digits) (Nat.pow 10 places)) := by
  rw [Double.ofDecimal?_eq_some_iff]
  cases spells with
  | whole nonempty isDigit =>
    refine ⟨text, [], .inr ⟨rfl, rfl⟩, ?_⟩
    rw [List.append_nil]
    exact ⟨nonempty, isDigit, rfl⟩
  | @pointed whole fraction isDigit nonempty isDigitBehind =>
    exact ⟨whole, fraction, .inl rfl, List.append_ne_nil_of_right_ne_nil whole nonempty,
      List.forall_mem_append.mpr ⟨isDigit, isDigitBehind⟩, rfl⟩

end Dots

namespace Lexeme

variable {text run rest : List Char} {first : Char} {index length : Nat}

/-- A digit stands at the index. -/
def DigitAt (text : List Char) (index : Nat) : Prop := text[index]?.any Char.isDigit = true

/-- A digit stands at the index, or a dot directly before a digit. -/
def NumeralAt (text : List Char) (index : Nat) : Prop :=
  DigitAt text index ∨ text[index]? = some '.' ∧ DigitAt text (index + 1)

/-- Whether a digit stands at an index can be computed. -/
instance : Decidable (DigitAt text index) := inferInstanceAs (Decidable (_ = _))

/-- Whether a numeral stands at an index can be computed. -/
instance : Decidable (NumeralAt text index) := inferInstanceAs (Decidable (_ ∨ _))

/-- A digit stands at the start of a text that begins with one. -/
theorem digitAt_zero : DigitAt text 0 ↔ startsWithDigit text = true := by
  cases text with
  | nil => exact Iff.rfl
  | cons first rest => exact Iff.rfl

/-- A numeral stands at the start of a text that begins with a digit, or with a dot before one. -/
theorem numeralAt_zero :
    NumeralAt (first :: rest) 0 ↔
      (first.isDigit || (first == '.' && startsWithDigit rest)) = true := by
  have behind : DigitAt (first :: rest) 1 ↔ startsWithDigit rest = true := digitAt_zero
  simp only [NumeralAt, digitAt_zero, behind, startsWithDigit, List.getElem?_cons_zero,
    Option.some_inj, Bool.or_eq_true, Bool.and_eq_true, beq_iff_eq]

/-- Behind the first character a numeral stands where it does in the others. -/
theorem numeralAt_succ : NumeralAt (first :: rest) (index + 1) ↔ NumeralAt rest index := Iff.rfl

/-- The run begins with a digit if its text does. -/
theorem startsWithDigit_decimalRun (digit : startsWithDigit text = true) :
    startsWithDigit (decimalRun text) = true := by
  cases text with
  | nil => cases digit
  | cons first rest =>
    have isDigit : first.isDigit = true := digit
    simp [decimalRun, startsWithDigit, isDigit]

/-- The run is made of digits and of dots, and the digit behind a dot is in the run too. -/
theorem numeralAt_decimalRun (text : List Char) :
    ∀ index < (decimalRun text).length, NumeralAt (decimalRun text) index := by
  induction text with
  | nil =>
    intro index inside
    cases inside
  | cons first rest ih =>
    unfold decimalRun
    split
    · rename_i goes
      intro index inside
      cases index with
      | zero =>
        rw [numeralAt_zero]
        simp only [Bool.or_eq_true, Bool.and_eq_true] at goes ⊢
        exact goes.imp_right fun dot => ⟨dot.1, startsWithDigit_decimalRun dot.2⟩
      | succ index => exact numeralAt_succ.mpr (ih index (Nat.lt_of_succ_lt_succ inside))
    · intro index inside
      cases inside

/-- No longer front part of the text is made of digits and of dots that stand before a digit. -/
theorem le_length_decimalRun (numeral : ∀ index < length, NumeralAt text index) :
    length ≤ (decimalRun text).length := by
  induction text generalizing length with
  | nil =>
    cases length with
    | zero => exact Nat.le_refl 0
    | succ length => simpa [NumeralAt, DigitAt] using numeral 0 (Nat.succ_pos length)
  | cons first rest ih =>
    cases length with
    | zero => exact Nat.zero_le _
    | succ length =>
      have goes := numeralAt_zero.mp (numeral 0 (Nat.succ_pos length))
      have shorter := @ih length fun index inside =>
        numeralAt_succ.mp (numeral (index + 1) (Nat.succ_lt_succ inside))
      rw [decimalRun, if_pos goes, List.length_cons]
      exact Nat.succ_le_succ shorter

section Cut

variable (numeral : ∀ index < run.length, NumeralAt run index)
include numeral

/-- All of a run but its dots is digits. -/
theorem isDigit_of_numeral {part : List Char} (inside : ∀ character ∈ part, character ∈ run)
    (noDot : '.' ∉ part) : ∀ character ∈ part, character.isDigit = true := by
  intro character listed
  obtain ⟨index, bound, rfl⟩ := List.mem_iff_getElem.mp (inside character listed)
  have found := List.getElem?_eq_getElem bound
  rcases numeral index bound with digit | ⟨dot, _⟩
  · rw [DigitAt, found] at digit
    exact digit
  · rw [found] at dot
    exact absurd (Option.some.inj dot ▸ listed) noDot

/-- Behind every dot of a run stands a digit. -/
theorem startsWithDigit_of_numeral {whole : List Char} (parted : run = whole ++ '.' :: rest) :
    startsWithDigit rest = true := by
  have found : run[whole.length]? = some '.' := by simp [parted]
  rcases numeral whole.length (by simp [parted]) with digit | ⟨_, behind⟩
  · rw [DigitAt, found] at digit
    cases digit
  · have shifted : run[whole.length + 1]? = rest[0]? := by
      rw [parted, List.getElem?_append_right (Nat.le_add_right _ _), Nat.add_sub_cancel_left]
      rfl
    rw [DigitAt, shifted] at behind
    exact digitAt_zero.mp behind

/-- What stands before the second dot of a run is a decimal. The digits behind the first dot are not
missing, for one stands right behind it and is no dot. -/
theorem spells_beforeSecondDot (nonempty : run ≠ []) :
    ∃ digits places, Spells (beforeSecondDot run) digits places := by
  by_cases dot : '.' ∈ run
  · obtain ⟨whole, rest, parted, noDot⟩ := List.eq_append_cons_of_mem dot
    have front : ∀ digit ∈ whole, digit.isDigit = true := by
      refine isDigit_of_numeral numeral (fun character listed => ?_) noDot
      rw [parted]
      exact List.mem_append_left _ listed
    have back : ∀ digit ∈ rest.takeWhile (· != '.'), digit.isDigit = true := by
      refine isDigit_of_numeral numeral (fun character listed => ?_) (not_mem_before_dot rest)
      have kept := (List.takeWhile_sublist _).subset listed
      rw [parted]
      exact List.mem_append_right _ (List.mem_cons_of_mem _ kept)
    have present : rest.takeWhile (· != '.') ≠ [] := by
      have digit := startsWithDigit_of_numeral numeral parted
      cases rest with
      | nil => cases digit
      | cons second rest =>
        have other : second ≠ '.' := by
          rintro rfl
          cases digit
        simp [other]
    rw [parted, beforeSecondDot_of_dot noDot]
    exact ⟨_, _, .pointed front present back⟩
  · rw [beforeSecondDot_of_no_dot dot]
    exact ⟨run, 0, .whole nonempty (isDigit_of_numeral numeral (fun _ listed => listed) dot)⟩

end Cut

/-- The run is the decimal number at the beginning of the text, and has the value. -/
structure DecimalAt (text run : List Char) (value : Double) : Prop where
  /-- The text begins with the run. -/
  front : run <+: text
  /-- The run begins with a digit, or with a dot directly before a digit. -/
  starts : NumeralAt run 0
  /-- It is made of digits and of dots that stand directly before a digit of the run. -/
  numeral : ∀ index < run.length, NumeralAt run index
  /-- No longer front part of the text is made of digits and of dots that stand directly before a
  digit of the text. -/
  longest : ∀ length, (∀ index < length, NumeralAt text index) → length ≤ run.length
  /-- It is read up to its second dot. -/
  cut : EndsBeforeSecondDot run (beforeSecondDot run)
  /-- What is read is a decimal, and the value is its digits over a power of ten. -/
  spells : ∃ digits places, Spells (beforeSecondDot run) digits places ∧
    value = .ofRatio (digitsValue digits) (Nat.pow 10 places)
  /-- The value comes from reading, and not from the failure to read. -/
  reads : Double.ofDecimal? (beforeSecondDot run) = some value

/-- A text that begins with a digit, or with a dot directly before a digit, begins with a decimal
number. -/
theorem decimalAt_of_numeral (starts : NumeralAt text 0) :
    DecimalAt text (decimalRun text) (.ofDecimalRun (decimalRun text)) := by
  have numeral := numeralAt_decimalRun text
  have first : ∀ index < 1, NumeralAt text index := by
    intro index inside
    rw [Nat.lt_one_iff.mp inside]
    exact starts
  have positive : 0 < (decimalRun text).length := le_length_decimalRun first
  obtain ⟨digits, places, spells⟩ :=
    spells_beforeSecondDot numeral (List.ne_nil_of_length_pos positive)
  have reads := spells.ofDecimal?_eq
  have value : Double.ofDecimalRun (decimalRun text) =
      .ofRatio (digitsValue digits) (Nat.pow 10 places) := by
    rw [Double.ofDecimalRun, reads, Option.getD_some]
  exact {
    front := isPrefix_decimalRun text
    starts := numeral 0 positive
    numeral
    longest := fun _ => le_length_decimalRun
    cut := endsBeforeSecondDot _
    spells := ⟨digits, places, spells, value⟩
    reads := by rw [reads, value] }

/-- A digit is no letter. -/
theorem not_isWordStart_of_isDigit (digit : first.isDigit = true) : isWordStart first = false := by
  have before {letter : Char} (later : '9' < letter) : ¬ letter.val ≤ first.val := by
    simp only [Char.isDigit, Bool.and_eq_true, decide_eq_true_eq] at digit
    exact UInt32.not_le.mpr (UInt32.lt_of_le_of_lt digit.2 later)
  rw [Bool.eq_false_iff]
  intro word
  delta isWordStart Char.isAlpha Char.isUpper Char.isLower at word
  simp only [Bool.or_eq_true, Bool.and_eq_true, decide_eq_true_eq, beq_iff_eq] at word
  rcases word with (upper | lower) | rfl
  · exact before (by decide) upper.1
  · exact before (by decide) lower.1
  · cases digit

/-- A text that begins like a number, without the mark of a binary one, is scanned as a decimal. -/
theorem scan_of_numeral (starts : NumeralAt (first :: rest) 0)
    (unmarked : ¬ BinaryMarked (first :: rest)) : scan first rest = decimal (first :: rest) := by
  have begins := numeralAt_zero.mp starts
  have noWord : isWordStart first = false := by
    simp only [Bool.or_eq_true, Bool.and_eq_true, beq_iff_eq] at begins
    rcases begins with digit | ⟨rfl, _⟩
    · exact not_isWordStart_of_isDigit digit
    · decide
  rw [scan, noWord, if_neg Bool.false_ne_true, if_pos begins, number_of_unmarked unmarked]

/-- Nothing else is scanned as a number. -/
theorem numeralAt_of_scan {value : Double}
    (scanned : (scan first rest).outcome = .ok (.number value)) : NumeralAt (first :: rest) 0 := by
  unfold scan at scanned
  split at scanned
  · rcases word_kind scanned with ⟨_, ⟨⟩⟩ | ⟨_, ⟨⟩⟩ | ⟨_, ⟨⟩⟩
  split at scanned
  · rename_i begins
    exact numeralAt_zero.mpr begins
  split at scanned
  · obtain ⟨_, ⟨⟩⟩ := string_kind scanned
  split at scanned
  · cases scanned
  split at scanned
  · obtain ⟨_, ⟨⟩⟩ := blockComment_kind scanned
  unfold symbol at scanned
  split at scanned
  all_goals cases scanned

end Lexeme

namespace Lexer

open Lexeme (BinaryMarked DecimalAt NumeralAt)

variable {source : List Char} {lexer : Lexer} {token : Token} {value : Double}

/-- Every token that is answered to a request is the lexeme that stands there. -/
theorem StandsIn.serve_lexemeAt (stands : StandsIn source lexer) {request : Request}
    {tokens : List Token} (answered : (lexer.serve request).1 = .ok tokens) :
    ∀ token ∈ tokens, ∃ first rest, LexemeAt source token first rest := by
  cases request with
  | tokens => exact (scans_of_tokens answered).lexemeAt stands
  | next =>
    cases ahead : lexer.skipBlanks.rest with
    | nil =>
      rw [Lexer.serve, next_of_blank ahead] at answered
      cases answered
      exact List.forall_mem_nil _
    | cons first rest =>
      cases scanned : (Lexeme.scan first rest).outcome with
      | error fault =>
        rw [Lexer.serve, next_of_fault ahead scanned] at answered
        cases answered
      | ok kind =>
        rw [Lexer.serve, next_of_token ahead scanned] at answered
        simp only [Lexeme.extent, scanned] at answered
        cases answered
        exact List.forall_mem_singleton.mpr ⟨first, rest, stands.lexemeAt ahead scanned⟩

/-- However a lexer is used, every token that it answers is the lexeme that stands there. -/
theorem StandsIn.serveAll_lexemeAt (stands : StandsIn source lexer) {requests : List Request}
    {tokens : List Token} (answered : .ok tokens ∈ (lexer.serveAll requests).1) :
    ∀ token ∈ tokens, ∃ first rest, LexemeAt source token first rest := by
  induction requests generalizing lexer with
  | nil => cases answered
  | cons request requests ih =>
    rcases List.mem_cons.mp answered with now | later
    · exact stands.serve_lexemeAt now.symm
    · exact ih (stands.serve request).1 later

/-- A lexeme that is a number, without the mark of a binary one, is a decimal number. -/
theorem LexemeAt.decimalAt {first : Char} {rest : List Char}
    (lexeme : LexemeAt source token first rest) (number : token.kind = .number value)
    (unmarked : ¬ BinaryMarked (source.drop token.location.start)) :
    ∃ run, token.location.stop = token.location.start + run.length ∧
      DecimalAt (source.drop token.location.start) run value := by
  have scanned := lexeme.scanned
  have stop_eq := lexeme.stop_eq
  rw [number] at scanned
  rw [lexeme.ahead] at unmarked ⊢
  have starts := Lexeme.numeralAt_of_scan scanned
  rw [Lexeme.scan_of_numeral starts unmarked] at scanned stop_eq
  cases scanned
  exact ⟨_, stop_eq, Lexeme.decimalAt_of_numeral starts⟩

/-- Where the text behind the blanks begins like a number, without the mark of a binary one, a
decimal number is answered, and the lexer stops just behind its run. -/
theorem next_of_numeral (starts : NumeralAt lexer.skipBlanks.rest 0)
    (unmarked : ¬ BinaryMarked lexer.skipBlanks.rest) :
    ∃ run value, DecimalAt lexer.skipBlanks.rest run value ∧
      lexer.next = (.ok (some ⟨.number value, .ofPosition lexer.skipBlanks.position run.length⟩),
        lexer.skipBlanks.drop run.length) := by
  refine ⟨_, _, Lexeme.decimalAt_of_numeral starts, ?_⟩
  cases ahead : lexer.skipBlanks.rest with
  | nil => simp [ahead, NumeralAt, Lexeme.DigitAt] at starts
  | cons first rest =>
    rw [ahead] at starts unmarked
    have same := Lexeme.scan_of_numeral starts unmarked
    have scanned : (Lexeme.scan first rest).outcome =
        .ok (.number (.ofDecimalRun (Lexeme.decimalRun (first :: rest)))) := by
      rw [same]
      rfl
    rw [next_of_token ahead scanned, same]
    rfl

/-- Decimal numbers are always read. However a lexer for a source is used, faults included: every
number that it answers, if it does not stand behind the mark of a binary one, spans the longest run
of digits and of dots that each stand directly before a digit; the run begins with a digit or with
such a dot; what stands before its second dot is a decimal, and reading this decimal does not fail
and gives the value of the number. And wherever a lexer stands before a text that begins in this
way, without the mark of a binary number, it answers such a number and stops just behind it. -/
theorem decimal_of_requests (source : String) (requests : List Request) :
    (∀ tokens, .ok tokens ∈ ((ofSource source).serveAll requests).1 →
      ∀ token ∈ tokens, ∀ value, token.kind = .number value →
        ¬ BinaryMarked (source.toList.drop token.location.start) →
        ∃ run, token.location.stop = token.location.start + run.length ∧
          DecimalAt (source.toList.drop token.location.start) run value) ∧
      ∀ lexer : Lexer, NumeralAt lexer.skipBlanks.rest 0 → ¬ BinaryMarked lexer.skipBlanks.rest →
        ∃ run value, DecimalAt lexer.skipBlanks.rest run value ∧
          lexer.next =
            (.ok (some ⟨.number value, .ofPosition lexer.skipBlanks.position run.length⟩),
              lexer.skipBlanks.drop run.length) := by
  constructor
  · intro tokens answered token listed value number unmarked
    obtain ⟨first, rest, lexeme⟩ :=
      (StandsIn.ofSource source).serveAll_lexemeAt answered token listed
    exact lexeme.decimalAt number unmarked
  · intro lexer starts unmarked
    exact next_of_numeral starts unmarked

/-- The run `.1.5` begins with a dot and has two of them. Behind a name it is one number, read as
`.1`, and behind a blank too. -/
theorem decimal_of_requests_dots :
    let text := ['.', '1', '.', '5']
    let number : Token.Kind := .number (.ofDecimalRun text)
    ((ofSource "a.1.5").serveAll [.tokens]).1 =
        [.ok [⟨.identifier "a", ⟨0, 1, 1, 1⟩⟩, ⟨number, ⟨1, 5, 1, 2⟩⟩]] ∧
      DecimalAt text text (.ofDecimalRun text) ∧
      Double.ofDecimal? ['.', '1'] = some (.ofDecimalRun text) ∧
      ∃ run value, DecimalAt text run value ∧
        (next ⟨' ' :: text, {}⟩).1 = .ok (some ⟨.number value, ⟨1, 1 + run.length, 1, 2⟩⟩) := by
  intro text number
  have answered : ((ofSource "a.1.5").serveAll [.tokens]).1 =
      [.ok [⟨.identifier "a", ⟨0, 1, 1, 1⟩⟩, ⟨number, ⟨1, 5, 1, 2⟩⟩]] := by rfl
  obtain ⟨read, found⟩ := decimal_of_requests "a.1.5" [.tokens]
  obtain ⟨run, stop, decimal⟩ := read _ (by rw [answered]; exact List.mem_cons_self) _
    (List.mem_cons_of_mem _ List.mem_cons_self) _ rfl (by decide)
  have length : 1 + run.length = 1 + text.length := stop.symm
  obtain rfl : run = text := decimal.front.eq_of_length (Nat.add_left_cancel length)
  obtain ⟨other, value, alike, moved⟩ := found ⟨' ' :: text, {}⟩ (by decide) (by decide)
  exact ⟨answered, decimal, decimal.reads, other, value, alike, congrArg Prod.fst moved⟩

end Lexer

end Oreo
