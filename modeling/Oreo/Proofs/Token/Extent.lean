import Oreo.Token.Lexer

/-!
# The extent of a lexeme

How many characters a lexeme takes, and how many its location spans. The two differ for a
character that starts no token: it is pointed at and not taken. Whatever the scan finds, what
it spans is not empty and lies inside the text, and so does what it takes.

Each class of lexemes moves by a rule of its own; the bounds are proved class by class and
joined in the order in which `Lexeme.scan` asks for them.
-/

namespace Oreo.Lexeme

/-- The number of characters that the location of a lexeme, or of its fault, spans. -/
def extent (lexeme : Lexeme) : Nat :=
  match lexeme.outcome with
  | .ok _ => lexeme.length
  | .error fault => Lexer.faultLength fault lexeme.length

/-- What is taken and what is spanned lie inside a text of the given length, and what is
spanned is not empty. -/
structure Fits (lexeme : Lexeme) (available : Nat) : Prop where
  /-- No character behind the text is taken. -/
  length_le : lexeme.length ≤ available
  /-- Something is spanned. -/
  extent_pos : 0 < lexeme.extent
  /-- No character behind the text is spanned. -/
  extent_le : lexeme.extent ≤ available
  /-- What is taken is spanned. -/
  length_le_extent : lexeme.length ≤ lexeme.extent

/-- A lexeme that takes what it spans fits when it takes something, and not too much. -/
theorem fits_of_extent {lexeme : Lexeme} {available : Nat}
    (same : lexeme.extent = lexeme.length) (positive : 0 < lexeme.length)
    (bound : lexeme.length ≤ available) : lexeme.Fits available where
  length_le := bound
  extent_pos := by rw [same]; exact positive
  extent_le := by rw [same]; exact bound
  length_le_extent := Nat.le_of_eq same.symm

/-- A word takes at least its first letter. -/
theorem word_fits {first : Char} (rest : List Char) (starts : isWordStart first = true) :
    (word (first :: rest)).Fits (rest.length + 1) := by
  have part : isWordPart first = true := by
    simp only [isWordStart, isWordPart, Char.isAlphanum, Bool.or_eq_true] at starts ⊢
    rcases starts with letter | underscore
    · exact .inl (.inl letter)
    · exact .inr underscore
  have taken : (first :: rest).takeWhile isWordPart = first :: rest.takeWhile isWordPart := by
    rw [List.takeWhile_cons, if_pos part]
  apply fits_of_extent rfl
  · simp [word, taken]
  · simpa [word] using (List.takeWhile_prefix isWordPart (l := first :: rest)).length_le

/-- A run of digits and dots is a front part of its text. -/
theorem isPrefix_decimalRun (text : List Char) : decimalRun text <+: text := by
  induction text with
  | nil => exact List.prefix_rfl
  | cons first rest ih =>
    unfold decimalRun
    split
    · exact (List.prefix_cons_inj first).mpr ih
    · exact List.nil_prefix

/-- A decimal number takes at least its first digit or dot. -/
theorem decimal_fits {first : Char} {rest : List Char}
    (starts : (first.isDigit || (first == '.' && startsWithDigit rest)) = true) :
    (decimal (first :: rest)).Fits (rest.length + 1) := by
  have run : decimalRun (first :: rest) = first :: decimalRun rest := by
    rw [decimalRun, if_pos starts]
  apply fits_of_extent rfl
  · simp [decimal, run]
  · simpa [decimal] using (isPrefix_decimalRun (first :: rest)).length_le

/-- A binary number spans what it takes, whether its count of digits is zero or not. -/
theorem extent_binary (text : List Char) : (binary text).extent = (binary text).length := by
  simp only [extent, binary]
  by_cases none : digitCount (text.takeWhile isBinaryDigit) = 0
  · simp only [if_pos none, Lexer.faultLength]
  · simp only [if_neg none]

/-- A binary number takes its mark and the digits behind it. -/
theorem binary_fits (text : List Char) : (binary text).Fits (text.length + 2) := by
  have bound : (text.takeWhile isBinaryDigit).length ≤ text.length :=
    (List.takeWhile_prefix _).length_le
  apply fits_of_extent (extent_binary text)
  · dsimp only [binary]
    omega
  · dsimp only [binary]
    omega

/-- A number, binary or decimal, takes at least its first character. -/
theorem number_fits {first : Char} {rest : List Char}
    (starts : (first.isDigit || (first == '.' && startsWithDigit rest)) = true) :
    (number (first :: rest)).Fits (rest.length + 1) := by
  unfold number
  split
  · rename_i text same
    obtain ⟨_, rfl⟩ := List.cons.inj same
    exact binary_fits text
  · rename_i text same
    obtain ⟨_, rfl⟩ := List.cons.inj same
    exact binary_fits text
  · exact decimal_fits starts

/-- The body of a string is a front part of its text. -/
theorem length_stringBody_le (text : List Char) : (stringBody text).length ≤ text.length := by
  fun_induction stringBody text with
  | case1 => simp
  | case2 => simp
  | case3 => simp [StringBody.prepend]; omega
  | case4 => simp
  | case5 => simp [StringBody.prepend]; omega

/-- A string takes at least its quote, ended or not. -/
theorem string_fits (quote : Char) (text : List Char) :
    (string quote text).Fits (text.length + 1) := by
  have bound := length_stringBody_le text
  have same : (string quote text).extent = (string quote text).length := by
    unfold extent string
    dsimp only
    split
    · rfl
    · rename_i fault raised
      split at raised
      · contradiction
      · cases raised
        rfl
  apply fits_of_extent same
  · simp only [string]; omega
  · simp only [string]; omega

/-- A line comment takes its two slashes and no more than there is. -/
theorem lineComment_fits (text : List Char) : (lineComment text).Fits (text.length + 2) := by
  have bound : (text.takeWhile (· != '\n')).length ≤ text.length :=
    (List.takeWhile_prefix _).length_le
  apply fits_of_extent rfl
  · simp only [lineComment]; omega
  · simp only [lineComment]
    split <;> omega

/-- What closes block comments is a front part of the text. -/
theorem closeBlocks_le {depth length : Nat} {text : List Char}
    (closed : closeBlocks depth text = some length) : length ≤ text.length := by
  fun_induction closeBlocks depth text generalizing length with
  | case1 => contradiction
  | case2 => contradiction
  | case3 => cases closed; simp
  | case4 first second rest marker depth ih =>
    obtain ⟨inner, found, rfl⟩ := Option.map_eq_some_iff.mp closed
    have := ih found
    simp only [List.length_cons]; omega
  | case5 depth first second rest outer marker ih =>
    obtain ⟨inner, found, rfl⟩ := Option.map_eq_some_iff.mp closed
    have := ih found
    simp only [List.length_cons]; omega
  | case6 depth first second rest outer inner ih =>
    obtain ⟨inner, found, rfl⟩ := Option.map_eq_some_iff.mp closed
    have := ih found
    simp only [List.length_cons] at this ⊢; omega

/-- A block comment takes its opening marker, ended or not. -/
theorem blockComment_fits (text : List Char) : (blockComment text).Fits (text.length + 2) := by
  unfold blockComment
  split
  · rename_i length closed
    have := closeBlocks_le closed
    exact fits_of_extent rfl (by dsimp only; omega) (by dsimp only; omega)
  · exact fits_of_extent rfl (by dsimp only; omega) (by dsimp only; omega)

/-- A symbol takes one character or two. One that is no symbol is spanned and not taken. -/
theorem symbol_fits (first : Char) (rest : List Char) :
    (symbol first rest).Fits (rest.length + 1) := by
  unfold symbol
  split
  · exact fits_of_extent rfl (by simp) (by simp)
  · rename_i double
    cases rest with
    | nil => simp at double
    | cons second rest => exact fits_of_extent rfl (by simp) (by simp)
  · exact fits_of_extent rfl (by simp) (by simp)
  · exact ⟨by simp, by simp [extent, Lexer.faultLength], by simp [extent, Lexer.faultLength],
      by simp⟩

/-- Whatever is found at the beginning of a text fits into the text. -/
theorem scan_fits (first : Char) (rest : List Char) :
    (scan first rest).Fits (rest.length + 1) := by
  unfold scan
  split
  · rename_i starts
    exact word_fits rest starts
  split
  · rename_i starts
    exact number_fits starts
  split
  · exact string_fits first rest
  split
  · rename_i slashes
    cases rest with
    | nil => simp at slashes
    | cons second rest => exact lineComment_fits rest
  split
  · rename_i marker
    cases rest with
    | nil => simp at marker
    | cons second rest => exact blockComment_fits rest
  exact symbol_fits first rest

end Oreo.Lexeme
