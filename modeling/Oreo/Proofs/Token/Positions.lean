import Oreo.Proofs.Token.Extent

/-!
# Lines and columns

A lexer keeps its line and column by moving them character by character. What they ought to be
is a function of the source and an offset alone: count the line feeds before the offset, and
the characters behind the last of them. `lineAt` and `columnAt` say so, and the invariant of a
lexer is that it stands at the position of its offset, with the rest of the source in front of
it (`Lexer.StandsIn`).

Every operation keeps the invariant, whether it finds a token, the end or a fault, and so does
every sequence of requests to one lexer. What is answered on the way is placed accordingly
(`Location.PlacedIn`).

The counters are words of 32 bits. They hold the line and the column of every offset below
`2 ^ 32 - 1`, and so those of every character of a source of fewer than `2 ^ 32` characters. Behind
the last character of such a source, a counter may have come back to zero.
-/

namespace Oreo

/-- The line of an offset: one more than the number of line feeds before it. -/
def lineAt (source : List Char) (offset : Nat) : Nat := 1 + (source.take offset).count '\n'

/-- The column of an offset: one more than the number of characters since the last line feed before
it. -/
def columnAt (source : List Char) (offset : Nat) : Nat :=
  1 + ((source.take offset).reverse.takeWhile (· != '\n')).length

section Counts

variable {source : List Char} {offset : Nat} {character : Char}

/-- The characters before an offset, and the one behind it. -/
theorem take_succ_of_getElem? (found : source[offset]? = some character) :
    source.take (offset + 1) = source.take offset ++ [character] := by
  rw [List.take_add_one, found, Option.toList_some]

/-- A line feed opens the next line. -/
theorem at_succ_of_lineFeed (found : source[offset]? = some '\n') :
    lineAt source (offset + 1) = lineAt source offset + 1 ∧ columnAt source (offset + 1) = 1 := by
  simp [lineAt, columnAt, take_succ_of_getElem? found, Nat.add_assoc]

/-- Any other character takes one column. -/
theorem at_succ_of_other (found : source[offset]? = some character) (other : character ≠ '\n') :
    lineAt source (offset + 1) = lineAt source offset ∧
      columnAt source (offset + 1) = columnAt source offset + 1 := by
  simp [lineAt, columnAt, take_succ_of_getElem? found, other, Nat.add_comm]

/-- Lines and columns grow no faster than offsets. -/
theorem lineAt_add_columnAt_le (inside : offset ≤ source.length) :
    lineAt source offset + columnAt source offset ≤ offset + 2 := by
  induction offset with
  | zero => simp [lineAt, columnAt]
  | succ offset ih =>
    have bound := ih (Nat.le_of_lt inside)
    have positive : 1 ≤ columnAt source offset := Nat.le_add_right _ _
    have found := List.getElem?_eq_getElem inside
    by_cases feed : source[offset] = '\n'
    · obtain ⟨line, column⟩ := at_succ_of_lineFeed (feed ▸ found)
      omega
    · obtain ⟨line, column⟩ := at_succ_of_other found feed
      omega

/-- Behind a character that is repeated and opens no line, the column is one more than the
repetitions. -/
theorem at_replicate (count : Nat) (other : character ≠ '\n') :
    lineAt (List.replicate count character) count = 1 ∧
      columnAt (List.replicate count character) count = count + 1 := by
  have whole : (List.replicate count character).take count = List.replicate count character :=
    List.take_of_length_le (Nat.le_of_eq List.length_replicate)
  have none : '\n' ∉ List.replicate count character :=
    fun found => other (List.eq_of_mem_replicate found).symm
  constructor
  · rw [lineAt, whole, List.count_eq_zero_of_not_mem none]
  · rw [columnAt, whole, List.reverse_replicate, List.takeWhile_replicate,
      if_pos (by simpa using other), List.length_replicate, Nat.add_comm]

/-- Words of 32 bits hold the line and the column of an offset below `2 ^ 32 - 1`. -/
theorem at_lt_size (inside : offset ≤ source.length) (small : offset + 1 < UInt32.size) :
    lineAt source offset < UInt32.size ∧ columnAt source offset < UInt32.size := by
  have bound := lineAt_add_columnAt_le inside
  have line : 1 ≤ lineAt source offset := Nat.le_add_right _ _
  have column : 1 ≤ columnAt source offset := Nat.le_add_right _ _
  omega

end Counts

namespace Position

/-- The position in front of the character at an offset, with its line and its column as words. -/
def ofOffset (source : List Char) (offset : Nat) : Position where
  offset := offset
  line := .ofNat (lineAt source offset)
  column := .ofNat (columnAt source offset)

/-- Before the first character the position is the initial one. -/
theorem ofOffset_zero (source : List Char) : ofOffset source 0 = {} := by
  simp [ofOffset, lineAt, columnAt]

/-- The position behind a character follows from the one in front of it. -/
theorem ofOffset_succ {source : List Char} {offset : Nat} {character : Char}
    (found : source[offset]? = some character) :
    ofOffset source (offset + 1) = (ofOffset source offset).next character := by
  by_cases feed : character = '\n'
  · subst feed
    obtain ⟨line, column⟩ := at_succ_of_lineFeed found
    rw [ofOffset, line, column, UInt32.ofNat_add]
    rfl
  · obtain ⟨line, column⟩ := at_succ_of_other found feed
    rw [ofOffset, line, column, UInt32.ofNat_add, next, if_neg feed]
    rfl

/-- Reading a run of the source moves to the position of the offset behind it. -/
theorem advance_ofOffset {source : List Char} {offset : Nat} (run rest : List Char)
    (ahead : source.drop offset = run ++ rest) :
    (ofOffset source offset).advance run = ofOffset source (offset + run.length) := by
  induction run generalizing offset with
  | nil => simp
  | cons character run ih =>
    have found : source[offset]? = some character := by
      rw [← List.head?_drop, ahead]
      rfl
    have behind : source.drop (offset + 1) = run ++ rest := by
      rw [← List.drop_drop, ahead]
      rfl
    rw [advance_cons, ← ofOffset_succ found, ih behind, List.length_cons]
    congr 1
    omega

/-- The line and the column are those of the offset, as numbers. -/
def Exact (source : List Char) (position : Position) : Prop :=
  position.line.toNat = lineAt source position.offset ∧
    position.column.toNat = columnAt source position.offset

/-- The words of a position are exact for an offset below `2 ^ 32 - 1`. -/
theorem exact_ofOffset {source : List Char} {offset : Nat} (inside : offset ≤ source.length)
    (small : offset + 1 < UInt32.size) : (ofOffset source offset).Exact source := by
  obtain ⟨line, column⟩ := at_lt_size inside small
  exact ⟨UInt32.toNat_ofNat_of_lt' line, UInt32.toNat_ofNat_of_lt' column⟩

end Position

namespace Location

/-- The point where a span starts. -/
def origin (location : Location) : Position :=
  ⟨location.start, location.line, location.column⟩

/-- A span that is not empty and lies in the source, at the position of its first character. -/
structure PlacedIn (source : List Char) (location : Location) : Prop where
  /-- The span is not empty. -/
  start_lt_stop : location.start < location.stop
  /-- The span ends inside the source. -/
  stop_le : location.stop ≤ source.length
  /-- It starts at the position of the first character. -/
  origin_eq : location.origin = .ofOffset source location.start

/-- The line and the column are those of the offset where the span starts, as numbers. -/
def Sited (source : List Char) (location : Location) : Prop := location.origin.Exact source

/-- In a source of fewer than `2 ^ 32` characters, spans tell the line and the column of their first
character. -/
theorem PlacedIn.sited {source : List Char} {location : Location}
    (placed : location.PlacedIn source) (short : source.length < UInt32.size) :
    location.Sited source := by
  have positive := placed.start_lt_stop
  have inside := placed.stop_le
  rw [Sited, placed.origin_eq]
  exact Position.exact_ofOffset (by omega) (by omega)

/-- A span from a position of the source on is placed in it, if it is neither empty nor too
long. -/
theorem placedIn_ofPosition {source : List Char} {offset length : Nat}
    (positive : 0 < length) (bound : offset + length ≤ source.length) :
    (Location.ofPosition (Position.ofOffset source offset) length).PlacedIn source where
  start_lt_stop := by simp only [ofPosition, Position.ofOffset]; omega
  stop_le := bound
  origin_eq := rfl

end Location

namespace Lexer

/-- The lexer stands at an offset of the source: the characters behind the offset are still to
be read, and its position is the one of the offset. -/
structure StandsIn (source : List Char) (lexer : Lexer) : Prop where
  /-- The offset lies in the source. -/
  offset_le : lexer.position.offset ≤ source.length
  /-- What is left to be read is what stands behind the offset. -/
  rest_eq : lexer.rest = source.drop lexer.position.offset
  /-- Line and column are those of the offset. -/
  position_eq : lexer.position = .ofOffset source lexer.position.offset

namespace StandsIn

variable {source : List Char} {lexer : Lexer}

/-- A lexer for a source begins at its beginning. -/
theorem ofSource (source : String) : StandsIn source.toList (Lexer.ofSource source) where
  offset_le := Nat.zero_le _
  rest_eq := rfl
  position_eq := (Position.ofOffset_zero source.toList).symm

/-- The characters left and the characters read make up the source. -/
theorem offset_add_length (stands : StandsIn source lexer) :
    lexer.position.offset + lexer.rest.length = source.length := by
  have inside := stands.offset_le
  rw [stands.rest_eq, List.length_drop]
  omega

/-- Moving past a front part of what is left keeps the invariant. -/
theorem move (stands : StandsIn source lexer) {run rest : List Char}
    (ahead : lexer.rest = run ++ rest) :
    StandsIn source { rest, position := lexer.position.advance run } := by
  have total := stands.offset_add_length
  have moved : (lexer.position.advance run).offset = lexer.position.offset + run.length :=
    Position.offset_advance lexer.position run
  rw [ahead, List.length_append] at total
  refine ⟨?_, ?_, ?_⟩
  · simp only [moved]
    omega
  · simp only [moved]
    rw [← List.drop_drop, ← stands.rest_eq, ahead, List.drop_left]
  · simp only [moved]
    rw [← Position.advance_ofOffset run rest (by rw [← stands.rest_eq, ahead]),
      ← stands.position_eq]

/-- Skipping blanks keeps the invariant. -/
theorem skipBlanks (stands : StandsIn source lexer) : StandsIn source lexer.skipBlanks :=
  stands.move List.takeWhile_append_dropWhile.symm

/-- Passing characters keeps the invariant. -/
theorem drop (stands : StandsIn source lexer) (count : Nat) :
    StandsIn source (lexer.drop count) :=
  stands.move (List.take_append_drop count lexer.rest).symm

end StandsIn

/-- A text that does not begin with a blank has none to be skipped. -/
theorem skipBlanks_eq_self {lexer : Lexer} {first : Char} {rest : List Char}
    (notBlank : Text.isBlank first = false) (ahead : lexer.rest = first :: rest) :
    lexer.skipBlanks = lexer := by
  obtain ⟨text, position⟩ := lexer
  obtain rfl : text = first :: rest := ahead
  simp [skipBlanks, notBlank]

/-- Only blanks are left: no token is found, and all is read. -/
theorem next_of_blank {lexer : Lexer} (blank : lexer.skipBlanks.rest = []) :
    lexer.next = (.ok none, lexer.skipBlanks) := by
  simp only [next, blank]

/-- A token stands behind the blanks: it is placed where it stands, and taken. -/
theorem next_of_token {lexer : Lexer} {first : Char} {rest : List Char} {kind : Token.Kind}
    (ahead : lexer.skipBlanks.rest = first :: rest)
    (scanned : (Lexeme.scan first rest).outcome = .ok kind) :
    lexer.next =
      (.ok (some ⟨kind, .ofPosition lexer.skipBlanks.position (Lexeme.scan first rest).extent⟩),
        lexer.skipBlanks.drop (Lexeme.scan first rest).length) := by
  simp only [next, ahead, Lexeme.extent, scanned]

/-- A fault stands behind the blanks: it is placed where it stands, and what it takes is
passed. -/
theorem next_of_fault {lexer : Lexer} {first : Char} {rest : List Char} {fault : ScanFault}
    (ahead : lexer.skipBlanks.rest = first :: rest)
    (scanned : (Lexeme.scan first rest).outcome = .error fault) :
    lexer.next =
      (.error ⟨fault, .ofPosition lexer.skipBlanks.position (Lexeme.scan first rest).extent⟩,
        lexer.skipBlanks.drop (Lexeme.scan first rest).length) := by
  simp only [next, ahead, Lexeme.extent, scanned]

namespace StandsIn

variable {source : List Char} {lexer : Lexer}

/-- Behind the blanks a lexeme is placed in the source. -/
theorem scan_placed (stands : StandsIn source lexer) {first : Char} {rest : List Char}
    (ahead : lexer.skipBlanks.rest = first :: rest) :
    (Location.ofPosition lexer.skipBlanks.position
      (Lexeme.scan first rest).extent).PlacedIn source := by
  have fits := Lexeme.scan_fits first rest
  have total := stands.skipBlanks.offset_add_length
  rw [ahead, List.length_cons] at total
  rw [stands.skipBlanks.position_eq]
  apply Location.placedIn_ofPosition fits.extent_pos
  have inside := fits.extent_le
  omega

/-- Reading one token keeps the invariant, whatever is found. -/
theorem next (stands : StandsIn source lexer) : StandsIn source lexer.next.2 := by
  cases ahead : lexer.skipBlanks.rest with
  | nil =>
    rw [next_of_blank ahead]
    exact stands.skipBlanks
  | cons first rest =>
    cases scanned : (Lexeme.scan first rest).outcome with
    | ok kind =>
      rw [next_of_token ahead scanned]
      exact stands.skipBlanks.drop _
    | error fault =>
      rw [next_of_fault ahead scanned]
      exact stands.skipBlanks.drop _

end StandsIn

/-- What a lexer can be asked for. -/
inductive Request where
  /-- The next token. -/
  | next
  /-- All tokens up to the end of the text. -/
  | tokens
deriving DecidableEq, Repr

/-- What a lexer answers to a request: tokens, or the fault that it met. -/
abbrev Answer : Type := Except ScanError (List Token)

/-- The places that an answer tells: those of its tokens, or the one of its fault. -/
def Answer.locations : Answer → List Location
  | .ok tokens => tokens.map Token.location
  | .error error => [error.location]

/-- Answers one request. The next token is a list of one, or of none at the end. -/
def serve (lexer : Lexer) : Request → Answer × Lexer
  | .next => (lexer.next.1.map Option.toList, lexer.next.2)
  | .tokens => lexer.tokens

/-- Answers requests in order. A lexer that has met a fault goes on from where it stands. -/
def serveAll (lexer : Lexer) : List Request → List Answer × Lexer
  | [] => ([], lexer)
  | request :: requests =>
    let (answer, lexer) := lexer.serve request
    let (answers, lexer) := lexer.serveAll requests
    (answer :: answers, lexer)

/-- All places that an answer tells are in the source. -/
def Answer.PlacedIn (source : List Char) (answer : Answer) : Prop :=
  ∀ location ∈ answer.locations, location.PlacedIn source

namespace StandsIn

variable {source : List Char} {lexer : Lexer}

/-- What one call of `Lexer.next` finds is placed in the source. -/
theorem next_placed (stands : StandsIn source lexer) :
    Answer.PlacedIn source (lexer.next.1.map Option.toList) := by
  intro location member
  cases ahead : lexer.skipBlanks.rest with
  | nil =>
    rw [next_of_blank ahead] at member
    simp [Except.map, Answer.locations] at member
  | cons first rest =>
    have placed := stands.scan_placed ahead
    cases scanned : (Lexeme.scan first rest).outcome with
    | ok kind =>
      rw [next_of_token ahead scanned] at member
      simp only [Except.map, Option.toList_some, Answer.locations, List.map_cons, List.map_nil,
        List.mem_singleton] at member
      rw [member]
      exact placed
    | error fault =>
      rw [next_of_fault ahead scanned] at member
      simp only [Except.map, Answer.locations, List.mem_singleton] at member
      rw [member]
      exact placed

/-- Collecting tokens keeps the invariant, and what is answered is placed in the source. -/
theorem collect (stands : StandsIn source lexer) (budget : Nat) :
    StandsIn source (lexer.collect budget).2 ∧
      Answer.PlacedIn source (lexer.collect budget).1 := by
  induction budget generalizing lexer with
  | zero => exact ⟨stands, by simp [Lexer.collect, Answer.PlacedIn, Answer.locations]⟩
  | succ budget ih =>
    have found := stands.next_placed
    have later := stands.next
    simp only [Lexer.collect]
    rcases one : lexer.next with ⟨error | token, moved⟩
    · rw [one] at found later
      exact ⟨later, found⟩
    · rw [one] at found later
      cases token with
      | none => exact ⟨later, by simp [Answer.PlacedIn, Answer.locations]⟩
      | some token =>
        obtain ⟨stopped, others⟩ := ih later
        simp only
        rcases all : moved.collect budget with ⟨error | tokens, last⟩
        · rw [all] at stopped others
          exact ⟨stopped, others⟩
        · rw [all] at stopped others
          refine ⟨stopped, ?_⟩
          intro location member
          rcases List.mem_cons.mp member with rfl | member
          · exact found _ (by simp [Except.map, Answer.locations])
          · exact others location member

/-- One request keeps the invariant, and its answer is placed in the source. -/
theorem serve (stands : StandsIn source lexer) (request : Request) :
    StandsIn source (lexer.serve request).2 ∧
      Answer.PlacedIn source (lexer.serve request).1 := by
  cases request with
  | next => exact ⟨stands.next, stands.next_placed⟩
  | tokens => exact stands.collect _

/-- Any number of requests keeps the invariant, and every answer is placed in the source. -/
theorem serveAll (stands : StandsIn source lexer) (requests : List Request) :
    StandsIn source (lexer.serveAll requests).2 ∧
      ∀ answer ∈ (lexer.serveAll requests).1, Answer.PlacedIn source answer := by
  induction requests generalizing lexer with
  | nil => exact ⟨stands, by simp [Lexer.serveAll]⟩
  | cons request requests ih =>
    obtain ⟨later, placed⟩ := stands.serve request
    obtain ⟨last, others⟩ := ih later
    refine ⟨last, ?_⟩
    intro answer member
    rcases List.mem_cons.mp member with rfl | member
    · exact placed
    · exact others answer member

end StandsIn

/-- What is answered for a whole source is placed in it. -/
theorem placed_of_tokenize {source : String} {answer : Answer}
    (answered : tokenize source = answer) : answer.PlacedIn source.toList :=
  answered ▸ ((StandsIn.ofSource source).serve .tokens).2

/-- However a lexer for a source is used, faults included: it stands at an offset of the source,
with the line and the column of that offset as words, which are the line and the column as numbers
for every offset below `2 ^ 32 - 1`. Every token and every fault that it answers spans at least one
character of the source, and if there are fewer than `2 ^ 32`, it tells the line and the column of
the first that it spans. -/
theorem position_of_requests (source : String) (requests : List Request) :
    let lexer := ((ofSource source).serveAll requests).2
    StandsIn source.toList lexer ∧
      (lexer.position.offset + 1 < UInt32.size → lexer.position.Exact source.toList) ∧
      ∀ answer ∈ ((ofSource source).serveAll requests).1, ∀ location ∈ answer.locations,
        location.start < location.stop ∧ location.stop ≤ source.toList.length ∧
          (source.toList.length < UInt32.size → location.Sited source.toList) := by
  intro lexer
  obtain ⟨stands, placed⟩ := (StandsIn.ofSource source).serveAll requests
  refine ⟨stands, ?_, ?_⟩
  · intro small
    have exact := Position.exact_ofOffset stands.offset_le small
    rwa [← stands.position_eq] at exact
  · intro answer answered location told
    have inside := placed answer answered location told
    exact ⟨inside.start_lt_stop, inside.stop_le, inside.sited⟩

/-- The quote in the second line is not ended. The fault is told at the second column of that line,
and the lexer stands behind the last character. -/
theorem position_of_requests_quote :
    let lexer := ((ofSource "a\n \"b").serveAll [.next, .next]).2
    lexer.position = ⟨5, 2, 4⟩ ∧ lexer.position.Exact "a\n \"b".toList ∧
      ∃ location : Location, location = ⟨3, 5, 2, 2⟩ ∧ location.Sited "a\n \"b".toList := by
  have general := position_of_requests "a\n \"b" [.next, .next]
  have stands : ((ofSource "a\n \"b").serveAll [.next, .next]).2.position = ⟨5, 2, 4⟩ := by rfl
  refine ⟨stands, general.2.1 ?_, _, rfl, ?_⟩
  · rw [stands]
    decide
  · refine (general.2.2 (.error ⟨.unterminatedString '"' "b", ⟨3, 5, 2, 2⟩⟩) ?_ _ ?_).2.2 ?_
    · exact List.mem_cons_of_mem _ (List.mem_singleton.mpr rfl)
    · exact List.mem_singleton.mpr rfl
    · decide

/-- A name of so many letters is read in one step. -/
theorem offset_behind_name (count : Nat) :
    (next ⟨'x' :: List.replicate count 'x', {}⟩).2.position.offset = count + 1 := by
  have skipped : skipBlanks ⟨'x' :: List.replicate count 'x', {}⟩ =
      ⟨'x' :: List.replicate count 'x', {}⟩ := skipBlanks_eq_self (by decide) rfl
  have scanned : Lexeme.scan 'x' (List.replicate count 'x') =
      Lexeme.word ('x' :: List.replicate count 'x') := if_pos (by decide)
  have taken : (Lexeme.word ('x' :: List.replicate count 'x')).length = count + 1 := by
    rw [Lexeme.word, ← List.replicate_succ, List.takeWhile_replicate, if_pos (by decide),
      List.length_replicate]
  have token : (Lexeme.scan 'x' (List.replicate count 'x')).outcome =
      .ok (Lexeme.wordKind (String.ofList
        (('x' :: List.replicate count 'x').takeWhile Lexeme.isWordPart))) := by
    rw [scanned]
    rfl
  rw [next_of_token (by rw [skipped]) token, skipped, scanned, taken, drop,
    Position.offset_advance, List.length_take, List.length_cons, List.length_replicate,
    Nat.min_self]
  exact Nat.zero_add _

/-- Behind a name of so many letters the column is one more than their number. -/
theorem position_of_name {count : Nat} (positive : 0 < count) :
    ((ofSource (String.ofList (List.replicate count 'x'))).serveAll [.next]).2.position =
      ⟨count, 1, .ofNat (count + 1)⟩ := by
  obtain ⟨more, rfl⟩ : ∃ more, count = more + 1 := ⟨count - 1, by omega⟩
  have there : ((ofSource (String.ofList (List.replicate (more + 1) 'x'))).serveAll
      [.next]).2.position.offset = more + 1 := by
    rw [ofSource, String.toList_ofList, List.replicate_succ]
    exact offset_behind_name more
  have stands := ((StandsIn.ofSource (String.ofList (List.replicate (more + 1) 'x'))).serveAll
    [.next]).1
  obtain ⟨line, column⟩ := at_replicate (more + 1) (show 'x' ≠ '\n' by decide)
  rw [stands.position_eq, there, String.toList_ofList, Position.ofOffset, line, column]
  rfl

/-- Behind a name of so many letters that the column comes back to zero, it is not the column. -/
theorem not_exact_behind_name {count : Nat} (positive : 0 < count)
    (wrapped : UInt32.ofNat (count + 1) = 0) :
    ((ofSource (String.ofList (List.replicate count 'x'))).serveAll [.next]).2.position =
        ⟨count, 1, 0⟩ ∧
      ¬ ((ofSource (String.ofList (List.replicate count 'x'))).serveAll
        [.next]).2.position.Exact (List.replicate count 'x') := by
  have position := position_of_name positive
  have column := (at_replicate count (show 'x' ≠ '\n' by decide)).2
  rw [wrapped] at position
  refine ⟨position, ?_⟩
  rw [position]
  rintro ⟨-, exact⟩
  rw [column] at exact
  cases exact

/-- A name of `2 ^ 32 - 1` letters leaves the column at zero, where it ought to be `2 ^ 32`. -/
theorem column_behind_long_name :
    let text := List.replicate (UInt32.size - 1) 'x'
    text.length < UInt32.size ∧ columnAt text (UInt32.size - 1) = UInt32.size ∧
      ((ofSource (String.ofList text)).serveAll [.next]).2.position = ⟨UInt32.size - 1, 1, 0⟩ ∧
      ¬ ((ofSource (String.ofList text)).serveAll [.next]).2.position.Exact text := by
  have positive : 0 < UInt32.size - 1 := by decide
  have wrapped : UInt32.ofNat (UInt32.size - 1 + 1) = 0 := by decide
  refine ⟨?_, (at_replicate (UInt32.size - 1) (by decide)).2,
    not_exact_behind_name positive wrapped⟩
  rw [List.length_replicate]
  decide

end Lexer

end Oreo
