import Oreo.Proofs.Token.Positions

/-!
# Tokens tile the source

The tokens of a source stand one behind the other, each spans at least one character, and
between them there is nothing but blanks. `Tiles` says so from an offset on, token by token, the
way a lexer finds them; what it says about all tokens at once follows by going through the list.
-/

namespace Oreo

/-- From the given offset on, the source consists of the spans of the tokens, in order, and of
blanks. -/
def Tiles (source : List Char) : Nat → List Token → Prop
  | offset, [] => ∀ character ∈ source.drop offset, Text.isBlank character = true
  | offset, token :: tokens =>
    offset ≤ token.location.start ∧ token.location.start < token.location.stop ∧
      token.location.stop ≤ source.length ∧
      (∀ character ∈ (source.drop offset).take (token.location.start - offset),
        Text.isBlank character = true) ∧
      Tiles source token.location.stop tokens

/-- The first token comes before all others, which begin behind its end. -/
def Token.Before (first second : Token) : Prop := first.location.stop ≤ second.location.start

/-- Spans that are not empty and stand one behind the other. -/
structure Ascending (tokens : List Token) : Prop where
  /-- No token is empty. -/
  start_lt_stop : ∀ token ∈ tokens, token.location.start < token.location.stop
  /-- Each token begins behind the end of every earlier one. -/
  pairwise : tokens.Pairwise Token.Before

namespace Tiles

variable {source : List Char} {offset : Nat} {tokens : List Token}

/-- Every token begins behind the offset, spans something, and ends inside the source. -/
theorem bounds (tiles : Tiles source offset tokens) :
    ∀ token ∈ tokens, offset ≤ token.location.start ∧
      token.location.start < token.location.stop ∧ token.location.stop ≤ source.length := by
  induction tokens generalizing offset with
  | nil => simp
  | cons token tokens ih =>
    obtain ⟨behind, positive, inside, _, others⟩ := tiles
    intro other member
    rcases List.mem_cons.mp member with rfl | member
    · exact ⟨behind, positive, inside⟩
    · obtain ⟨later, bounds⟩ := ih others other member
      exact ⟨by omega, bounds⟩

/-- Tokens that tile a source stand one behind the other. -/
theorem pairwise_before (tiles : Tiles source offset tokens) :
    tokens.Pairwise Token.Before := by
  induction tokens generalizing offset with
  | nil => exact .nil
  | cons token tokens ih =>
    obtain ⟨_, _, _, _, others⟩ := tiles
    refine .cons ?_ (ih others)
    intro other member
    exact (others.bounds other member).1

/-- Tokens that tile a source are ascending. -/
theorem ascending (tiles : Tiles source offset tokens) : Ascending tokens where
  start_lt_stop token member := (tiles.bounds token member).2.1
  pairwise := tiles.pairwise_before

/-- A character behind the offset that no token spans is blank. -/
theorem blank_of_uncovered (tiles : Tiles source offset tokens) {index : Nat} {character : Char}
    (behind : offset ≤ index) (found : source[index]? = some character)
    (uncovered : ∀ token ∈ tokens,
      ¬ (token.location.start ≤ index ∧ index < token.location.stop)) :
    Text.isBlank character = true := by
  have position : (source.drop offset)[index - offset]? = some character := by
    rw [List.getElem?_drop, Nat.add_sub_cancel' behind]
    exact found
  induction tokens generalizing offset with
  | nil => exact tiles character (List.mem_of_getElem? position)
  | cons token tokens ih =>
    obtain ⟨_, _, _, gap, others⟩ := tiles
    have outside := uncovered token List.mem_cons_self
    by_cases before : index < token.location.start
    · apply gap character
      apply List.mem_of_getElem? (i := index - offset)
      rw [List.getElem?_take, if_pos (by omega)]
      exact position
    · have past : token.location.stop ≤ index := by omega
      apply ih others past
      · intro other member
        exact uncovered other (List.mem_cons_of_mem token member)
      · rw [List.getElem?_drop, Nat.add_sub_cancel' past]
        exact found

end Tiles

namespace Lexer

variable {source : List Char} {lexer : Lexer}

/-- Skipping blanks passes blanks only. -/
theorem skipBlanks_blank (stands : StandsIn source lexer) :
    ∀ character ∈ (source.drop lexer.position.offset).take
      (lexer.skipBlanks.position.offset - lexer.position.offset),
      Text.isBlank character = true := by
  have moved : lexer.skipBlanks.position.offset - lexer.position.offset =
      (lexer.rest.takeWhile Text.isBlank).length := by
    simp only [skipBlanks, Position.offset_advance]
    omega
  intro character member
  rw [moved, ← stands.rest_eq, ← List.prefix_iff_eq_take.mp (List.takeWhile_prefix _)] at member
  exact List.all_eq_true.mp List.all_takeWhile character member

/-- Tokens that are collected to the end of the text tile it, from where the lexer stands. -/
theorem collect_tiles {budget : Nat} {tokens : List Token} (stands : StandsIn source lexer)
    (enough : lexer.rest.length < budget)
    (collected : (lexer.collect budget).1 = .ok tokens) :
    Tiles source lexer.position.offset tokens := by
  induction budget generalizing lexer tokens with
  | zero => omega
  | succ budget ih =>
    have blank := skipBlanks_blank stands
    have shorter := stands.skipBlanks.offset_add_length
    have total := stands.offset_add_length
    have behind : lexer.position.offset ≤ lexer.skipBlanks.position.offset := by
      simp only [skipBlanks, Position.offset_advance]
      omega
    simp only [collect] at collected
    cases ahead : lexer.skipBlanks.rest with
    | nil =>
      rw [next_of_blank ahead] at collected
      cases collected
      rw [ahead, List.length_nil] at shorter
      rw [List.take_of_length_le (by rw [List.length_drop]; omega)] at blank
      exact blank
    | cons first rest =>
      rw [ahead, List.length_cons] at shorter
      have fits := Lexeme.scan_fits first rest
      cases scanned : (Lexeme.scan first rest).outcome with
      | error fault =>
        rw [next_of_fault ahead scanned] at collected
        cases collected
      | ok kind =>
        have same : (Lexeme.scan first rest).extent = (Lexeme.scan first rest).length := by
          simp only [Lexeme.extent, scanned]
        have positive := fits.extent_pos
        have bound := fits.extent_le
        rw [next_of_token ahead scanned] at collected
        simp only at collected
        have later := stands.skipBlanks.drop (Lexeme.scan first rest).length
        have offset : (lexer.skipBlanks.drop (Lexeme.scan first rest).length).position.offset =
            lexer.skipBlanks.position.offset + (Lexeme.scan first rest).extent := by
          simp only [drop, Position.offset_advance, List.length_take, ahead, List.length_cons]
          omega
        have left := later.offset_add_length
        rcases all : (lexer.skipBlanks.drop (Lexeme.scan first rest).length).collect budget
          with ⟨error | others, last⟩
        · rw [all] at collected
          cases collected
        · rw [all] at collected
          cases collected
          have tiles := ih later (by omega) (by rw [all])
          rw [offset] at tiles
          simp only [Tiles, Location.ofPosition]
          exact ⟨behind, by omega, by omega, blank, tiles⟩

end Lexer

/-- The tokens of a source tile it from its beginning. -/
theorem tiles_of_tokenize {source : String} {tokens : List Token}
    (scanned : tokenize source = .ok tokens) : Tiles source.toList 0 tokens :=
  Lexer.collect_tiles (Lexer.StandsIn.ofSource source) (Nat.lt_succ_self _) scanned

/-- Every token of a source spans at least one of its characters, tokens stand one behind the
other, and a character that no token spans is blank. -/
theorem tokenize_tiles {source : String} {tokens : List Token}
    (scanned : tokenize source = .ok tokens) :
    (∀ token ∈ tokens, token.location.start < token.location.stop ∧
        token.location.stop ≤ source.toList.length) ∧
      (∀ (index : Nat) (first second : Token), tokens[index]? = some first →
        tokens[index + 1]? = some second → first.location.stop ≤ second.location.start) ∧
      ∀ (index : Nat) (character : Char), source.toList[index]? = some character →
        (∀ token ∈ tokens, ¬ (token.location.start ≤ index ∧ index < token.location.stop)) →
          Text.isBlank character = true := by
  have tiles := tiles_of_tokenize scanned
  refine ⟨?_, ?_, ?_⟩
  · intro token member
    exact (tiles.bounds token member).2
  · intro index first second earlier later
    obtain ⟨firstInside, rfl⟩ := List.getElem?_eq_some_iff.mp earlier
    obtain ⟨secondInside, rfl⟩ := List.getElem?_eq_some_iff.mp later
    exact List.pairwise_iff_getElem.mp tiles.pairwise_before index (index + 1) firstInside
      secondInside (Nat.lt_succ_self index)
  · intro index character found uncovered
    exact tiles.blank_of_uncovered (Nat.zero_le index) found uncovered

/-- The line feed between a name and a comment is in neither span, and blank. -/
theorem tokenize_tiles_line_feed :
    tokenize "x\n/*y*/" =
      .ok [⟨.identifier "x", ⟨0, 1, 1, 1⟩⟩, ⟨.blockComment "y", ⟨2, 7, 2, 1⟩⟩] ∧
      Text.isBlank '\n' = true := by
  have scanned : tokenize "x\n/*y*/" =
      .ok [⟨.identifier "x", ⟨0, 1, 1, 1⟩⟩, ⟨.blockComment "y", ⟨2, 7, 2, 1⟩⟩] := by rfl
  exact ⟨scanned, (tokenize_tiles scanned).2.2 1 '\n' (by rfl) (by decide)⟩

end Oreo
