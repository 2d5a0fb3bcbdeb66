import Oreo.Proofs.Token.Positions

/-!
# Reading a text token by token

`Lexer.tokens` reads with a budget that is larger than the number of characters. A token takes at
least one character, so the budget never runs out and no answer depends on it: reading all tokens
is reading one and then the others. `Lexer.Scans` says the same as a relation, which is what
properties of all tokens of a text are shown by induction on.
-/

namespace Oreo.Lexer

variable {lexer : Lexer} {first : Char} {rest : List Char} {kind : Token.Kind} {fault : ScanFault}

/-- The blanks that are skipped are followed by a character that is not blank. -/
theorem not_blank_of_ahead (ahead : lexer.skipBlanks.rest = first :: rest) :
    Text.isBlank first = false := by
  have stopped := List.head?_dropWhile_not Text.isBlank lexer.rest
  change (lexer.rest.dropWhile Text.isBlank) = first :: rest at ahead
  simpa [ahead] using stopped

/-- The lexer behind the lexeme that stands behind the blanks. -/
def past (lexer : Lexer) (first : Char) (rest : List Char) : Lexer :=
  lexer.skipBlanks.drop (Lexeme.scan first rest).length

/-- Behind a token fewer characters are left. -/
theorem length_past_lt (ahead : lexer.skipBlanks.rest = first :: rest)
    (scanned : (Lexeme.scan first rest).outcome = .ok kind) :
    (lexer.past first rest).rest.length < lexer.rest.length := by
  have positive := (Lexeme.scan_fits first rest).extent_pos
  simp only [Lexeme.extent, scanned] at positive
  have shorter : lexer.skipBlanks.rest.length ≤ lexer.rest.length :=
    (List.dropWhile_suffix _).length_le
  simp only [past, drop, List.length_drop]
  rw [ahead, List.length_cons] at *
  omega

/-- Any two budgets that are larger than the number of characters give the same answer. -/
theorem collect_eq_of_enough {budget other : Nat} (enough : lexer.rest.length < budget)
    (alsoEnough : lexer.rest.length < other) :
    lexer.collect budget = lexer.collect other := by
  induction budget generalizing lexer other with
  | zero => omega
  | succ budget ih =>
    obtain ⟨other, rfl⟩ : ∃ fewer, other = fewer + 1 := ⟨other - 1, by omega⟩
    simp only [collect]
    cases ahead : lexer.skipBlanks.rest with
    | nil => rw [next_of_blank ahead]
    | cons first rest =>
      cases scanned : (Lexeme.scan first rest).outcome with
      | error fault => rw [next_of_fault ahead scanned]
      | ok kind =>
        have fewer := length_past_lt ahead scanned
        unfold past at fewer
        rw [next_of_token ahead scanned]
        have same := @ih (lexer.skipBlanks.drop (Lexeme.scan first rest).length) other (by omega)
          (by omega)
        simp only [same]

/-- Where only blanks are left there are no tokens. -/
theorem tokens_of_blank (blank : lexer.skipBlanks.rest = []) : lexer.tokens.1 = .ok [] := by
  simp only [tokens, collect, next_of_blank blank]

/-- A fault behind the blanks is the answer. -/
theorem tokens_of_fault (ahead : lexer.skipBlanks.rest = first :: rest)
    (scanned : (Lexeme.scan first rest).outcome = .error fault) :
    lexer.tokens.1 =
      .error ⟨fault, .ofPosition lexer.skipBlanks.position (Lexeme.scan first rest).extent⟩ := by
  simp only [tokens, collect, next_of_fault ahead scanned]

/-- A token behind the blanks is the first, and the others are read behind it. -/
theorem tokens_of_token (ahead : lexer.skipBlanks.rest = first :: rest)
    (scanned : (Lexeme.scan first rest).outcome = .ok kind) :
    lexer.tokens.1 = (lexer.past first rest).tokens.1.map
      (⟨kind, .ofPosition lexer.skipBlanks.position (Lexeme.scan first rest).length⟩ :: ·) := by
  have fewer := length_past_lt ahead scanned
  have others : (lexer.past first rest).collect lexer.rest.length =
      (lexer.past first rest).tokens := collect_eq_of_enough fewer (Nat.lt_succ_self _)
  have one : lexer.next = (.ok (some ⟨kind, .ofPosition lexer.skipBlanks.position
      (Lexeme.scan first rest).length⟩), lexer.past first rest) := by
    rw [next_of_token ahead scanned, past]
    simp only [Lexeme.extent, scanned]
  rw [tokens, collect, one]
  simp only [others]
  rcases (lexer.past first rest).tokens with ⟨error | tokens, last⟩
  · rfl
  · rfl

/-- What is answered depends on the text behind the blanks only. -/
theorem tokens_congr {other : Lexer} (same : lexer.skipBlanks = other.skipBlanks) :
    lexer.tokens.1 = other.tokens.1 := by
  cases ahead : other.skipBlanks.rest with
  | nil => rw [tokens_of_blank ahead, tokens_of_blank (same ▸ ahead)]
  | cons first rest =>
    cases scanned : (Lexeme.scan first rest).outcome with
    | error fault =>
      rw [tokens_of_fault ahead scanned, tokens_of_fault (same ▸ ahead) scanned, same]
    | ok kind =>
      rw [tokens_of_token ahead scanned, tokens_of_token (same ▸ ahead) scanned, past, past, same]

/-- The tokens are those of the whole text, from where the lexer stands. -/
inductive Scans : Lexer → List Token → Prop
  /-- There is nothing but blank characters. -/
  | done {lexer : Lexer} (blank : lexer.skipBlanks.rest = []) : Scans lexer []
  /-- The next lexeme is a token, and the others follow it. -/
  | token {lexer : Lexer} {first : Char} {rest : List Char} {kind : Token.Kind}
      {tokens : List Token} (ahead : lexer.skipBlanks.rest = first :: rest)
      (scanned : (Lexeme.scan first rest).outcome = .ok kind)
      (others : Scans (lexer.past first rest) tokens) :
      Scans lexer
        (⟨kind, .ofPosition lexer.skipBlanks.position (Lexeme.scan first rest).length⟩ :: tokens)

/-- A lexer that answers with tokens has scanned the whole text. -/
theorem scans_of_tokens {tokens : List Token} (answered : lexer.tokens.1 = .ok tokens) :
    Scans lexer tokens := by
  induction size : lexer.rest.length using Nat.strongRecOn generalizing lexer tokens with
  | ind size ih =>
    cases ahead : lexer.skipBlanks.rest with
    | nil =>
      rw [tokens_of_blank ahead] at answered
      cases answered
      exact .done ahead
    | cons first rest =>
      cases scanned : (Lexeme.scan first rest).outcome with
      | error fault =>
        rw [tokens_of_fault ahead scanned] at answered
        cases answered
      | ok kind =>
        rw [tokens_of_token ahead scanned] at answered
        have fewer := length_past_lt ahead scanned
        cases found : (lexer.past first rest).tokens.1 with
        | error error =>
          rw [found] at answered
          cases answered
        | ok others =>
          rw [found] at answered
          cases answered
          exact .token ahead scanned (ih _ (by omega) found rfl)

end Oreo.Lexer
