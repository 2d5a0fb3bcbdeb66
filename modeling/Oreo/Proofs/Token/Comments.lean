import Oreo.Proofs.Token.Lines

/-!
# Block comments

A block comment is an opening marker, a body and a closing marker, and its body is made of other
comments and of characters at which no marker begins. `Lexeme.Commented` is this grammar. Markers
may overlap, as in `/*/` and `*/*`, so whether a character is one of the body depends on what stands
behind it; the grammar is told what follows a text.

The scanner has no such grammar. It reads markers from left to right and counts those that are
open. The two agree since a comment leaves the count as it was, whatever the count
(`Lexeme.closeBlocks_append`), and since what brings the count to its end is cut by the markers that
lower it into bodies, one for each open comment (`Lexeme.Closes`).
-/

namespace Oreo

namespace Lexeme

/-- The parts of the grammar of block comments. -/
inductive CommentPart where
  /-- A comment, from its opening to its closing marker. -/
  | comment
  /-- What stands between the two markers. -/
  | body
deriving DecidableEq, Repr

/-- The text is a comment, or the body of one, where the other text follows it. -/
inductive Commented : CommentPart → (text behind : List Char) → Prop
  /-- A body between its markers. -/
  | comment {body behind : List Char} (inside : Commented .body body ('*' :: '/' :: behind)) :
      Commented .comment ('/' :: '*' :: (body ++ ['*', '/'])) behind
  /-- Nothing. -/
  | empty {behind : List Char} : Commented .body [] behind
  /-- A comment and more of the body. -/
  | nested {inner others behind : List Char} (first : Commented .comment inner (others ++ behind))
      (more : Commented .body others behind) : Commented .body (inner ++ others) behind
  /-- A character at which no marker begins, and more of the body. -/
  | character {character : Char} {others behind : List Char}
      (noOpener : ¬ ['/', '*'] <+: character :: (others ++ behind))
      (noCloser : ¬ ['*', '/'] <+: character :: (others ++ behind))
      (more : Commented .body others behind) : Commented .body (character :: others) behind

variable {depth length : Nat} {text behind : List Char}

/-- A closer leaves one comment fewer open. -/
theorem closeBlocks_closer (rest : List Char) :
    closeBlocks (depth + 1) ('*' :: '/' :: rest) = (closeBlocks depth rest).map (2 + ·) := by
  simp [closeBlocks]

/-- An opener leaves one comment more open. -/
theorem closeBlocks_opener (rest : List Char) :
    closeBlocks depth ('/' :: '*' :: rest) = (closeBlocks (depth + 1) rest).map (2 + ·) := by
  simp [closeBlocks]

/-- A character at which no marker begins is passed. -/
theorem closeBlocks_character {character : Char} {rest : List Char}
    (noOpener : ¬ ['/', '*'] <+: character :: rest)
    (noCloser : ¬ ['*', '/'] <+: character :: rest) :
    closeBlocks depth (character :: rest) = (closeBlocks depth rest).map (1 + ·) := by
  cases rest with
  | nil => rfl
  | cons second rest =>
    have outer : ¬ (character = '*' ∧ second = '/') := by
      rintro ⟨rfl, rfl⟩
      exact noCloser (by simp)
    have inner : ¬ (character = '/' ∧ second = '*') := by
      rintro ⟨rfl, rfl⟩
      exact noOpener (by simp)
    rw [closeBlocks.eq_def]
    simp only [if_neg outer, if_neg inner]

/-- Characters passed one after the other are counted together. -/
theorem map_add_map (answer : Option Nat) (first second : Nat) :
    (answer.map (second + ·)).map (first + ·) = answer.map (first + second + ·) := by
  simp [Option.map_map, Function.comp_def, Nat.add_assoc]

/-- Comments and bodies are passed as a whole, however many comments are open. -/
theorem closeBlocks_append {part : CommentPart} (commented : Commented part text behind)
    (depth : Nat) :
    closeBlocks depth (text ++ behind) = (closeBlocks depth behind).map (text.length + ·) := by
  induction commented generalizing depth with
  | @comment body behind _ ih =>
    have shape : '/' :: '*' :: (body ++ ['*', '/']) ++ behind =
        '/' :: '*' :: (body ++ '*' :: '/' :: behind) := by simp
    have length : 2 + (body.length + 2) = ('/' :: '*' :: (body ++ ['*', '/'])).length := by
      simp
      omega
    rw [shape, closeBlocks_opener, ih, closeBlocks_closer, map_add_map, map_add_map, ← length,
      Nat.add_assoc]
  | empty => simp
  | nested _ _ firstPassed othersPassed =>
    rw [List.append_assoc, firstPassed, othersPassed, map_add_map, List.length_append]
  | character noOpener noCloser _ ih =>
    rw [List.cons_append, closeBlocks_character noOpener noCloser, ih, map_add_map,
      List.length_cons, Nat.add_comm 1]

/-- The first text closes one more than the given number of open comments: it is a body and a
closing marker for each of them. -/
inductive Closes : Nat → (front behind : List Char) → Prop
  /-- One comment is open. -/
  | last {body behind : List Char} (inside : Commented .body body ('*' :: '/' :: behind)) :
      Closes 0 (body ++ ['*', '/']) behind
  /-- Others are open around it. -/
  | next {depth : Nat} {body front behind : List Char}
      (inside : Commented .body body ('*' :: '/' :: (front ++ behind)))
      (outer : Closes depth front behind) :
      Closes (depth + 1) (body ++ '*' :: '/' :: front) behind

/-- A character at which no marker begins may be put before what closes comments. -/
theorem Closes.cons {front : List Char} {character : Char} (closes : Closes depth front behind)
    (noOpener : ¬ ['/', '*'] <+: character :: (front ++ behind))
    (noCloser : ¬ ['*', '/'] <+: character :: (front ++ behind)) :
    Closes depth (character :: front) behind := by
  cases closes with
  | @last body _ inside =>
    have shape : body ++ ['*', '/'] ++ behind = body ++ '*' :: '/' :: behind := by simp
    rw [shape] at noOpener noCloser
    exact .last (.character noOpener noCloser inside)
  | @next depth body front _ inside outer =>
    have shape : body ++ '*' :: '/' :: front ++ behind =
        body ++ '*' :: '/' :: (front ++ behind) := by simp
    rw [shape] at noOpener noCloser
    exact .next (.character noOpener noCloser inside) outer

/-- A comment may be put before what closes comments. -/
theorem Closes.comment {inner front : List Char} (closes : Closes depth front behind)
    (commented : Commented .comment inner (front ++ behind)) :
    Closes depth (inner ++ front) behind := by
  cases closes with
  | @last body _ inside =>
    have shape : body ++ ['*', '/'] ++ behind = body ++ '*' :: '/' :: behind := by simp
    rw [shape] at commented
    rw [← List.append_assoc]
    exact .last (.nested commented inside)
  | @next depth body front _ inside outer =>
    have shape : body ++ '*' :: '/' :: front ++ behind =
        body ++ '*' :: '/' :: (front ++ behind) := by simp
    rw [shape] at commented
    rw [← List.append_assoc]
    exact .next (.nested commented inside) outer

/-- What the scanner takes to close comments closes them. -/
theorem closes_of_closeBlocks (closed : closeBlocks depth text = some length) :
    ∃ front behind, text = front ++ behind ∧ front.length = length ∧
      Closes depth front behind := by
  fun_induction closeBlocks depth text generalizing length with
  | case1 => contradiction
  | case2 => contradiction
  | case3 first second rest marker =>
    obtain ⟨rfl, rfl⟩ := marker
    cases closed
    exact ⟨['*', '/'], rest, rfl, rfl, .last .empty⟩
  | case4 first second rest marker depth ih =>
    obtain ⟨rfl, rfl⟩ := marker
    obtain ⟨inner, found, rfl⟩ := Option.map_eq_some_iff.mp closed
    obtain ⟨front, behind, rfl, rfl, closes⟩ := ih found
    exact ⟨'*' :: '/' :: front, behind, rfl, by simp; omega, .next .empty closes⟩
  | case5 depth first second rest outer marker ih =>
    -- The innermost of the open comments was opened here, so it is a comment of its own.
    obtain ⟨rfl, rfl⟩ := marker
    obtain ⟨inner, found, rfl⟩ := Option.map_eq_some_iff.mp closed
    obtain ⟨front, behind, rfl, rfl, closes⟩ := ih found
    cases closes with
    | @next _ body front _ inside others =>
      refine ⟨'/' :: '*' :: (body ++ ['*', '/']) ++ front, behind, by simp, by simp; omega, ?_⟩
      exact others.comment (.comment inside)
  | case6 depth first second rest outer inner ih =>
    obtain ⟨taken, found, rfl⟩ := Option.map_eq_some_iff.mp closed
    obtain ⟨front, behind, same, rfl, closes⟩ := ih found
    have noOpener : ¬ ['/', '*'] <+: first :: (front ++ behind) := by
      rw [← same]
      simpa [eq_comm] using inner
    have noCloser : ¬ ['*', '/'] <+: first :: (front ++ behind) := by
      rw [← same]
      simpa [eq_comm] using outer
    exact ⟨first :: front, behind, by rw [same]; rfl, by simp [Nat.add_comm],
      closes.cons noOpener noCloser⟩

/-- Behind an opening marker, the scanner closes the comment exactly where a body ends. -/
theorem closeBlocks_eq_some_iff :
    closeBlocks 0 text = some length ↔
      ∃ body behind, text = body ++ '*' :: '/' :: behind ∧ length = body.length + 2 ∧
        Commented .body body ('*' :: '/' :: behind) := by
  constructor
  · intro closed
    obtain ⟨front, behind, rfl, rfl, closes⟩ := closes_of_closeBlocks closed
    cases closes with
    | @last body _ inside => exact ⟨body, behind, by simp, by simp, inside⟩
  · rintro ⟨body, behind, rfl, rfl, inside⟩
    rw [closeBlocks_append inside]
    rfl

/-- A text that begins with an opening marker begins with a comment exactly when the scanner finds
its end. -/
theorem comment_iff {front : List Char} :
    '/' :: '*' :: text = front ++ behind ∧ Commented .comment front behind ↔
      ∃ body, text = body ++ '*' :: '/' :: behind ∧ front = '/' :: '*' :: (body ++ ['*', '/']) ∧
        closeBlocks 0 text = some (body.length + 2) := by
  constructor
  · rintro ⟨same, commented⟩
    cases commented with
    | @comment body _ inside =>
      obtain rfl : text = body ++ '*' :: '/' :: behind := by simpa using same
      exact ⟨body, rfl, rfl, closeBlocks_eq_some_iff.mpr ⟨body, behind, rfl, rfl, inside⟩⟩
  · rintro ⟨body, rfl, rfl, closed⟩
    obtain ⟨other, rest, same, length, inside⟩ := closeBlocks_eq_some_iff.mp closed
    obtain ⟨rfl, rfl⟩ : body = other ∧ behind = rest := by
      obtain ⟨front, back⟩ := List.append_inj same (by omega)
      exact ⟨front, by simpa using back⟩
    exact ⟨by simp, .comment inside⟩

end Lexeme

namespace Lexer

open Lexeme (Commented closeBlocks)

variable {text : List Char}

/-- A text that begins with an opening marker is read as a block comment, closed or not. -/
theorem next_of_blockComment (text : List Char) (position : Position) :
    next ⟨'/' :: '*' :: text, position⟩ =
      match closeBlocks 0 text with
      | some length =>
        (.ok (some ⟨.blockComment (String.ofList (text.take (length - 2))),
          .ofPosition position (2 + length)⟩), drop ⟨'/' :: '*' :: text, position⟩ (2 + length))
      | none =>
        (.error ⟨.unterminatedComment, .ofPosition position (2 + text.length)⟩,
          drop ⟨'/' :: '*' :: text, position⟩ (2 + text.length)) := by
  have ahead : skipBlanks ⟨'/' :: '*' :: text, position⟩ = ⟨'/' :: '*' :: text, position⟩ :=
    skipBlanks_eq_self (by decide) rfl
  have scanned : Lexeme.scan '/' ('*' :: text) = Lexeme.blockComment text := rfl
  simp only [next, ahead, scanned, Lexeme.blockComment]
  cases closeBlocks 0 text with
  | none => rfl
  | some length => rfl

/-- A comment at the beginning of the text is the token, and what follows it is left. -/
theorem next_of_comment {front behind : List Char} (begins : '/' :: '*' :: text = front ++ behind)
    (commented : Commented .comment front behind) (position : Position) :
    next ⟨'/' :: '*' :: text, position⟩ =
      (.ok (some ⟨.blockComment (String.ofList ((front.drop 2).take (front.length - 4))),
        .ofPosition position front.length⟩), ⟨behind, position.advance front⟩) := by
  obtain ⟨body, rfl, rfl, closed⟩ := Lexeme.comment_iff.mp ⟨begins, commented⟩
  have length : 2 + (body.length + 2) = ('/' :: '*' :: (body ++ ['*', '/'])).length := by
    simp
    omega
  have moved : drop ⟨'/' :: '*' :: (body ++ '*' :: '/' :: behind), position⟩
      ('/' :: '*' :: (body ++ ['*', '/'])).length =
        ⟨behind, position.advance ('/' :: '*' :: (body ++ ['*', '/']))⟩ := by
    rw [begins]
    simp only [drop, List.drop_left, List.take_left]
  rw [next_of_blockComment, closed]
  simp only [length, moved]
  simp

/-- Without a comment at the beginning of the text, the text ends inside of one. -/
theorem next_of_no_comment
    (none : ¬ ∃ front behind, '/' :: '*' :: text = front ++ behind ∧
      Commented .comment front behind) (position : Position) :
    next ⟨'/' :: '*' :: text, position⟩ =
      (.error ⟨.unterminatedComment, .ofPosition position (text.length + 2)⟩,
        ⟨[], position.advance ('/' :: '*' :: text)⟩) := by
  have unclosed : closeBlocks 0 text = Option.none := by
    rw [Option.eq_none_iff_forall_ne_some]
    intro length closed
    obtain ⟨body, behind, rfl, _, inside⟩ := Lexeme.closeBlocks_eq_some_iff.mp closed
    exact none ⟨_, behind, by simp, .comment inside⟩
  have moved : drop ⟨'/' :: '*' :: text, position⟩ (text.length + 2) =
      ⟨[], position.advance ('/' :: '*' :: text)⟩ := by
    simp [drop]
  rw [next_of_blockComment, unclosed]
  simp only [Nat.add_comm 2, moved]

/-- Block comments are the texts of the nested grammar. From any position on, for any text that
begins with an opening marker: a block comment is read exactly when some front part of the text is a
comment. There is one such part at most. The token spans exactly this part, its value is the part
without its first and its last two characters, and the lexer stops just behind it. If there is none,
the fault is that of a comment that is not ended, from the marker to the end of the text, and
nothing is left to be read. -/
theorem next_of_marker (text : List Char) (position : Position) :
    ((∃ value location,
        (next ⟨'/' :: '*' :: text, position⟩).1 = .ok (some ⟨.blockComment value, location⟩)) ↔
      ∃ front behind, '/' :: '*' :: text = front ++ behind ∧ Commented .comment front behind) ∧
    (∀ front behind other rest,
      '/' :: '*' :: text = front ++ behind → Commented .comment front behind →
      '/' :: '*' :: text = other ++ rest → Commented .comment other rest → other = front) ∧
    (∀ front behind, '/' :: '*' :: text = front ++ behind → Commented .comment front behind →
      next ⟨'/' :: '*' :: text, position⟩ =
        (.ok (some ⟨.blockComment (String.ofList ((front.drop 2).take (front.length - 4))),
          .ofPosition position front.length⟩), ⟨behind, position.advance front⟩)) ∧
    ((¬ ∃ front behind, '/' :: '*' :: text = front ++ behind ∧ Commented .comment front behind) →
      next ⟨'/' :: '*' :: text, position⟩ =
        (.error ⟨.unterminatedComment, .ofPosition position (text.length + 2)⟩,
          ⟨[], position.advance ('/' :: '*' :: text)⟩)) := by
  refine ⟨⟨?_, ?_⟩, ?_, ?_, ?_⟩
  · rintro ⟨value, location, found⟩
    apply Classical.byContradiction
    intro none
    rw [next_of_no_comment none] at found
    cases found
  · rintro ⟨front, behind, begins, commented⟩
    rw [next_of_comment begins commented]
    exact ⟨_, _, rfl⟩
  · intro front behind other rest begins commented beginsToo commentedToo
    obtain ⟨body, _, rfl, closed⟩ := Lexeme.comment_iff.mp ⟨begins, commented⟩
    obtain ⟨second, _, rfl, closedToo⟩ := Lexeme.comment_iff.mp ⟨beginsToo, commentedToo⟩
    have length : second.length = body.length := by
      have same := Option.some.inj (closedToo.symm.trans closed)
      omega
    exact (List.append_inj (beginsToo.symm.trans begins) (by simp [length])).1
  · intro front behind begins commented
    exact next_of_comment begins commented position
  · intro none
    exact next_of_no_comment none position

/-- The markers of `/*/**/*/*` overlap; the comment in it ends before the last star. The text `/*/`
ends inside a comment, for the slash belongs to the opening marker only. -/
theorem next_of_marker_overlapping :
    Commented .comment ['/', '*', '/', '*', '*', '/', '*', '/'] ['*'] ∧
      next ⟨['/', '*', '/', '*', '*', '/', '*', '/', '*'], {}⟩ =
        (.ok (some ⟨.blockComment "/**/", ⟨0, 8, 1, 1⟩⟩), ⟨['*'], ⟨8, 1, 9⟩⟩) ∧
      next ⟨['/', '*', '/'], {}⟩ =
        (.error ⟨.unterminatedComment, ⟨0, 3, 1, 1⟩⟩, ⟨[], ⟨3, 1, 4⟩⟩) := by
  have inner : Commented .comment ['/', '*', '*', '/'] ['*', '/', '*'] := .comment .empty
  have outer : Commented .comment ['/', '*', '/', '*', '*', '/', '*', '/'] ['*'] :=
    .comment (.nested inner .empty)
  have unclosed : ¬ ∃ front behind, ['/', '*', '/'] = front ++ behind ∧
      Commented .comment front behind := by
    rintro ⟨front, behind, begins⟩
    obtain ⟨body, _, _, closed⟩ := Lexeme.comment_iff.mp begins
    cases closed
  exact ⟨outer, (next_of_marker _ {}).2.2.1 _ _ rfl outer,
    (next_of_marker ['/'] {}).2.2.2 unclosed⟩

end Lexer

end Oreo
