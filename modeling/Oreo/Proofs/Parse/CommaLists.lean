import Oreo.Proofs.Parse.Failure

/-!
# Lists between commas

Arrays, objects, arguments and parameters are lists of items between commas, up to the mark that
closes their bracket. `Parser.delimited` reads them all, with a parser for the items as a parameter.
It accepts exactly the lists that are well separated: no items at all, or items with one comma
between each two and none elsewhere.

What a well separated list is, is said by `Parser.Series`, without the loop that reads it: the
tokens are cut into pieces, each piece is what the item takes where it stands, and a comma stands
between each two. One round of the loop passes one piece, and what it does then depends on the token
behind it (`Parser.behindItem`). What a whole run does follows by induction on the pieces, both for
a list that is closed behind its last item and for one with a comma out of place.
-/

namespace Oreo

namespace Parser

variable {α : Type}

/-- Whatever the parser reads takes at least one token from the front. -/
def Moves (parser : Parser α) (scope : Scope) : Prop :=
  ∀ tokens value rest, parser.Yields scope tokens value rest →
    ∃ piece, piece ≠ [] ∧ tokens = piece ++ rest

/-- The piece is an item of a list, in front of the tokens behind it: it starts neither with a comma
nor with the mark that closes the list, and the item takes it and no more. -/
structure IsItem (item : Parser α) (scope : Scope) (bracket : Bracket) (piece : List Token)
    (value : α) (behind : List Token) : Prop where
  /-- The item does not begin with a comma. -/
  noComma : startsWith .comma piece = false
  /-- The item does not begin with the closer. -/
  noCloser : startsWith bracket.closer piece = false
  /-- The item is read, and what is behind it is left. -/
  taken : item.Yields scope (piece ++ behind) value behind

/-- The pieces are one or more items with one comma between each two, in front of the tokens behind
them. -/
inductive Series (item : Parser α) (scope : Scope) (bracket : Bracket) :
    List Token → List α → List Token → Prop where
  /-- One item. -/
  | one {piece behind : List Token} {value : α}
      (first : item.IsItem scope bracket piece value behind) :
      Series item scope bracket piece [value] behind
  /-- An item, a comma, and further items. -/
  | next {piece pieces behind : List Token} {comma : Token} {value : α} {values : List α}
      (first : item.IsItem scope bracket piece value (comma :: (pieces ++ behind)))
      (commaKind : comma.kind = .punctuation .comma)
      (others : Series item scope bracket pieces values behind) :
      Series item scope bracket (piece ++ comma :: pieces) (value :: values) behind

/-- What follows an item: a comma and further items, or the mark that closes the list. -/
def behindItem (bracket : Bracket) (context : Construct) (opened : Location) (item : Parser α)
    (budget : Nat) (first : α) : Parser (List α × Location) := do
  match ← eat .comma with
  | some comma =>
    if ← sees bracket.closer then fail (.unexpectedToken context (some ",")) comma
    else
      let (others, closed) ← separated bracket context opened item budget
      return (first :: others, closed)
  | none => return ([first], ← expectClosing bracket context opened)

variable {item : Parser α} {scope : Scope} {bracket : Bracket} {context : Construct}
  {opened place : Location} {token comma : Token} {tokens pieces piece behind rest : List Token}
  {value : α} {values : List α} {budget : Nat} {error : ParseError}

/-- A round reads an item, unless it starts with a comma. -/
theorem separated_eq (noComma : startsWith .comma (token :: tokens) = false) :
    separated bracket context opened item (budget + 1) scope (token :: tokens) =
      (item >>= behindItem bracket context opened item budget) scope (token :: tokens) := by
  change (if startsWith .comma (token :: tokens) = true then
    fail (.unexpectedToken context (some ",")) token.location
      else item >>= behindItem bracket context opened item budget : Parser _) scope
        (token :: tokens) = _
  rw [noComma, if_neg Bool.false_ne_true]

/-- What an item takes of the tokens is a piece of the list. -/
theorem Moves.isItem (moves : item.Moves scope) (noComma : startsWith .comma tokens = false)
    (noCloser : startsWith bracket.closer tokens = false)
    (read : item.Yields scope tokens value rest) :
    ∃ piece, tokens = piece ++ rest ∧ item.IsItem scope bracket piece value rest := by
  obtain ⟨piece, some, rfl⟩ := moves tokens value rest read
  obtain ⟨first, others, rfl⟩ := List.exists_cons_of_ne_nil some
  exact ⟨first :: others, rfl, noComma, noCloser, read⟩

namespace IsItem

variable (isItem : item.IsItem scope bracket piece value behind) (moves : item.Moves scope)
include isItem moves

/-- An item is not empty. -/
theorem exists_cons : ∃ first others, piece = first :: others := by
  obtain ⟨taken, some, whole⟩ := moves _ _ _ isItem.taken
  rw [List.append_cancel_right whole]
  exact List.exists_cons_of_ne_nil some

/-- A list that begins with an item does not begin with the mark that closes it. -/
theorem startsWith_closer : startsWith bracket.closer (piece ++ behind) = false := by
  obtain ⟨first, others, rfl⟩ := isItem.exists_cons moves
  exact isItem.noCloser

/-- A round goes on behind the item. -/
theorem separated_eq : separated bracket context opened item (budget + 1) scope (piece ++ behind) =
    (item >>= behindItem bracket context opened item budget) scope (piece ++ behind) := by
  obtain ⟨first, others, rfl⟩ := isItem.exists_cons moves
  exact Parser.separated_eq isItem.noComma

/-- Behind an item that was read the list succeeds as what follows the item does. -/
theorem yields_iff {values : List α} :
    (separated bracket context opened item (budget + 1)).Yields scope (piece ++ behind)
        (values, place) rest ↔
      (behindItem bracket context opened item budget value).Yields scope behind (values, place)
        rest := by
  rw [Yields, isItem.separated_eq moves]
  exact isItem.taken.bind_iff

/-- Behind an item that was read the list fails as what follows the item does. -/
theorem fails_iff :
    (separated bracket context opened item (budget + 1)).Fails scope (piece ++ behind) error ↔
      (behindItem bracket context opened item budget value).Fails scope behind error := by
  rw [Fails, isItem.separated_eq moves]
  exact isItem.taken.fails_iff

end IsItem

/-- Behind a comma, the further items are read. -/
theorem yields_behindItem_of_next (commaKind : comma.kind = .punctuation .comma)
    (noCloser : startsWith bracket.closer tokens = false)
    (others : (separated bracket context opened item budget).Yields scope tokens (values, place)
      rest) :
    (behindItem bracket context opened item budget value).Yields scope (comma :: tokens)
      (value :: values, place) rest := by
  rw [behindItem, yields_eat_present commaKind]
  simp only [yields_sees_bind, noCloser, Bool.false_eq_true, ↓reduceIte]
  exact others.bind_iff.mpr (yields_pure.mpr ⟨rfl, rfl⟩)

/-- Behind a comma, an error of the further items is the error of all. -/
theorem fails_behindItem_of_next (commaKind : comma.kind = .punctuation .comma)
    (noCloser : startsWith bracket.closer tokens = false)
    (others : (separated bracket context opened item budget).Fails scope tokens error) :
    (behindItem bracket context opened item budget value).Fails scope (comma :: tokens) error := by
  refine fails_eat_bind.mpr (.inl ⟨comma, tokens, rfl, commaKind, ?_⟩)
  simp only [fails_sees_bind, noCloser, Bool.false_eq_true, ↓reduceIte]
  exact fails_bind.mpr (.inl others)

/-- A comma before the mark that closes the list is out of place. -/
theorem fails_behindItem_of_trailing (commaKind : comma.kind = .punctuation .comma)
    (closer : startsWith bracket.closer tokens = true) :
    (behindItem bracket context opened item budget value).Fails scope (comma :: tokens)
      ⟨.unexpectedToken context (some ","), comma.location⟩ := by
  refine fails_eat_bind.mpr (.inl ⟨comma, tokens, rfl, commaKind, ?_⟩)
  simp [closer]

/-- The mark that closes the list ends it. -/
theorem yields_behindItem_of_closer (closedKind : token.kind = .punctuation bracket.closer) :
    (behindItem bracket context opened item budget value).Yields scope (token :: tokens)
      ([value], token.location) tokens := by
  have noComma : startsWith .comma (token :: tokens) = false := by
    simp [closedKind, bracket.closer_ne_comma]
  rw [behindItem, yields_eat_absent noComma, yields_expectClosing_bind closedKind]
  exact yields_pure.mpr ⟨rfl, rfl⟩

/-- No item begins with a comma. -/
theorem fails_separated_of_comma (commaKind : comma.kind = .punctuation .comma) :
    (separated bracket context opened item (budget + 1)).Fails scope (comma :: tokens)
      ⟨.unexpectedToken context (some ","), comma.location⟩ := by
  simp [separated, commaKind]

namespace Series

variable (series : Series item scope bracket pieces values behind) (moves : item.Moves scope)
include series moves

/-- Items do not begin with the mark that closes their list. -/
theorem startsWith_closer : startsWith bracket.closer (pieces ++ behind) = false := by
  cases series with
  | one first => exact first.startsWith_closer moves
  | next first commaKind others =>
    rw [List.append_assoc]
    exact first.startsWith_closer moves

/-- A run comes behind the last item, with rounds left for all that stands there. What is done there
is done by all of it: items that are read there follow those of the run, and an error that is found
there ends it. -/
theorem run (context : Construct) (opened : Location)
    (enough : (pieces ++ behind).length ≤ budget) :
    ∃ front last fewer, values = front ++ [last] ∧ behind.length ≤ fewer ∧
      (∀ others place rest,
        (behindItem bracket context opened item fewer last).Yields scope behind (others, place)
          rest →
        (separated bracket context opened item budget).Yields scope (pieces ++ behind)
          (front ++ others, place) rest) ∧
      ∀ error,
        (behindItem bracket context opened item fewer last).Fails scope behind error →
        (separated bracket context opened item budget).Fails scope (pieces ++ behind) error := by
  induction series generalizing budget with
  | @one piece behind value first =>
    obtain ⟨_, _, rfl⟩ := first.exists_cons moves
    simp only [List.length_append, List.length_cons] at enough
    obtain ⟨fewer, rfl⟩ : ∃ fewer, budget = fewer + 1 := ⟨budget - 1, by omega⟩
    refine ⟨[], value, fewer, rfl, by omega, ?_, ?_⟩
    · exact fun _ _ _ closes => (first.yields_iff moves).mpr closes
    · exact fun _ wrong => (first.fails_iff moves).mpr wrong
  | @next piece pieces behind comma value values first commaKind others ih =>
    have noCloser := others.startsWith_closer moves
    obtain ⟨_, _, rfl⟩ := first.exists_cons moves
    simp only [List.length_append, List.length_cons] at enough
    obtain ⟨later, rfl⟩ : ∃ later, budget = later + 1 := ⟨budget - 1, by omega⟩
    have fits : (pieces ++ behind).length ≤ later := by
      rw [List.length_append]
      omega
    obtain ⟨front, last, fewer, rfl, room, reads, fails⟩ := ih fits
    rw [List.append_assoc]
    refine ⟨value :: front, last, fewer, rfl, room, ?_, ?_⟩
    · intro values place rest closes
      exact (first.yields_iff moves).mpr
        (yields_behindItem_of_next commaKind noCloser (reads _ _ _ closes))
    · intro error wrong
      exact (first.fails_iff moves).mpr
        (fails_behindItem_of_next commaKind noCloser (fails _ wrong))

/-- Items with the mark behind them that closes their list are read. -/
theorem yields {closed : Token} (ends : behind = closed :: rest)
    (closedKind : closed.kind = .punctuation bracket.closer) :
    (delimited bracket context opened item).Yields scope (pieces ++ behind)
      (values, closed.location) rest := by
  have ahead := series.startsWith_closer moves
  obtain ⟨front, last, fewer, rfl, _, reads, _⟩ := series.run moves context opened (Nat.le_refl _)
  rw [delimited, yields_eat_absent ahead, yields_left_bind]
  apply reads
  rw [ends]
  exact yields_behindItem_of_closer closedKind

/-- An error that is found behind the last item ends the list. -/
theorem fails (wrong : ∀ budget last, behind.length ≤ budget →
      (behindItem bracket context opened item budget last).Fails scope behind error) :
    (delimited bracket context opened item).Fails scope (pieces ++ behind) error := by
  have ahead := series.startsWith_closer moves
  obtain ⟨front, last, fewer, rfl, room, _, fails⟩ :=
    series.run moves context opened (Nat.le_refl _)
  exact fails_eat_bind.mpr (.inr ⟨ahead, fails error (wrong fewer last room)⟩)

end Series

/-- What is read between commas is a series of items, closed behind the last of them. -/
theorem series_of_yields (moves : item.Moves scope)
    (noCloser : startsWith bracket.closer tokens = false)
    (found : (separated bracket context opened item budget).Yields scope tokens (values, place)
      rest) :
    ∃ pieces closed, closed.kind = .punctuation bracket.closer ∧ place = closed.location ∧
      tokens = pieces ++ closed :: rest ∧
      Series item scope bracket pieces values (closed :: rest) := by
  induction budget generalizing tokens values with
  | zero => exact absurd found not_yields_fail
  | succ budget ih =>
    cases tokens with
    | nil => simp [separated] at found
    | cons token tokens =>
      have noComma : startsWith .comma (token :: tokens) = false := by
        cases ahead : startsWith .comma (token :: tokens) with
        | false => rfl
        | true =>
          have fails : (separated bracket context opened item (budget + 1)).Fails scope
              (token :: tokens) ⟨.unexpectedToken context (some ","), token.location⟩ :=
            fails_separated_of_comma (by simpa using ahead)
          exact absurd fails found.not_fails
      rw [Yields, separated_eq noComma] at found
      obtain ⟨value, middle, read, found⟩ := yields_bind.mp found
      obtain ⟨piece, whole, isItem⟩ := moves.isItem noComma noCloser read
      rw [whole]
      rcases yields_eat_bind.mp found with ⟨comma, later, rfl, commaKind, found⟩ | ⟨_, found⟩
      · simp only [yields_sees_bind, yields_ite, not_yields_fail, and_false, false_or] at found
        obtain ⟨more, found⟩ := found
        obtain ⟨⟨others, last⟩, left, follow, found⟩ := yields_bind.mp found
        obtain ⟨same, rfl⟩ := yields_pure.mp found
        cases same
        obtain ⟨pieces, closed, closedKind, rfl, rfl, series⟩ := ih (by simpa using more) follow
        refine ⟨piece ++ comma :: pieces, closed, closedKind, rfl, ?_,
          .next isItem commaKind series⟩
        rw [List.append_assoc, List.cons_append]
      · obtain ⟨closed, left, follow, found⟩ := yields_bind.mp found
        obtain ⟨same, rfl⟩ := yields_pure.mp found
        cases same
        obtain ⟨mark, rfl, markKind, rfl⟩ := yields_expectClosing.mp follow
        exact ⟨piece, mark, markKind, rfl, rfl, .one isItem⟩

/-- A comma list is accepted exactly when it is well separated. For each bracket, context and place
where it was opened, and for each parser of items that moves forward: a list is read if and only if
the tokens begin with the mark that closes it, and then it has no items, or with a series of items
and that mark behind them. The values are those of the items, in order, the place is the one of the
mark, and the tokens behind the mark are left. A comma is reported at its own place if it comes
first, if it is the second of two, or if it stands before the mark. -/
theorem delimited_iff_series (bracket : Bracket) (context : Construct) (opened : Location)
    (scope : Scope) (tokens : List Token) {item : Parser α} (moves : item.Moves scope) :
    (∀ values place rest,
      (delimited bracket context opened item).Yields scope tokens (values, place) rest ↔
        ∃ closed, closed.kind = .punctuation bracket.closer ∧ place = closed.location ∧
          ((values = [] ∧ tokens = closed :: rest) ∨
            ∃ pieces, tokens = pieces ++ closed :: rest ∧
              Series item scope bracket pieces values (closed :: rest))) ∧
      (∀ comma rest, comma.kind = .punctuation .comma → tokens = comma :: rest →
        (delimited bracket context opened item).Fails scope tokens
          ⟨.unexpectedToken context (some ","), comma.location⟩) ∧
      (∀ pieces values first second rest, first.kind = .punctuation .comma →
        second.kind = .punctuation .comma → tokens = pieces ++ first :: second :: rest →
        Series item scope bracket pieces values (first :: second :: rest) →
        (delimited bracket context opened item).Fails scope tokens
          ⟨.unexpectedToken context (some ","), second.location⟩) ∧
      ∀ pieces values comma closed rest, comma.kind = .punctuation .comma →
        closed.kind = .punctuation bracket.closer → tokens = pieces ++ comma :: closed :: rest →
        Series item scope bracket pieces values (comma :: closed :: rest) →
        (delimited bracket context opened item).Fails scope tokens
          ⟨.unexpectedToken context (some ","), comma.location⟩ := by
  refine ⟨?_, ?_, ?_, ?_⟩
  · intro values place rest
    constructor
    · intro found
      rcases yields_eat_bind.mp found with ⟨closed, later, rfl, closedKind, found⟩ | ⟨ahead, found⟩
      · obtain ⟨same, rfl⟩ := yields_pure.mp found
        cases same
        exact ⟨closed, closedKind, rfl, .inl ⟨rfl, rfl⟩⟩
      · obtain ⟨pieces, closed, closedKind, rfl, rfl, series⟩ := series_of_yields moves ahead found
        exact ⟨closed, closedKind, rfl, .inr ⟨pieces, rfl, series⟩⟩
    · rintro ⟨closed, closedKind, rfl, ⟨rfl, rfl⟩ | ⟨pieces, rfl, series⟩⟩
      · exact (yields_eat_present closedKind).mpr (yields_pure.mpr ⟨rfl, rfl⟩)
      · exact series.yields moves rfl closedKind
  · rintro comma rest commaKind rfl
    have ahead : startsWith bracket.closer (comma :: rest) = false := by
      simp [commaKind, bracket.closer_ne_comma.symm]
    exact fails_eat_bind.mpr (.inr ⟨ahead, fails_separated_of_comma commaKind⟩)
  · rintro pieces values first second rest firstKind secondKind rfl series
    have noCloser : startsWith bracket.closer (second :: rest) = false := by
      simp [secondKind, bracket.closer_ne_comma.symm]
    refine series.fails moves fun budget last room => ?_
    obtain ⟨fewer, rfl⟩ : ∃ fewer, budget = fewer + 1 := by
      simp only [List.length_cons] at room
      exact ⟨budget - 1, by omega⟩
    exact fails_behindItem_of_next firstKind noCloser (fails_separated_of_comma secondKind)
  · rintro pieces values comma closed rest commaKind closedKind rfl series
    refine series.fails moves fun budget last _ => ?_
    exact fails_behindItem_of_trailing commaKind (by simp [closedKind])

/-- A name moves forward. -/
theorem moves_expectIdentifier (context : Construct) (scope : Scope) :
    (expectIdentifier context).Moves scope := by
  intro tokens name rest read
  obtain ⟨rfl, _⟩ := yields_expectIdentifier.mp read
  exact ⟨[name], List.cons_ne_nil name [], rfl⟩

/-- Two parameters are read from `a, b)`, and in `a,, b)` the second comma is reported. -/
theorem delimited_iff_series_parameters :
    let scope : Scope := ⟨8, 8, none⟩
    let parser := delimited .paren .parameters ⟨2, 3, 1, 3⟩ (expectIdentifier .parameters)
    let a : Token := ⟨.identifier "a", ⟨3, 4, 1, 4⟩⟩
    let comma : Token := ⟨.punctuation .comma, ⟨4, 5, 1, 5⟩⟩
    let second : Token := ⟨.punctuation .comma, ⟨5, 6, 1, 6⟩⟩
    let b : Token := ⟨.identifier "b", ⟨7, 8, 1, 8⟩⟩
    let closed : Token := ⟨.punctuation .closeParen, ⟨8, 9, 1, 9⟩⟩
    parser.Yields scope [a, comma, b, closed] ([a, b], ⟨8, 9, 1, 9⟩) [] ∧
      parser.Fails scope [a, comma, second, b, closed]
        ⟨.unexpectedToken .parameters (some ","), ⟨5, 6, 1, 6⟩⟩ := by
  intro scope parser a comma second b closed
  have moves : (expectIdentifier .parameters).Moves scope :=
    moves_expectIdentifier .parameters scope
  have isItem (name : Token) (behind : List Token) (named : name.isIdentifier = true)
      (noComma : startsWith .comma [name] = false)
      (noCloser : startsWith .closeParen [name] = false) :
      (expectIdentifier .parameters).IsItem scope .paren [name] name behind :=
    ⟨noComma, noCloser, yields_expectIdentifier.mpr ⟨rfl, named⟩⟩
  constructor
  · refine ((delimited_iff_series .paren .parameters ⟨2, 3, 1, 3⟩ scope
      [a, comma, b, closed] moves).1 [a, b] ⟨8, 9, 1, 9⟩ []).mpr
        ⟨closed, rfl, rfl, .inr ⟨[a, comma, b], rfl, ?_⟩⟩
    have others : Series _ scope .paren [b] [b] [closed] := .one (isItem b _ rfl rfl rfl)
    exact .next (isItem a _ rfl rfl rfl) rfl others
  · exact (delimited_iff_series .paren .parameters ⟨2, 3, 1, 3⟩ scope
      [a, comma, second, b, closed] moves).2.2.1 [a] [a] comma second [b, closed] rfl rfl rfl
        (.one (isItem a _ rfl rfl rfl))

end Parser

end Oreo
