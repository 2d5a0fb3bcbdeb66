/-!
# Places in a source text

A `Position` is a point between two characters, given both as an offset and as a line and
column; reading a character moves it. A `Location` is a span of characters together with the
line and column of its first one. Offsets and columns count characters, lines and columns
start at one. Lines and columns are counted in words of 32 bits, so that a count of `2 ^ 32`
starts again at zero.
-/

namespace Oreo

/-- A point in a text: how many characters stand before it, and its line and column. -/
structure Position where
  /-- The number of characters before the point. -/
  offset : Nat := 0
  /-- The line, counted from one. -/
  line : UInt32 := 1
  /-- The column, counted from one. -/
  column : UInt32 := 1
deriving DecidableEq, Repr

namespace Position

/-- The point behind one more character: a line feed opens the next line. -/
def next (position : Position) (character : Char) : Position :=
  if character = '\n' then
    { offset := position.offset + 1, line := position.line + 1, column := 1 }
  else
    { offset := position.offset + 1, line := position.line, column := position.column + 1 }

/-- The point behind a run of characters. -/
def advance (position : Position) (characters : List Char) : Position :=
  characters.foldl next position

/-- Reading no characters stays at the place. -/
@[simp] theorem advance_nil (position : Position) : position.advance [] = position := rfl

/-- Reading a text is reading its first character and then the others. -/
@[simp] theorem advance_cons (position : Position) (character : Char) (rest : List Char) :
    position.advance (character :: rest) = (position.next character).advance rest := rfl

/-- Two texts one behind the other are read one after the other. -/
theorem advance_append (position : Position) (front back : List Char) :
    position.advance (front ++ back) = (position.advance front).advance back := by
  simp [advance]

/-- One character is one place of the text. -/
theorem offset_next (position : Position) (character : Char) :
    (position.next character).offset = position.offset + 1 := by
  unfold next; split <;> rfl

/-- The offset moves by the number of characters read. -/
theorem offset_advance (position : Position) (characters : List Char) :
    (position.advance characters).offset = position.offset + characters.length := by
  induction characters generalizing position with
  | nil => simp
  | cons character rest ih => simp [ih, offset_next]; omega

end Position

/-- A span of the source text: its characters from `start` up to and without `stop`, and the
line and column at which it starts. -/
structure Location where
  /-- The offset of the first character. -/
  start : Nat := 0
  /-- The offset behind the last character. -/
  stop : Nat := 0
  /-- The line of the first character. -/
  line : UInt32 := 0
  /-- The column of the first character. -/
  column : UInt32 := 0
deriving DecidableEq, Repr

namespace Location

/-- The span of the given length that starts at a point. -/
def ofPosition (position : Position) (length : Nat) : Location where
  start := position.offset
  stop := position.offset + length
  line := position.line
  column := position.column

/-- The span from the start of one location to the end of a later one. It never gets shorter
than the first. -/
def through (first last : Location) : Location :=
  { first with stop := max first.stop last.stop }

/-- The number of characters of a span whose end is not before its start. -/
def length (location : Location) : Nat := location.stop - location.start

/-- Whether the span has no characters. -/
def isEmpty (location : Location) : Bool := location.start == location.stop

/-- A span to the end of another location starts where the first one does. -/
@[simp] theorem start_through (first last : Location) :
    (first.through last).start = first.start := rfl

/-- A span to the end of another location ends with the later of the two. -/
@[simp] theorem stop_through (first last : Location) :
    (first.through last).stop = max first.stop last.stop := rfl

end Location

end Oreo
