import Oreo.Proofs.Parse.Content

/-!
# Spans are nested

The span of a node runs from the start of one token to the end of another. Its pieces, the nodes
and tokens that it is made of, lie inside it and stand one behind the other, in the order of the
source; so do the statements of a program.

The proof goes along a reading from left to right. What has been read so far is a row of pieces,
which stand one behind the other and before all tokens that are left (`Laid`). A token that is
passed is put behind the row (`Laid.shift`) or left out; a node takes the place of the pieces that
it is made of, together with the marks and keywords around them (`Laid.fold`), for its span runs
from the first of these to the last.

One piece is not in the row: the step of a `for` loop that was not written is placed at the name
of the variable, inside the declaration that comes first.
-/

namespace Oreo

/-- What a node is made of: other nodes, and tokens. -/
inductive Piece where
  /-- A node. -/
  | node (node : Node)
  /-- A token. -/
  | token (token : Token)

/-- The span of a piece. -/
def Piece.location : Piece → Location
  | .node tree => tree.location
  | .token word => word.location

/-- The pieces of an entry of an object literal, in the order of the source. -/
def Entry.pieces (entry : Entry) : List Piece := entry.nodes.map .node

/-- The pieces of a node, in the order of the source. The step of a `for` loop is one of them,
whether it was written or not. -/
def Node.pieces : Node → List Piece
  | .block body _ => body.map .node
  | .declaration name value _ => .token name :: value.toList.map .node
  | .conditional test consequent alternate _ =>
    .node test :: .node consequent :: alternate.toList.map .node
  | .whileLoop test body _ => [.node test, .node body]
  | .doWhileLoop test body _ => [.node body, .node test]
  | .forLoop initial test step body _ => [.node initial, .node test, .node step, .node body]
  | .switch subject clauses _ => .node subject :: clauses.map fun branch => .node (.clause branch)
  | .function name parameters body _ =>
    .node name :: (parameters.map .token ++ [.node body])
  | .lambda parameters body _ => parameters.map .token ++ [.node body]
  | .returns value _ => value.toList.map .node
  | .binary _ left right _ => [.node left, .node right]
  | .negation operand _ => [.node operand]
  | .update target _ _ => [.token target]
  | .assignment target _ value _ => [.token target, .node value]
  | .call callee arguments _ => .node callee :: arguments.map .node
  | .access target index _ => [.node target, .node index]
  | .elementAssignment target index value _ => [.node target, .node index, .node value]
  | .member owner property _ _ => [.node owner, .node property]
  | .array elements _ => elements.map .node
  | .object entries _ => entries.flatMap Entry.pieces
  | .unit _ => []
  | .clause branch => branch.values.map .node ++ [.node branch.body]
  | .leaf token => [.token token]

/-- The pieces of a node that were written: all but an implied step of a `for` loop. -/
def Node.writtenPieces : Node → List Piece
  | .forLoop initial test step body _ =>
    if step.isImplied then [.node initial, .node test, .node body]
    else [.node initial, .node test, .node step, .node body]
  | node => node.pieces

/-- The node stands somewhere in the program. -/
inductive Occurs (program : List Node) : Node → Prop where
  /-- It is a statement of the program. -/
  | statement {node : Node} (listed : node ∈ program) : Occurs program node
  /-- It is a piece of a node that stands there. -/
  | piece {node child : Node} (occurs : Occurs program node) (held : .node child ∈ node.pieces) :
      Occurs program child

namespace Location

/-- The first span ends before the second begins. -/
def Before (first second : Location) : Prop := first.stop ≤ second.start

/-- The inner span lies inside the outer one. -/
def Within (inner outer : Location) : Prop :=
  outer.start ≤ inner.start ∧ inner.stop ≤ outer.stop

/-- The span is not empty and runs from the start of a token, with its line and column, to the
end of a token. -/
structure Framed (tokens : List Token) (location : Location) : Prop where
  /-- A token starts where the span starts. -/
  starts : ∃ token ∈ tokens, location.start = token.location.start ∧
    location.line = token.location.line ∧ location.column = token.location.column
  /-- A token ends where the span ends. -/
  stops : ∃ token ∈ tokens, location.stop = token.location.stop
  /-- There is something in the span. -/
  start_lt_stop : location.start < location.stop

end Location

/-- The first piece ends before the second begins. -/
def Piece.Before (first second : Piece) : Prop := first.location.Before second.location

/-- The span of the node is made of tokens, and its pieces lie in it, one behind the other. -/
structure Node.Spanned (tokens : List Token) (node : Node) : Prop where
  /-- The span runs from a token to a token. -/
  framed : node.location.Framed tokens
  /-- The tokens that the node holds are tokens of the source. -/
  held : ∀ token, .token token ∈ node.pieces → token ∈ tokens
  /-- Each piece lies inside the span. -/
  inside : ∀ piece ∈ node.pieces, piece.location.Within node.location
  /-- Each written piece ends before the next begins. -/
  ordered : node.writtenPieces.Pairwise Piece.Before
  /-- An implied step adds one to the variable that its loop declares, and lies inside the
  declaration. -/
  implied : ∀ {initial test step body : Node} {location : Location},
    node = .forLoop initial test step body location → step.isImplied = true →
      (∃ name value place, initial = .declaration name value place ∧
        step = .update name .increment name.location) ∧
      step.location.Within initial.location

/-- The node and all nodes in it are spanned. -/
inductive Node.Nested (tokens : List Token) : Node → Prop where
  /-- The node is spanned, and so are all nodes in its children. -/
  | mk {node : Node} (spanned : node.Spanned tokens)
      (children : ∀ child, .node child ∈ node.pieces → Node.Nested tokens child) :
      Node.Nested tokens node

/-- A nested node is spanned. -/
theorem Node.Nested.spanned {tokens : List Token} {node : Node} (nested : node.Nested tokens) :
    node.Spanned tokens := by
  cases nested with
  | mk spanned _ => exact spanned

/-- The children of a nested node are nested. -/
theorem Node.Nested.child {tokens : List Token} {node child : Node} (nested : node.Nested tokens)
    (held : .node child ∈ node.pieces) : child.Nested tokens := by
  cases nested with
  | mk _ children => exact children child held

/-- The piece is a token of the source, or a node that is nested. -/
def Piece.Sound (tokens : List Token) : Piece → Prop
  | .node tree => tree.Nested tokens
  | .token word => word ∈ tokens

namespace Location

variable {tokens : List Token} {first last : Location}

/-- A token runs from itself to itself. -/
theorem framed_token (ascending : Ascending tokens) {token : Token} (listed : token ∈ tokens) :
    token.location.Framed tokens where
  starts := ⟨token, listed, rfl, rfl, rfl⟩
  stops := ⟨token, listed, rfl⟩
  start_lt_stop := ascending.start_lt_stop token listed

/-- A span to the end of a later one ends there. -/
theorem stop_through_of_le (reach : first.stop ≤ last.stop) :
    (first.through last).stop = last.stop := by
  rw [stop_through]
  omega

/-- A span to its own end is itself. -/
theorem through_self (location : Location) : location.through location = location := by
  rw [through, Nat.max_self]

/-- A span from one framed span to the end of a later one is framed. -/
theorem Framed.through (begins : first.Framed tokens) (ends : last.Framed tokens)
    (reach : first.stop ≤ last.stop) : (first.through last).Framed tokens where
  starts := begins.starts
  stops := by
    rw [stop_through_of_le reach]
    exact ends.stops
  start_lt_stop := by
    rw [stop_through_of_le reach]
    exact Nat.lt_of_lt_of_le begins.start_lt_stop reach

end Location

/-- A sound piece is framed by the tokens. -/
theorem Piece.Sound.framed {tokens : List Token} {piece : Piece} (sound : piece.Sound tokens)
    (ascending : Ascending tokens) : piece.location.Framed tokens := by
  cases piece with
  | node node => exact sound.spanned.framed
  | token token => exact Location.framed_token ascending sound

/-- The pieces of a nested node are sound. -/
theorem Node.Nested.sound {tokens : List Token} {node : Node} (nested : node.Nested tokens)
    {piece : Piece} (held : piece ∈ node.pieces) : piece.Sound tokens := by
  cases piece with
  | node child => exact nested.child held
  | token token => exact nested.spanned.held token held

/-- A written piece is a piece. -/
theorem Node.writtenPieces_sublist (node : Node) : node.writtenPieces.Sublist node.pieces := by
  unfold Node.writtenPieces
  split
  · rename_i initial test step body location
    split
    · exact .cons_cons _ (.cons_cons _ (.cons _ (.refl _)))
    · exact .refl _
  · exact .refl _

/-- What has been read so far: sound pieces, one behind the other, before all tokens that are
left. -/
structure Laid (tokens : List Token) (pieces : List Piece) (rest : List Token) : Prop where
  /-- The tokens of the source are in order. -/
  ascending : Ascending tokens
  /-- What is left is a back part of the source. -/
  suffix : rest <:+ tokens
  /-- Each piece is sound. -/
  sound : ∀ piece ∈ pieces, piece.Sound tokens
  /-- Each piece ends before the next begins. -/
  ordered : pieces.Pairwise Piece.Before
  /-- Each piece ends before all that is left. -/
  behind : ∀ piece ∈ pieces, ∀ token ∈ rest, piece.location.Before token.location

namespace Laid

variable {tokens rest : List Token} {pieces front frame back : List Piece}

/-- Nothing has been read. -/
theorem start (ascending : Ascending tokens) : Laid tokens [] tokens where
  ascending
  suffix := List.suffix_refl tokens
  sound := by simp
  ordered := .nil
  behind := by simp

/-- Pieces may be left out of the row. -/
theorem sublist (laid : Laid tokens pieces rest) (fewer : frame.Sublist pieces) :
    Laid tokens frame rest where
  ascending := laid.ascending
  suffix := laid.suffix
  sound piece member := laid.sound piece (fewer.subset member)
  ordered := laid.ordered.sublist fewer
  behind piece member := laid.behind piece (fewer.subset member)

/-- Tokens may be passed. -/
theorem pass {later : List Token} (laid : Laid tokens pieces rest) (suffix : later <:+ rest) :
    Laid tokens pieces later where
  ascending := laid.ascending
  suffix := suffix.trans laid.suffix
  sound := laid.sound
  ordered := laid.ordered
  behind piece member token left := laid.behind piece member token (suffix.subset left)

/-- A token that is passed may be left out of the row. -/
theorem skip {token : Token} (laid : Laid tokens pieces (token :: rest)) :
    Laid tokens pieces rest :=
  laid.pass (List.suffix_cons token rest)

/-- A semicolon before a keyword may be passed. -/
theorem passBefore {keywords : List Keyword} {later : List Token}
    (laid : Laid tokens pieces rest) (ahead : passSemicolonBefore keywords rest = later) :
    Laid tokens pieces later :=
  laid.pass (ahead ▸ passSemicolonBefore_suffix keywords rest)

/-- A token that is passed may be put behind the row. -/
theorem shift {token : Token} (laid : Laid tokens pieces (token :: rest)) :
    Laid tokens (pieces ++ [.token token]) rest where
  ascending := laid.ascending
  suffix := laid.skip.suffix
  sound := by
    intro piece member
    rcases List.mem_append.mp member with member | member
    · exact laid.sound piece member
    · cases List.mem_singleton.mp member
      exact laid.suffix.subset List.mem_cons_self
  ordered := by
    refine List.pairwise_append.mpr ⟨laid.ordered, List.pairwise_singleton .., ?_⟩
    intro piece member last found
    cases List.mem_singleton.mp found
    exact laid.behind piece member token List.mem_cons_self
  behind := by
    intro piece member later left
    rcases List.mem_append.mp member with member | member
    · exact laid.skip.behind piece member later left
    · cases List.mem_singleton.mp member
      have ascending := laid.ascending.of_suffix laid.suffix
      exact List.rel_of_pairwise_cons ascending.pairwise left

/-- Every piece that is laid is framed by the tokens. -/
theorem framed (laid : Laid tokens pieces rest) {piece : Piece} (member : piece ∈ pieces) :
    piece.location.Framed tokens :=
  (laid.sound piece member).framed laid.ascending

/-- No piece begins before the first. -/
theorem first_le (laid : Laid tokens pieces rest) {first piece : Piece}
    (opens : pieces.head? = some first) (member : piece ∈ pieces) :
    first.location.start ≤ piece.location.start := by
  obtain ⟨others, rfl⟩ := List.head?_eq_some_iff.mp opens
  rcases List.mem_cons.mp member with rfl | member
  · exact Nat.le_refl _
  · have filled := (laid.framed List.mem_cons_self).start_lt_stop
    have before : first.location.stop ≤ piece.location.start :=
      List.rel_of_pairwise_cons laid.ordered member
    omega

/-- No piece ends behind the last. -/
theorem le_last (laid : Laid tokens pieces rest) {last piece : Piece}
    (closes : pieces.getLast? = some last) (member : piece ∈ pieces) :
    piece.location.stop ≤ last.location.stop := by
  obtain ⟨others, rfl⟩ := List.getLast?_eq_some_iff.mp closes
  rcases List.mem_append.mp member with earlier | member
  · have filled := (laid.framed (List.mem_append_right others List.mem_cons_self)).start_lt_stop
    have before : piece.location.stop ≤ last.location.start :=
      (List.pairwise_append.mp laid.ordered).2.2 piece earlier last List.mem_cons_self
    omega
  · cases List.mem_singleton.mp member
    exact Nat.le_refl _

/-- Pieces may take the place of others if none of them reaches out on either side. -/
theorem swap {other : List Piece} (laid : Laid tokens (front ++ frame ++ back) rest)
    (sound : ∀ piece ∈ other, piece.Sound tokens) (ordered : other.Pairwise Piece.Before)
    (starts : ∀ piece ∈ other, ∃ first ∈ frame, first.location.start ≤ piece.location.start)
    (stops : ∀ piece ∈ other, ∃ last ∈ frame, piece.location.stop ≤ last.location.stop) :
    Laid tokens (front ++ other ++ back) rest := by
  obtain ⟨before, backOrdered, frameBack⟩ := List.pairwise_append.mp laid.ordered
  obtain ⟨frontOrdered, _, frontFrame⟩ := List.pairwise_append.mp before
  have otherBack : ∀ piece ∈ other, ∀ later ∈ back, piece.Before later := by
    intro piece member later found
    obtain ⟨last, held, reach⟩ := stops piece member
    exact Nat.le_trans reach (frameBack last (List.mem_append_right front held) later found)
  have frontOther : ∀ earlier ∈ front, ∀ piece ∈ other, earlier.Before piece := by
    intro earlier found piece member
    obtain ⟨first, held, reach⟩ := starts piece member
    exact Nat.le_trans (frontFrame earlier found first held) reach
  refine ⟨laid.ascending, laid.suffix, ?_, ?_, ?_⟩
  · intro piece member
    rcases List.mem_append.mp member with member | member
    · rcases List.mem_append.mp member with member | member
      · exact laid.sound piece (by simp [member])
      · exact sound piece member
    · exact laid.sound piece (by simp [member])
  · refine List.pairwise_append.mpr ⟨?_, backOrdered, ?_⟩
    · exact List.pairwise_append.mpr ⟨frontOrdered, ordered, frontOther⟩
    · intro piece member later found
      rcases List.mem_append.mp member with member | member
      · exact frameBack piece (List.mem_append_left frame member) later found
      · exact otherBack piece member later found
  · intro piece member token left
    rcases List.mem_append.mp member with member | member
    · rcases List.mem_append.mp member with member | member
      · exact laid.behind piece (by simp [member]) token left
      · obtain ⟨last, held, reach⟩ := stops piece member
        exact Nat.le_trans reach (laid.behind last (by simp [held]) token left)
    · exact laid.behind piece (by simp [member]) token left

/-- The written pieces of a node may take its place. -/
theorem unfold {node : Node} (laid : Laid tokens (front ++ [.node node]) rest) :
    Laid tokens (front ++ node.writtenPieces) rest := by
  have nested : node.Nested tokens := laid.sound (.node node) (by simp)
  have held {piece : Piece} (member : piece ∈ node.writtenPieces) : piece ∈ node.pieces :=
    node.writtenPieces_sublist.subset member
  rw [← List.append_nil (front ++ _)] at laid ⊢
  refine laid.swap ?_ nested.spanned.ordered ?_ ?_
  · exact fun piece member => nested.sound (held member)
  · exact fun piece member =>
      ⟨.node node, List.mem_cons_self, (nested.spanned.inside piece (held member)).1⟩
  · exact fun piece member =>
      ⟨.node node, List.mem_cons_self, (nested.spanned.inside piece (held member)).2⟩

/-- A node that runs from the first to the last piece of a row, and whose own pieces lie inside
the pieces of the row, is nested. -/
theorem nested {node : Node} {first last : Piece} (laid : Laid tokens frame rest)
    (opens : frame.head? = some first) (closes : frame.getLast? = some last)
    (location : node.location = first.location.through last.location)
    (sound : ∀ piece ∈ node.pieces, piece.Sound tokens)
    (inside : ∀ piece ∈ node.pieces, ∃ part ∈ frame, piece.location.Within part.location)
    (ordered : node.writtenPieces.Pairwise Piece.Before)
    (implied : ∀ {initial test step body : Node} {location : Location},
      node = .forLoop initial test step body location → step.isImplied = true →
        (∃ name value place, initial = .declaration name value place ∧
          step = .update name .increment name.location) ∧
        step.location.Within initial.location) :
    node.Nested tokens := by
  have firstHeld : first ∈ frame := List.mem_of_head? opens
  have lastHeld : last ∈ frame := List.mem_of_getLast? closes
  have reach := laid.le_last closes firstHeld
  refine .mk ⟨?_, fun token held => sound (.token token) held, ?_, ordered, implied⟩
    fun child held => sound (.node child) held
  · rw [location]
    exact (laid.framed firstHeld).through (laid.framed lastHeld) reach
  · intro piece member
    obtain ⟨part, held, within⟩ := inside piece member
    rw [location, Location.Within, Location.start_through, Location.stop_through_of_le reach]
    exact ⟨Nat.le_trans (laid.first_le opens held) within.1,
      Nat.le_trans within.2 (laid.le_last closes held)⟩

/-- A nested node may take the place of pieces from the first to the last of which it runs. -/
theorem replace {node : Node} {first last : Piece}
    (laid : Laid tokens (front ++ frame ++ back) rest)
    (opens : frame.head? = some first) (closes : frame.getLast? = some last)
    (location : node.location = first.location.through last.location)
    (nested : node.Nested tokens) : Laid tokens (front ++ [.node node] ++ back) rest := by
  have part : Laid tokens frame rest :=
    laid.sublist ((List.sublist_append_right front frame).trans (List.sublist_append_left ..))
  have firstHeld : first ∈ frame := List.mem_of_head? opens
  have start : node.location.start = first.location.start := by
    rw [location, Location.start_through]
  have stop : node.location.stop = last.location.stop := by
    rw [location, Location.stop_through_of_le (part.le_last closes firstHeld)]
  refine laid.swap ?_ (List.pairwise_singleton ..) ?_ ?_
  · intro piece member
    cases List.mem_singleton.mp member
    exact nested
  · intro piece member
    cases List.mem_singleton.mp member
    exact ⟨first, firstHeld, Nat.le_of_eq start.symm⟩
  · intro piece member
    cases List.mem_singleton.mp member
    exact ⟨last, List.mem_of_getLast? closes, Nat.le_of_eq stop⟩

/-- A node may take the place of its pieces and of the marks around them, before other pieces. -/
theorem foldBefore {node : Node} {first last : Piece}
    (laid : Laid tokens (front ++ frame ++ back) rest)
    (opens : frame.head? = some first) (closes : frame.getLast? = some last)
    (location : node.location = first.location.through last.location)
    (held : node.pieces.Sublist frame) (plain : node.writtenPieces = node.pieces) :
    Laid tokens (front ++ [.node node] ++ back) rest := by
  have part : Laid tokens frame rest :=
    laid.sublist ((List.sublist_append_right front frame).trans (List.sublist_append_left ..))
  refine laid.replace opens closes location (part.nested opens closes location ?_ ?_ ?_ ?_)
  · exact fun piece member => part.sound piece (held.subset member)
  · exact fun piece member =>
      ⟨piece, held.subset member, Nat.le_refl _, Nat.le_refl _⟩
  · rw [plain]
    exact part.ordered.sublist held
  · -- A loop with an implied step has a piece that was not written.
    rintro initial test step body place rfl implied
    simp [Node.writtenPieces, Node.pieces, implied] at plain

/-- A node may take the place of its pieces and of the marks around them at the end of the row. -/
theorem fold {node : Node} {first last : Piece} (front frame : List Piece)
    (laid : Laid tokens pieces rest) (shape : pieces = front ++ frame)
    (opens : frame.head? = some first) (closes : frame.getLast? = some last)
    (location : node.location = first.location.through last.location)
    (held : node.pieces.Sublist frame) (plain : node.writtenPieces = node.pieces) :
    Laid tokens (front ++ [.node node]) rest := by
  rw [shape, ← List.append_nil (front ++ frame)] at laid
  have folded := laid.foldBefore opens closes location held plain
  rwa [List.append_nil] at folded

section Kinds

variable {keyword name opened closed mark : Token} {first second third fourth : Node}
  {nodes : List Node} {names : List Token}

/-- A name that is laid is laid as a leaf. -/
theorem leaf (laid : Laid tokens (front ++ [.token name]) rest) :
    Laid tokens (front ++ [.node (.leaf name)]) rest :=
  laid.fold front [.token name] rfl rfl rfl (Location.through_self _).symm (.refl _) rfl

/-- Statements laid between braces are a block that is laid. -/
theorem block
    (laid : Laid tokens (front ++ [.token opened] ++ (nodes.map .node ++ [.token closed])) rest) :
    Laid tokens (front ++ [.node (.block nodes (opened.location.through closed.location))]) rest :=
  laid.fold front (.token opened :: nodes.map .node ++ [.token closed]) (by simp) rfl
    List.getLast?_concat rfl (.cons _ (List.sublist_append_left ..)) rfl

/-- A keyword and a name that are laid are a declaration that is laid. -/
theorem declared (laid : Laid tokens (front ++ [.token keyword] ++ [.token name]) rest) :
    Laid tokens (front ++ [.node (.declaration name none
      (keyword.location.through name.location))]) rest :=
  laid.fold front [.token keyword, .token name] (by simp) rfl rfl rfl (.cons _ (.refl _)) rfl

/-- A keyword, a name and a value that are laid are a declaration that is laid. -/
theorem initialized
    (laid : Laid tokens (front ++ [.token keyword] ++ [.token name] ++ [.node first]) rest) :
    Laid tokens (front ++ [.node (.declaration name (some first)
      (keyword.location.through first.location))]) rest :=
  laid.fold front [.token keyword, .token name, .node first] (by simp) rfl rfl rfl
    (.cons _ (.refl _)) rfl

/-- A keyword, a test and a body that are laid are an `if` that is laid. -/
theorem conditionalOnly
    (laid : Laid tokens (front ++ [.token keyword] ++ [.node first] ++ [.node second]) rest) :
    Laid tokens (front ++ [.node (.conditional first second none
      (keyword.location.through second.location))]) rest :=
  laid.fold front [.token keyword, .node first, .node second] (by simp) rfl rfl rfl
    (.cons _ (.refl _)) rfl

/-- A keyword, a test, a body and an alternate that are laid are an `if` that is laid. -/
theorem conditionalOr
    (laid : Laid tokens
      (front ++ [.token keyword] ++ [.node first] ++ [.node second] ++ [.node third]) rest) :
    Laid tokens (front ++ [.node (.conditional first second (some third)
      (keyword.location.through third.location))]) rest :=
  laid.fold front [.token keyword, .node first, .node second, .node third] (by simp) rfl rfl rfl
    (.cons _ (.refl _)) rfl

/-- A keyword, a test and a body that are laid are a `while` that is laid. -/
theorem whileLoop
    (laid : Laid tokens (front ++ [.token keyword] ++ [.node first] ++ [.node second]) rest) :
    Laid tokens (front ++ [.node (.whileLoop first second
      (keyword.location.through second.location))]) rest :=
  laid.fold front [.token keyword, .node first, .node second] (by simp) rfl rfl rfl
    (.cons _ (.refl _)) rfl

/-- The body of a loop that tests after each round comes first. -/
theorem doWhileLoop
    (laid : Laid tokens (front ++ [.token keyword] ++ [.node second] ++ [.node first]) rest) :
    Laid tokens (front ++ [.node (.doWhileLoop first second
      (keyword.location.through first.location))]) rest :=
  laid.fold front [.token keyword, .node second, .node first] (by simp) rfl rfl rfl
    (.cons _ (.refl _)) rfl

/-- The four written parts of a `for` that are laid behind its keyword are a `for` that is laid. -/
theorem forLoop (written : third.isImplied = false)
    (laid : Laid tokens (front ++ [.token keyword] ++ [.node first] ++ [.node second] ++
      [.node third] ++ [.node fourth]) rest) :
    Laid tokens (front ++ [.node (.forLoop first second third fourth
      (keyword.location.through fourth.location))]) rest :=
  laid.fold front [.token keyword, .node first, .node second, .node third, .node fourth] (by simp)
    rfl rfl rfl (.cons _ (.refl _)) (by simp [Node.writtenPieces, Node.pieces, written])

/-- A step that is placed at the name of a declared variable is nested. -/
theorem nested_step {value : Option Node} {place : Location} {operator : UpdateOperator}
    (laid : Laid tokens (front ++ [.node (.declaration name value place)]) rest) :
    (Node.update name operator name.location).Nested tokens := by
  have named : Laid tokens ([] ++ [.token name]) rest :=
    laid.unfold.sublist
      ((List.singleton_sublist.mpr List.mem_cons_self).trans (List.sublist_append_right ..))
  have placed : Laid tokens ([] ++ [.node (.update name operator name.location)]) rest :=
    named.fold [] [.token name] rfl rfl rfl (Location.through_self _).symm (.refl _) rfl
  exact placed.sound (.node _) List.mem_cons_self

/-- An implied step is placed at the name of the variable, inside its declaration. -/
theorem forLoopByOne {value : Option Node} {place : Location}
    (laid : Laid tokens (front ++ [.token keyword] ++ [.node (.declaration name value place)] ++
      [.node second] ++ [.node fourth]) rest) :
    Laid tokens (front ++ [.node (.forLoop (.declaration name value place) second
      (.update name .increment name.location) fourth
      (keyword.location.through fourth.location))]) rest := by
  let initial := Node.declaration name value place
  let step := Node.update name .increment name.location
  let written : List Piece := [.node initial, .node second, .node fourth]
  have row : Laid tokens (front ++ (.token keyword :: written) ++ []) rest := by
    simpa [written, initial] using laid
  have frame : Laid tokens (.token keyword :: written) rest := row.sublist (by simp)
  have declared : initial.Nested tokens := frame.sound (.node initial) (by simp [written])
  have within := declared.spanned.inside (.token name) List.mem_cons_self
  have stepNested : step.Nested tokens :=
    nested_step (frame.sublist (by simp [written]) : Laid tokens ([] ++ [.node initial]) rest)
  have nested : (Node.forLoop initial second step fourth
      (keyword.location.through fourth.location)).Nested tokens := by
    refine frame.nested rfl rfl rfl ?_ ?_ ?_ ?_
    · intro piece member
      by_cases implied : piece = .node step
      · rw [implied]
        exact stepNested
      · exact frame.sound piece (by simp_all [Node.pieces, written])
    · intro piece member
      by_cases implied : piece = .node step
      · rw [implied]
        exact ⟨.node initial, by simp [written], within⟩
      · exact ⟨piece, by simp_all [Node.pieces, written], Nat.le_refl _, Nat.le_refl _⟩
    · have implied : step.isImplied = true := by simp [step, Node.isImplied]
      rw [Node.writtenPieces, if_pos implied]
      exact frame.ordered.of_cons
    · rintro _ _ _ _ _ ⟨⟩ _
      exact ⟨⟨name, value, place, rfl, rfl⟩, within⟩
  simpa using row.replace rfl rfl rfl nested

/-- The cases of a choice take the place of the block in which they were read. -/
theorem switch {clauses : List Clause} {location : Location}
    (laid : Laid tokens (front ++ [.token keyword] ++ [.node first] ++
      [.node (.block (clauses.map .clause) location)]) rest) :
    Laid tokens (front ++ [.node (.switch first clauses
      (keyword.location.through location))]) rest := by
  let block := Node.block (clauses.map .clause) location
  let whole := Node.switch first clauses (keyword.location.through location)
  have row : Laid tokens (front ++ [.token keyword, .node first, .node block] ++ []) rest := by
    simpa [block] using laid
  have frame : Laid tokens [.token keyword, .node first, .node block] rest :=
    row.sublist (by simp)
  have pieces : Laid tokens whole.pieces rest := by
    have opened : Laid tokens ([.node first] ++ block.pieces) rest :=
      (frame.sublist (.cons _ (.refl _)) : Laid tokens ([.node first] ++ [.node block]) rest).unfold
    simpa [whole, block, Node.pieces, Function.comp_def] using opened
  have nested : whole.Nested tokens := by
    refine frame.nested rfl rfl rfl pieces.sound ?_ pieces.ordered ?_
    · intro piece member
      rcases List.mem_cons.mp member with rfl | member
      · exact ⟨.node first, by simp, Nat.le_refl _, Nat.le_refl _⟩
      · have enclosed : block.Nested tokens := frame.sound (.node block) (by simp)
        refine ⟨.node block, by simp, enclosed.spanned.inside piece ?_⟩
        simpa [block, Node.pieces] using member
    · intro initial test step body place loop
      simp [whole] at loop
  simpa using row.replace rfl rfl rfl nested

/-- A keyword, values and a body that are laid are a `case` that is laid. -/
theorem caseClause (laid : Laid tokens
      (front ++ [.token keyword] ++ [.node first] ++ nodes.map .node ++ [.node second]) rest) :
    Laid tokens (front ++ [.node (.clause (.ofValues first nodes second
      (keyword.location.through second.location)))]) rest := by
  have pieces : (Node.clause (.ofValues first nodes second
      (keyword.location.through second.location))).pieces =
        (first :: nodes).map .node ++ [.node second] := by
    rw [Node.pieces, Clause.values_ofValues]
    rfl
  refine laid.fold front (.token keyword :: (first :: nodes).map .node ++ [.node second]) (by simp)
    rfl List.getLast?_concat rfl ?_ rfl
  rw [pieces]
  exact .cons _ (.refl _)

/-- A keyword and a body that are laid are a `default` that is laid. -/
theorem defaultClause (laid : Laid tokens (front ++ [.token keyword] ++ [.node first]) rest) :
    Laid tokens (front ++ [.node (.clause (.fallback first
      (keyword.location.through first.location)))]) rest :=
  laid.fold front [.token keyword, .node first] (by simp) rfl rfl rfl (.cons _ (.refl _)) rfl

/-- A keyword, a name, parameters and a body that are laid are a function that is laid. -/
theorem function (laid : Laid tokens
      (front ++ [.token keyword] ++ [.node first] ++ names.map .token ++ [.node second]) rest) :
    Laid tokens (front ++ [.node (.function first names second
      (keyword.location.through second.location))]) rest :=
  laid.fold front (.token keyword :: .node first :: names.map .token ++ [.node second]) (by simp)
    rfl List.getLast?_concat rfl (.cons _ (.refl _)) rfl

/-- An opener, parameters, their closer and a body that are laid are a lambda that is laid. -/
theorem lambda (laid : Laid tokens (front ++ [.token keyword] ++
      (names.map .token ++ [.token closed]) ++ [.node first]) rest) :
    Laid tokens (front ++ [.node (.lambda names first
      (keyword.location.through first.location))]) rest :=
  laid.fold front (.token keyword :: (names.map .token ++ [.token closed]) ++ [.node first])
    (by simp) rfl List.getLast?_concat rfl
    (.cons _ ((List.sublist_append_left ..).append_right _)) rfl

/-- A `return` that is laid alone is a node that is laid. -/
theorem returnsNothing (laid : Laid tokens (front ++ [.token keyword]) rest) :
    Laid tokens (front ++ [.node (.returns none keyword.location)]) rest :=
  laid.fold front [.token keyword] rfl rfl rfl (Location.through_self _).symm (.cons _ (.refl _))
    rfl

/-- A `return` and a value that are laid are a node that is laid. -/
theorem returnsValue (laid : Laid tokens (front ++ [.token keyword] ++ [.node first]) rest) :
    Laid tokens (front ++ [.node (.returns (some first)
      (keyword.location.through first.location))]) rest :=
  laid.fold front [.token keyword, .node first] (by simp) rfl rfl rfl (.cons _ (.refl _)) rfl

/-- Two operands that are laid are a binary expression that is laid. -/
theorem binary {operator : Operator}
    (laid : Laid tokens (front ++ [.node first] ++ [.node second]) rest) :
    Laid tokens (front ++ [.node (.binary operator first second
      (first.location.through second.location))]) rest :=
  laid.fold front [.node first, .node second] (by simp) rfl rfl rfl (.refl _) rfl

/-- A mark and an operand that are laid are a negation that is laid. -/
theorem negation (laid : Laid tokens (front ++ [.token mark] ++ [.node first]) rest) :
    Laid tokens (front ++ [.node (.negation first
      (mark.location.through first.location))]) rest :=
  laid.fold front [.token mark, .node first] (by simp) rfl rfl rfl (.cons _ (.refl _)) rfl

/-- A name and an operator that are laid are an update that is laid. -/
theorem update {operator : UpdateOperator}
    (laid : Laid tokens (front ++ [.token name] ++ [.token mark]) rest) :
    Laid tokens (front ++ [.node (.update name operator
      (name.location.through mark.location))]) rest :=
  laid.fold front [.token name, .token mark] (by simp) rfl rfl rfl
    (.cons_cons _ (.cons _ (.refl _))) rfl

/-- A name and a value that are laid are an assignment that is laid. -/
theorem assignment {operator : AssignmentOperator}
    (laid : Laid tokens (front ++ [.token name] ++ [.node first]) rest) :
    Laid tokens (front ++ [.node (.assignment name operator first
      (name.location.through first.location))]) rest :=
  laid.fold front [.token name, .node first] (by simp) rfl rfl rfl (.refl _) rfl

/-- A callee, arguments and their closer that are laid are a call that is laid. -/
theorem call (laid : Laid tokens
      (front ++ [.node first] ++ (nodes.map .node ++ [.token closed])) rest) :
    Laid tokens (front ++ [.node (.call first nodes
      (first.location.through closed.location))]) rest :=
  laid.fold front (Piece.node first :: nodes.map .node ++ [.token closed]) (by simp) rfl
    List.getLast?_concat rfl (List.sublist_append_left ..) rfl

/-- A target, an index and its closer that are laid are an access that is laid. -/
theorem access (laid : Laid tokens
      (front ++ [.node first] ++ [.node second] ++ [.token closed]) rest) :
    Laid tokens (front ++ [.node (.access first second
      (first.location.through closed.location))]) rest :=
  laid.fold front [.node first, .node second, .token closed] (by simp) rfl rfl rfl
    (.cons_cons _ (.cons_cons _ (.cons _ (.refl _)))) rfl

/-- An access and a value that are laid are an assignment to an element that is laid. -/
theorem elementAssignment (laid : Laid tokens
      (front ++ [.node first] ++ [.node second] ++ [.token closed] ++ [.node third]) rest) :
    Laid tokens (front ++ [.node (.elementAssignment first second third
      (first.location.through third.location))]) rest :=
  laid.fold front [.node first, .node second, .token closed, .node third] (by simp) rfl rfl rfl
    (.cons_cons _ (.cons_cons _ (.cons _ (.refl _)))) rfl

/-- A target and a member that are laid are a member access that is laid. -/
theorem member {separator : MemberSeparator}
    (laid : Laid tokens (front ++ [.node first] ++ [.node second]) rest) :
    Laid tokens (front ++ [.node (.member first second separator
      (first.location.through second.location))]) rest :=
  laid.fold front [.node first, .node second] (by simp) rfl rfl rfl (.refl _) rfl

/-- Values laid between brackets are an array that is laid. -/
theorem array
    (laid : Laid tokens (front ++ [.token opened] ++ (nodes.map .node ++ [.token closed])) rest) :
    Laid tokens (front ++ [.node (.array nodes (opened.location.through closed.location))]) rest :=
  laid.fold front (.token opened :: nodes.map .node ++ [.token closed]) (by simp) rfl
    List.getLast?_concat rfl (.cons _ (List.sublist_append_left ..)) rfl

/-- Entries laid between braces are an object that is laid. -/
theorem object {entries : List Entry} (laid : Laid tokens
      (front ++ [.token opened] ++ (entries.flatMap Entry.pieces ++ [.token closed])) rest) :
    Laid tokens (front ++ [.node (.object entries
      (opened.location.through closed.location))]) rest :=
  laid.fold front (.token opened :: entries.flatMap Entry.pieces ++ [.token closed]) (by simp) rfl
    List.getLast?_concat rfl (.cons _ (List.sublist_append_left ..)) rfl

/-- Two parentheses that are laid are a unit that is laid. -/
theorem unit (laid : Laid tokens (front ++ [.token opened] ++ [.token closed]) rest) :
    Laid tokens (front ++ [.node (.unit (opened.location.through closed.location))]) rest :=
  laid.fold front [.token opened, .token closed] (by simp) rfl rfl rfl
    (.cons _ (.cons _ (.refl _))) rfl

/-- The name and the arguments of a signature may take its place. -/
theorem signature {node title : Node} {arguments : List Node}
    (split : node.signature? = some (title, arguments))
    (laid : Laid tokens (front ++ [.node node]) rest) :
    Laid tokens (front ++ [.node title] ++ arguments.map .node) rest := by
  fun_induction Node.signature? node generalizing front title arguments with
  | case1 callee given location =>
    cases split
    simpa [Node.writtenPieces, Node.pieces] using laid.unfold
  | case2 owner property separator location name given inner ih =>
    cases split
    have opened : Laid tokens (front ++ [.node owner] ++ [.node property]) rest := by
      simpa [Node.writtenPieces, Node.pieces] using laid.unfold
    have parts := ih inner opened
    rw [List.append_assoc front] at parts
    exact parts.foldBefore rfl rfl rfl (.refl _) rfl
  | case3 => cases split
  | case4 => cases split

/-- Tokens may take the place of the leaves that they are. -/
theorem leaves (laid : Laid tokens (front ++ (names.map Node.leaf).map .node) rest) :
    Laid tokens (front ++ names.map .token) rest := by
  rw [← List.append_nil (front ++ _)] at laid ⊢
  refine laid.swap ?_ ?_ ?_ ?_
  · intro piece member
    obtain ⟨name, listed, rfl⟩ := List.mem_map.mp member
    have nested : (Node.leaf name).Nested tokens :=
      laid.sound (.node (.leaf name)) (by simp [listed])
    exact nested.sound List.mem_cons_self
  · have ordered : ((names.map Node.leaf).map Piece.node).Pairwise Piece.Before :=
      laid.ordered.sublist (by simp)
    rw [List.map_map, List.pairwise_map] at ordered
    exact List.pairwise_map.mpr ordered
  · intro piece member
    obtain ⟨name, listed, rfl⟩ := List.mem_map.mp member
    exact ⟨.node (.leaf name), by simp [listed], Nat.le_refl _⟩
  · intro piece member
    obtain ⟨name, listed, rfl⟩ := List.mem_map.mp member
    exact ⟨.node (.leaf name), by simp [listed], Nat.le_refl _⟩

end Kinds

end Laid

/-- The pieces that a part is read as. A list ends with the mark that closes it. -/
def Part.pieces : (part : Part) → part.Result → List Piece
  | .program, nodes | .alternatives, nodes => nodes.map .node
  | .block, (nodes, place) => [.node (.block nodes place)]
  | .statements, (nodes, place) => nodes.map .node ++ [.token ⟨.punctuation .closeBrace, place⟩]
  | .entry, written => written.pieces
  | .parameter, name => [.token name]
  | .list bracket item, (values, place) | .items bracket item, (values, place) =>
    values.flatMap item.pieces ++ [.token ⟨.punctuation bracket.closer, place⟩]
  | .statement, node | .conditional, node | .clauseBody, node | .body, node | .lambda, node
  | .expression, node | .climb .., node | .operand, node | .named _, node | .members _, node
  | .call _, node | .indexed _, node | .accessed .., node => [.node node]

/-- The row in front of a part: what comes before it, and what was read before and becomes a piece
of its value. -/
def Part.row (front : List Piece) : Part → List Piece
  | .climb left _ => front ++ [.node left]
  | .members owner => front ++ [.node owner]
  | .call callee => front ++ [.node callee]
  | .indexed target => front ++ [.node target]
  | .accessed target index closed =>
    front ++ [.node target] ++ [.node index] ++ [.token ⟨.punctuation .closeBracket, closed⟩]
  | _ => front

/-- Whether nothing was read before the items of a list that becomes a piece of them. -/
def Part.Plain : Part → Prop
  | .list _ item | .items _ item => (∀ front, item.row front = front) ∧ item.Plain
  | _ => True

/-- The pieces of a list of values are the values and the closer. -/
theorem Part.pieces_values (bracket : Bracket) (values : List Node) (place : Location) :
    (Part.list bracket .expression).pieces (values, place) =
      values.map .node ++ [.token ⟨.punctuation bracket.closer, place⟩] := by
  rw [List.map_eq_flatMap]
  rfl

/-- The pieces of a list of parameters are their names and the closer. -/
theorem Part.pieces_parameters (bracket : Bracket) (names : List Token) (place : Location) :
    (Part.list bracket .parameter).pieces (names, place) =
      names.map .token ++ [.token ⟨.punctuation bracket.closer, place⟩] := by
  rw [List.map_eq_flatMap]
  rfl

/-- A token is its class and its place. -/
theorem Token.eq_of_kind {token : Token} {kind : Token.Kind} (same : token.kind = kind) :
    token = ⟨kind, token.location⟩ := by
  cases same
  rfl

/-- A reading puts its value behind the row. -/
theorem Reads.laid {part : Part} {room : Nat} {tokens rest : List Token} {value : part.Result}
    (reads : Reads part room tokens value rest) (plain : part.Plain) {source : List Token}
    {front : List Piece} (laid : Laid source (part.row front) tokens) :
    Laid source (front ++ part.pieces value) rest := by
  -- Each case goes along its tokens. A token is shifted if the node that is read holds it or its
  -- span begins or ends there, and skipped otherwise.
  induction reads generalizing front with
  | programEnd => simpa [Part.pieces, Part.row] using laid
  | programNext _ _ firstLaid othersLaid =>
    have first := (firstLaid trivial laid).pass (passSemicolon_suffix _)
    simpa [Part.pieces] using othersLaid trivial first
  | declared => exact laid.shift.shift.declared
  | initialized _ _ _ _ valueLaid => exact (valueLaid trivial laid.shift.shift.skip).initialized
  | conditionalStatement _ _ conditionalLaid => exact conditionalLaid trivial laid
  | whileLoop _ _ _ testLaid bodyLaid =>
    exact (bodyLaid trivial (testLaid trivial laid.shift)).whileLoop
  | doWhileLoop _ _ ahead _ _ bodyLaid testLaid =>
    have body := (bodyLaid trivial laid.shift).passBefore ahead
    exact (testLaid trivial body.skip).doWhileLoop
  | forLoop _ _ _ _ _ updateRead _ initialLaid testLaid updateLaid bodyLaid =>
    have test := testLaid trivial (initialLaid trivial laid.shift).skip
    have written := updateRead.written (test.skip.ascending.of_suffix test.skip.suffix)
    exact (bodyLaid trivial (updateLaid trivial test.skip)).forLoop written
  | forLoopByOne _ _ _ _ _ _ _ initialLaid testLaid bodyLaid =>
    have test := testLaid trivial (initialLaid trivial laid.shift).skip
    exact (bodyLaid trivial test).forLoopByOne
  | switch _ _ _ subjectLaid clausesLaid =>
    exact (clausesLaid trivial (subjectLaid trivial laid.shift)).switch
  | caseClause _ _ _ _ valueLaid othersLaid bodyLaid =>
    have values := othersLaid trivial (valueLaid trivial laid.shift)
    exact (bodyLaid trivial values).caseClause
  | defaultClause _ _ bodyLaid => exact (bodyLaid trivial laid.shift).defaultClause
  | lambdaStatement _ _ lambdaLaid => exact lambdaLaid trivial laid
  | function _ _ _ split _ _ signatureLaid bodyLaid =>
    have title := (signatureLaid trivial laid.shift).signature split
    exact (bodyLaid trivial title.leaves).function
  | returnsNothing => exact laid.shift.returnsNothing
  | returnsValue _ _ _ _ _ valueLaid => exact (valueLaid trivial laid.shift).returnsValue
  | namedStatement _ _ namedLaid => exact namedLaid trivial laid
  | comment => exact laid.shift.leaf
  | conditionalOnly _ _ _ _ _ testLaid consequentLaid =>
    exact (consequentLaid trivial (testLaid trivial laid.shift)).conditionalOnly
  | conditionalElse _ _ _ ahead _ _ testLaid consequentLaid blockLaid =>
    have consequent := consequentLaid trivial (testLaid trivial laid.shift)
    exact (blockLaid trivial (consequent.passBefore ahead).skip).conditionalOr
  | conditionalElseif _ _ _ ahead _ _ testLaid consequentLaid alternateLaid =>
    have consequent := consequentLaid trivial (testLaid trivial laid.shift)
    exact (alternateLaid trivial (consequent.passBefore ahead)).conditionalOr
  | alternativesEnd => simpa [Part.pieces, Part.row] using laid
  | alternativesNext _ _ _ valueLaid othersLaid =>
    simpa [Part.pieces] using othersLaid trivial (valueLaid trivial laid.skip)
  | clauseBlock _ blockLaid => exact blockLaid trivial laid
  | clauseStatement _ _ statementLaid => exact statementLaid trivial laid.skip
  | bodyBlock _ blockLaid => exact blockLaid trivial laid
  | bodyStatement _ _ statementLaid => exact statementLaid trivial laid
  | block _ _ bodyLaid => exact (bodyLaid trivial laid.shift).block
  | statementsEnd closedKind =>
    have closed := laid.shift
    rw [Token.eq_of_kind closedKind] at closed
    exact closed
  | statementsNext _ _ _ firstLaid othersLaid =>
    have first := (firstLaid trivial laid).pass (passSemicolon_suffix _)
    simpa [Part.pieces] using othersLaid trivial first
  | lambda _ _ _ _ parametersLaid bodyLaid =>
    have parameters := parametersLaid ⟨fun _ => rfl, trivial⟩ laid.shift.skip
    rw [Part.pieces_parameters] at parameters
    exact (bodyLaid trivial parameters).lambda
  | expressionOperand _ _ operandLaid => exact operandLaid trivial laid
  | expressionBinary _ _ _ operandLaid climbLaid =>
    exact climbLaid trivial (operandLaid trivial laid)
  | climbEnd => exact laid
  | climbNext _ _ _ _ _ operandLaid rightLaid climbLaid =>
    have right := rightLaid trivial (operandLaid trivial laid.skip)
    exact climbLaid trivial right.binary
  | unit => exact laid.shift.shift.unit
  | parenthesized _ _ _ _ innerLaid => exact (innerLaid trivial laid.skip).skip
  | array _ _ elementsLaid =>
    have elements := elementsLaid ⟨fun _ => rfl, trivial⟩ laid.shift
    rw [Part.pieces_values] at elements
    exact elements.array
  | object _ _ entriesLaid => exact (entriesLaid ⟨fun _ => rfl, trivial⟩ laid.shift).object
  | negation _ _ operandLaid => exact (operandLaid trivial laid.shift).negation
  | lambdaOperand _ _ lambdaLaid => exact lambdaLaid trivial laid
  | namedOperand _ _ namedLaid => exact namedLaid trivial laid
  | literal => exact laid.shift.leaf
  | nameLast => exact laid.shift.leaf
  | nameAlone => exact laid.shift.leaf
  | assigned _ _ _ valueLaid => exact (valueLaid trivial laid.shift.skip).assignment
  | combined _ _ _ _ _ valueLaid => exact (valueLaid trivial laid.shift.skip.skip).assignment
  | updated => exact laid.shift.skip.shift.update
  | called _ _ callLaid => exact callLaid trivial laid.shift.leaf
  | owner _ _ _ membersLaid => exact membersLaid trivial laid.shift.leaf
  | indexedName _ _ indexedLaid => exact indexedLaid trivial laid.shift.leaf
  | membersEnd => exact laid
  | member _ _ _ propertyLaid => exact (propertyLaid trivial laid.skip).member
  | call _ _ _ argumentsLaid membersLaid =>
    have arguments := argumentsLaid ⟨fun _ => rfl, trivial⟩ laid.skip
    rw [Part.pieces_values] at arguments
    exact membersLaid trivial arguments.call
  | indexed _ _ closedKind _ indexLaid accessedLaid =>
    have index := (indexLaid trivial laid.skip).shift
    rw [Token.eq_of_kind closedKind] at index
    exact accessedLaid trivial index
  | elementAssigned _ _ valueLaid => exact (valueLaid trivial laid.skip).elementAssignment
  | elementCalled _ callLaid => exact callLaid trivial laid.access
  | elementIndexed _ indexedLaid => exact indexedLaid trivial laid.access
  | element _ _ _ _ membersLaid => exact membersLaid trivial laid.access
  | keyedValue _ _ _ _ _ keyLaid valueLaid =>
    have value := valueLaid trivial (keyLaid trivial laid.skip).skip.skip
    simpa [Part.pieces, Entry.pieces] using value
  | keyed _ _ _ _ keyLaid => exact (keyLaid trivial laid.skip).skip
  | namedEntry _ _ _ valueLaid =>
    simpa [Part.pieces, Part.row, Entry.pieces] using valueLaid trivial laid.shift.leaf.skip
  | item _ _ _ valueLaid => exact valueLaid trivial laid
  | parameter => exact laid.shift
  | listEmpty closedKind =>
    have closed := laid.shift
    rw [Token.eq_of_kind closedKind] at closed
    exact closed
  | listItems _ _ itemsLaid => exact itemsLaid plain laid
  | itemsEnd _ _ closedKind firstLaid =>
    have first := (firstLaid plain.2 (by rw [plain.1]; exact laid)).shift
    rw [Token.eq_of_kind closedKind] at first
    simpa [Part.pieces, Part.row] using first
  | itemsNext _ _ _ _ _ firstLaid othersLaid =>
    have first := (firstLaid plain.2 (by rw [plain.1]; exact laid)).skip
    simpa [Part.pieces, Part.row] using othersLaid plain first

/-- A node of a program whose statements are nested is nested. -/
theorem Occurs.nested {tokens : List Token} {program : List Node} {node : Node}
    (occurs : Occurs program node) (statements : ∀ statement ∈ program, statement.Nested tokens) :
    node.Nested tokens := by
  induction occurs with
  | statement listed => exact statements _ listed
  | piece _ held ih => exact ih.child held

/-- The spans of a program are nested. For every source that is parsed, with any number of levels
of nesting, the statements stand one behind the other; and the span of every node runs from the
start of a token to the end of a token, holds all pieces of the node, and holds those that were
written one behind the other. -/
theorem spans_of_parse {options : Options} {source : String} {program : List Node}
    (parsed : parse options source = .ok program) :
    ∃ tokens, tokenize source = .ok tokens ∧
      program.Pairwise (fun first second => first.location.Before second.location) ∧
      ∀ node, Occurs program node → node.Spanned tokens := by
  unfold parse at parsed
  split at parsed
  · contradiction
  rename_i tokens scanned
  split at parsed
  · contradiction
  rename_i outcome
  cases parsed
  have ascending : Ascending tokens := (tiles_of_tokenize scanned).ascending
  have laid : Laid tokens ([] ++ program.map .node) [] :=
    (reads_program outcome).1.laid trivial (Laid.start ascending)
  have statements : ∀ statement ∈ program, statement.Nested tokens := fun statement listed =>
    laid.sound (.node statement) (List.mem_map_of_mem listed)
  have ordered : (program.map Piece.node).Pairwise Piece.Before := laid.ordered
  rw [List.pairwise_map] at ordered
  exact ⟨tokens, scanned, ordered, fun node occurs => (occurs.nested statements).spanned⟩

/-- A loop without a step, with a test in parentheses, around a function whose name is a member:
the step is placed at the name of the variable, the test begins behind its parenthesis, and the
name of the function ends before its parameters. -/
theorem spans_of_parse_method :
    let program : List Node :=
      [.forLoop (.declaration ⟨.identifier "i", ⟨8, 9, 1, 9⟩⟩ none ⟨4, 9, 1, 5⟩)
        (.leaf ⟨.identifier "b", ⟨11, 12, 1, 12⟩⟩)
        (.update ⟨.identifier "i", ⟨8, 9, 1, 9⟩⟩ .increment ⟨8, 9, 1, 9⟩)
        (.function (.member (.leaf ⟨.identifier "o", ⟨17, 18, 1, 18⟩⟩)
            (.leaf ⟨.identifier "m", ⟨19, 20, 1, 20⟩⟩) .dot ⟨17, 20, 1, 18⟩)
          [⟨.identifier "p", ⟨21, 22, 1, 22⟩⟩]
          (.update ⟨.identifier "c", ⟨24, 25, 1, 25⟩⟩ .increment ⟨24, 27, 1, 25⟩)
          ⟨14, 27, 1, 15⟩)
        ⟨0, 27, 1, 1⟩]
    parse {} "for let i,(b) fn o.m(p) c++" = .ok program ∧
      ∃ tokens, tokenize "for let i,(b) fn o.m(p) c++" = .ok tokens ∧
        program.Pairwise (fun first second => first.location.Before second.location) ∧
        ∀ node, Occurs program node → node.Spanned tokens := by
  intro program
  have scanned : tokenize "for let i,(b) fn o.m(p) c++" = .ok
      [⟨.keyword .for, ⟨0, 3, 1, 1⟩⟩, ⟨.keyword .let, ⟨4, 7, 1, 5⟩⟩,
        ⟨.identifier "i", ⟨8, 9, 1, 9⟩⟩, ⟨.punctuation .comma, ⟨9, 10, 1, 10⟩⟩,
        ⟨.punctuation .openParen, ⟨10, 11, 1, 11⟩⟩, ⟨.identifier "b", ⟨11, 12, 1, 12⟩⟩,
        ⟨.punctuation .closeParen, ⟨12, 13, 1, 13⟩⟩, ⟨.keyword .fn, ⟨14, 16, 1, 15⟩⟩,
        ⟨.identifier "o", ⟨17, 18, 1, 18⟩⟩, ⟨.punctuation .dot, ⟨18, 19, 1, 19⟩⟩,
        ⟨.identifier "m", ⟨19, 20, 1, 20⟩⟩, ⟨.punctuation .openParen, ⟨20, 21, 1, 21⟩⟩,
        ⟨.identifier "p", ⟨21, 22, 1, 22⟩⟩, ⟨.punctuation .closeParen, ⟨22, 23, 1, 23⟩⟩,
        ⟨.identifier "c", ⟨24, 25, 1, 25⟩⟩, ⟨.operator .add, ⟨25, 26, 1, 26⟩⟩,
        ⟨.operator .add, ⟨26, 27, 1, 27⟩⟩] := by rfl
  have parsed : parse {} "for let i,(b) fn o.m(p) c++" = .ok program := by
    rw [parse, scanned]
    rfl
  exact ⟨parsed, spans_of_parse parsed⟩

end Oreo
