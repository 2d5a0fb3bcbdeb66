import Oreo.Proofs.Parse.Print

/-!
# Reading what is written

For each place in a tree, `Legible` says what it means that a tree is read back there: a value is
read as an operand behind whatever else, a statement before whatever ends one, and a name hands on
to what follows it. Names, what they lead, and values are read back if their parts are. Each case
is one choice of the grammar: the tokens that are written make it go this way and no other.
-/

namespace Oreo

/-- Whether the tokens end a statement or a name and what it leads: with a parenthesis, a comma,
the brace of a block, or a semicolon that is not before `else` or `elseif`. -/
def ends : List Token → Bool
  | [] => false
  | token :: others =>
    match token.kind with
    | .punctuation .closeParen | .punctuation .comma | .punctuation .openBrace => true
    | .punctuation .semicolon =>
      !startsWithKeyword .else others && !startsWithKeyword .elseif others
    | _ => false

/-- Whether the tokens end a name, or ask for a member of it. -/
def settled (tokens : List Token) : Bool :=
  startsWith .dot tokens || startsWith .colon tokens || ends tokens

section Ends

variable {tokens : List Token} (ended : ends tokens = true)
include ended

/-- The ends of a statement are a closing parenthesis, a comma, the brace of a block, or a semicolon
with no alternate behind it. -/
theorem ends_cases : ∃ token others, tokens = token :: others ∧
    (token.kind = .punctuation .closeParen ∨ token.kind = .punctuation .comma ∨
      token.kind = .punctuation .openBrace ∨ token.kind = .punctuation .semicolon ∧
        startsWithKeyword .else others = false ∧ startsWithKeyword .elseif others = false) := by
  cases tokens with
  | nil => cases ended
  | cons token others =>
    refine ⟨token, others, rfl, ?_⟩
    simp only [ends] at ended
    split at ended
    · exact .inl ‹_›
    · exact .inr (.inl ‹_›)
    · exact .inr (.inr (.inl ‹_›))
    · exact .inr (.inr (.inr ⟨‹_›, by simpa using ended⟩))
    · cases ended

/-- The end of a statement leads no name on. -/
theorem leadsOn_of_ends : leadsOn tokens = false := by
  obtain ⟨token, others, rfl, kind | kind | kind | ⟨kind, _⟩⟩ := ends_cases ended
  all_goals simp [leadsOn, kind]

/-- The end of a statement asks for no member. -/
theorem startsMember_of_ends : startsMember tokens = false := by
  obtain ⟨token, others, rfl, kind | kind | kind | ⟨kind, _⟩⟩ := ends_cases ended
  all_goals simp [startsMember, Token.separator?, MemberSeparator.ofMark?, kind]

/-- The end of a statement is no binary operator. -/
theorem startsBinary_of_ends : startsBinary tokens = false := by
  obtain ⟨token, others, rfl, kind | kind | kind | ⟨kind, _⟩⟩ := ends_cases ended
  all_goals simp [startsBinary, Token.isOperator, kind]

/-- No alternate stands at the end of a statement. -/
theorem alternateAhead_of_ends : startsWithKeyword .else (alternateAhead tokens) = false ∧
    startsWithKeyword .elseif (alternateAhead tokens) = false := by
  obtain ⟨token, others, rfl, kind | kind | kind | ⟨kind, noElse, noElseif⟩⟩ := ends_cases ended
  · simp [alternateAhead, passSemicolonBefore, kind]
  · simp [alternateAhead, passSemicolonBefore, kind]
  · simp [alternateAhead, passSemicolonBefore, kind]
  · simp [alternateAhead, passSemicolonBefore, kind, noElse, noElseif]

/-- The end of a statement is no mark but those four. -/
theorem startsWith_of_ends {mark : Punctuation}
    (other : mark ∉ [.closeParen, .comma, .openBrace, .semicolon]) :
    startsWith mark tokens = false := by
  simp only [List.mem_cons, List.not_mem_nil, or_false, not_or] at other
  obtain ⟨token, others, rfl, kind | kind | kind | ⟨kind, _⟩⟩ := ends_cases ended
  all_goals simp [kind, Ne.symm other.1, Ne.symm other.2.1, Ne.symm other.2.2.1,
    Ne.symm other.2.2.2]

end Ends

/-- A name or an element of one hands on to what follows it: to an index, to arguments, or to a
member. Behind indices, levels are still open. -/
structure Node.Leads (node : Node) : Prop where
  /-- An index may follow. -/
  indexed : ∀ {due room suffix value rest}, node.levels ≤ node.indices + room →
    Reads (.indexed node.unplaced) room suffix value rest →
    Reads (.named due) (node.indices + room) (node.print ++ suffix) value rest
  /-- Arguments may follow. -/
  called : ∀ {due room suffix value rest}, node.levels ≤ node.reach + room →
    Reads (.call node.unplaced) room suffix value rest →
    Reads (.named due) (node.reach + room) (node.print ++ suffix) value rest
  /-- A member may follow. -/
  members : ∀ {due room suffix value rest}, node.levels ≤ node.reach + room →
    settled suffix = true → Reads (.members node.unplaced) room suffix value rest →
    Reads (.named due) (node.reach + room) (node.print ++ suffix) value rest

/-- The tree is read back in the place, whatever stands behind it that may stand there. -/
def Legible : Role → Node → Prop
  | .value, node => ∀ {room rest}, node.opens + node.levels ≤ room →
    Reads .operand room (enclosed node.print ++ rest) node.unplaced rest
  | .named, node => ∀ {due room rest}, node.levels ≤ room → ends rest = true →
    Reads (.named due) room (node.print ++ rest) node.unplaced rest
  | .owner, node => ∀ {due room suffix value rest}, node.levels ≤ node.reach + room →
    settled suffix = true → Reads (.members node.unplaced) room suffix value rest →
    Reads (.named due) (node.reach + room) (node.print ++ suffix) value rest
  | .head, node => node.Leads
  | .title, node => ∀ {room parameters rest}, node.titleLevels ≤ room →
    (∀ name ∈ parameters, name.isIdentifier = true) → ends rest = true →
    Reads (.named false) room (node.print ++ (printParameters parameters ++ rest))
      (node.unplaced.calledWith ((parameters.map Token.unplaced).map Node.leaf)) rest
  | .statement, node => ∀ {room rest}, node.levels + 1 ≤ room → ends rest = true →
    (node.isBareReturn = true → startsWith .semicolon rest = true) →
    Reads .statement room (node.print ++ rest) node.unplaced rest
  | .conditional, node => node.isConditional = true ∧ ∀ {keyword room rest},
    keyword.location = {} → (keyword.kind = .keyword .if ∨ keyword.kind = .keyword .elseif) →
    node.levels ≤ room → ends rest = true →
    Reads .conditional room (keyword :: (node.print.tail ++ rest)) node.unplaced rest
  | .clause, node => ∀ {room rest}, node.levels + 1 ≤ room →
    Reads .statement room (node.print ++ rest) node.unplaced rest
  | .body, node => ∃ nodes location, node = .block nodes location ∧ ∀ {room rest},
    node.levels ≤ room →
    Reads .block room (node.print ++ rest) (Node.listUnplaced nodes, {}) rest

section Values

variable {room : Nat} {rest : List Token}

/-- A value is read as an expression, if no operator and operand follow. -/
theorem reads_value {node : Node} (legible : Legible .value node)
    (enough : node.opens + node.levels ≤ room) (ahead : startsBinary rest = false) :
    Reads .expression room (enclosed node.print ++ rest) node.unplaced rest :=
  .expressionOperand (legible enough) ahead

/-- Items with commas between them are read as a list, if each of them is read before a comma and
before the end of the list. -/
theorem reads_commas {α : Type} {bracket : Bracket} (item : Part) (write : α → List Token)
    (result : α → item.Result) {values : List α}
    (reads : ∀ value ∈ values, ∀ mark rest,
      mark.kind = .punctuation .comma ∨ mark.kind = .punctuation bracket.closer →
        startsWith .comma (write value ++ mark :: rest) = false ∧
        startsWith bracket.closer (write value ++ mark :: rest) = false ∧
        Reads item room (write value ++ mark :: rest) (result value) (mark :: rest)) :
    Reads (.list bracket item) room (commas (values.map write) ++ .ofMark bracket.closer :: rest)
      (values.map result, {}) rest := by
  have closer : (Token.ofMark bracket.closer).kind = .punctuation bracket.closer := rfl
  have comma : (Token.ofMark .comma).kind = .punctuation .comma := rfl
  cases values with
  | nil => exact .listEmpty closer
  | cons first others =>
    have items : Reads (.items bracket item) room
        (commas ((first :: others).map write) ++ .ofMark bracket.closer :: rest)
        ((first :: others).map result, {}) rest ∧
        startsWith bracket.closer (commas ((first :: others).map write) ++
          .ofMark bracket.closer :: rest) = false := by
      induction others generalizing first with
      | nil =>
        obtain ⟨noComma, noCloser, read⟩ := reads first (by simp) _ rest (.inr closer)
        exact ⟨.itemsEnd noComma read closer, noCloser⟩
      | cons second others ih =>
        obtain ⟨behind, more⟩ := ih second fun value member =>
          reads value (List.mem_cons_of_mem first member)
        obtain ⟨noComma, noCloser, read⟩ := reads first (by simp) (.ofMark .comma)
          (commas ((second :: others).map write) ++ .ofMark bracket.closer :: rest) (.inl comma)
        simp only [List.map_cons, commas, List.append_assoc, List.cons_append] at *
        exact ⟨.itemsNext noComma read comma more behind, noCloser⟩
    exact .listItems items.2 items.1

/-- A mark begins nothing binary. -/
theorem startsBinary_of_mark {token : Token} {mark : Punctuation}
    (kind : token.kind = .punctuation mark) : startsBinary (token :: rest) = false := by
  simp [startsBinary, Token.isOperator, kind]

/-- What stands behind an item of a list begins nothing binary. -/
theorem startsBinary_of_item {token : Token} {bracket : Bracket}
    (kind : token.kind = .punctuation .comma ∨ token.kind = .punctuation bracket.closer) :
    startsBinary (token :: rest) = false := by
  rcases kind with kind | kind
  · exact startsBinary_of_mark kind
  · exact startsBinary_of_mark kind

/-- Values with commas between them are read as a list. -/
theorem reads_values {bracket : Bracket} {nodes : List Node}
    (legible : ∀ node ∈ nodes, Legible .value node) (enough : Node.valueLevels nodes ≤ room) :
    Reads (.list bracket .expression) room
      (commas (Node.printEach nodes) ++ .ofMark bracket.closer :: rest)
      (Node.listUnplaced nodes, {}) rest := by
  rw [Node.printEach_eq, Node.listUnplaced_eq]
  refine reads_commas .expression _ Node.unplaced ?_
  intro node member mark rest kind
  have fits := Nat.le_trans (Node.le_valueLevels member) enough
  refine ⟨rfl, by cases bracket <;> rfl, ?_⟩
  exact reads_value (legible node member) fits (startsBinary_of_item kind)

/-- Parameters in parentheses are read as a list. -/
theorem reads_parameters {parameters : List Token}
    (names : ∀ name ∈ parameters, name.isIdentifier = true) :
    Reads (.list .paren .parameter) room
      (commas (parameters.map fun name => [name.unplaced]) ++ .ofMark .closeParen :: rest)
      (parameters.map Token.unplaced, {}) rest := by
  refine reads_commas .parameter _ Token.unplaced ?_
  intro name member mark rest kind
  have nameKind : name.unplaced.isIdentifier = true := names name member
  obtain ⟨text, same⟩ := Token.isIdentifier_iff.mp nameKind
  refine ⟨by simp [same], by simp [same, Bracket.closer], ?_⟩
  exact .parameter nameKind

/-- Names with commas between them are read as the arguments of a call. -/
theorem reads_names {parameters : List Token}
    (names : ∀ name ∈ parameters, name.isIdentifier = true) :
    Reads (.list .paren .expression) room
      (commas (parameters.map fun name => [name.unplaced]) ++ .ofMark .closeParen :: rest)
      ((parameters.map Token.unplaced).map Node.leaf, {}) rest := by
  rw [List.map_map]
  refine reads_commas .expression _ (Node.leaf ∘ Token.unplaced) ?_
  intro name member mark rest kind
  have nameKind : name.unplaced.isIdentifier = true := names name member
  obtain ⟨text, same⟩ := Token.isIdentifier_iff.mp nameKind
  have alone : leadsOn (mark :: rest) = false := by
    rcases kind with kind | kind
    · simp [leadsOn, kind]
    · simp [leadsOn, kind, Bracket.closer]
  have settles : startsBinary (mark :: rest) = false := startsBinary_of_item kind
  refine ⟨by simp [same], by simp [same, Bracket.closer], ?_⟩
  exact .expressionOperand (.namedOperand nameKind (.nameAlone nameKind (by simp) alone)) settles

/-- Entries with commas between them are read as a list. -/
theorem reads_entries {entries : List Entry}
    (forms : ∀ entry ∈ entries, entry.agrees = true)
    (legible : ∀ entry ∈ entries, ∀ part ∈ entry.nodes, Legible .value part)
    (enough : Entry.listLevels entries ≤ room) :
    Reads (.list .brace .entry) room
      (commas (Entry.printEach entries) ++ .ofMark .closeBrace :: rest)
      (Entry.listUnplaced entries, {}) rest := by
  rw [Entry.printEach_eq, Entry.listUnplaced_eq]
  refine reads_commas .entry _ Entry.unplaced ?_
  intro entry member mark rest kind
  have legible := legible entry member
  have fits := Nat.le_trans (Entry.le_listLevels member) enough
  have settles : startsBinary (mark :: rest) = false := startsBinary_of_item kind
  have noEquals : startsWith .equals (mark :: rest) = false := by
    rcases kind with kind | kind
    · simp [kind]
    · simp [kind, Bracket.closer]
  obtain ⟨key, value, rfl⟩ | ⟨name, value, named, rfl⟩ | ⟨value, rfl⟩ :=
    Entry.forms (forms entry member)
  · refine ⟨rfl, rfl, ?_⟩
    rw [Entry.keyed, Entry.levels] at fits
    obtain ⟨room, rfl⟩ := Nat.exists_eq_add_of_le' (show 1 ≤ room by omega)
    have keyLegible : Legible .value key := legible key List.mem_cons_self
    rw [Entry.unplaced_keyed]
    cases value with
    | none =>
      simp only [Entry.keyed, Entry.print, Node.printAssigned, Node.optionUnplaced,
        List.cons_append, List.append_assoc, List.nil_append]
      exact .keyed rfl (reads_value keyLegible (by omega) (startsBinary_of_mark rfl)) rfl noEquals
    | some value =>
      have valueLegible : Legible .value value := legible value (by simp [Entry.keyed, Entry.nodes])
      rw [Node.optionLevels] at fits
      simp only [Entry.keyed, Entry.print, Node.printAssigned, Node.optionUnplaced,
        List.cons_append, List.append_assoc]
      exact .keyedValue rfl (reads_value keyLegible (by omega) (startsBinary_of_mark rfl)) rfl rfl
        (reads_value valueLegible (by omega) settles)
  · have valueLegible : Legible .value value := legible value (by simp [Entry.named, Entry.nodes])
    have nameKind : name.unplaced.isIdentifier = true := named
    obtain ⟨text, same⟩ := Token.isIdentifier_iff.mp nameKind
    rw [Entry.named, Entry.levels] at fits
    simp only [Entry.named, Entry.print, Entry.unplaced, Node.print, Node.unplaced,
      Node.optionUnplaced, List.cons_append, List.nil_append]
    refine ⟨by simp [same], by simp [same, Bracket.closer], ?_⟩
    exact .namedEntry nameKind rfl (reads_value valueLegible fits settles)
  · have valueLegible : Legible .value value := legible value List.mem_cons_self
    rw [Entry.item, Entry.levels] at fits
    refine ⟨rfl, rfl, ?_⟩
    exact .item rfl rfl (reads_value valueLegible fits settles)

end Values

section Names

variable {due : Bool} {room : Nat} {suffix rest : List Token} {value : Node}

/-- An element without places is placed where the name and the index are. -/
theorem Node.unplaced_access (target index : Node) (location : Location) :
    (Node.access target index location).unplaced =
      .access target.unplaced index.unplaced (target.unplaced.location.through {}) := by
  rw [Node.location_unplaced]
  rfl

/-- An index behind a name or an element hands on to what follows the index. -/
theorem reads_accessed {target index : Node} {location : Location} (head : target.Leads)
    (legible : Legible .value index)
    (enough : (Node.access target index location).levels ≤ target.indices + room)
    (accessed : Reads (.accessed target.unplaced index.unplaced {}) room suffix value rest) :
    Reads (.named due) (target.indices + room)
      ((Node.access target index location).print ++ suffix) value rest := by
  rw [Node.levels] at enough
  obtain ⟨room, rfl⟩ := Nat.exists_eq_add_of_le' (show 1 ≤ room by omega)
  simp only [Node.print, List.append_assoc, List.cons_append, List.nil_append]
  have indexRead := reads_value legible (show index.opens + index.levels ≤ room by omega)
    (startsBinary_of_mark rfl : startsBinary (.ofMark .closeBracket :: suffix) = false)
  exact head.indexed (by omega) (.indexed rfl indexRead rfl accessed)

/-- A name hands on to what follows it. -/
theorem leads_name {token : Token} (nameKind : token.isIdentifier = true) :
    (Node.leaf token).Leads where
  indexed _ indexedRead := by
    simp only [Node.indices, Nat.zero_add]
    exact .indexedName nameKind indexedRead
  called _ callRead := by
    simp only [Node.reach, Nat.zero_add]
    exact .called nameKind callRead
  members _ settles membersRead := by
    simp only [Node.reach, Nat.zero_add]
    rw [settled, Bool.or_eq_true, Bool.or_eq_true] at settles
    rcases settles with (dot | colon) | ended
    · obtain ⟨mark, others, rfl, kind⟩ := startsWith_iff.mp dot
      exact .owner nameKind (.inl kind) membersRead
    · obtain ⟨mark, others, rfl, kind⟩ := startsWith_iff.mp colon
      exact .owner nameKind (.inr kind) membersRead
    · obtain ⟨mark, others, rfl, _⟩ := ends_cases ended
      cases membersRead with
      | membersEnd _ => exact .nameAlone nameKind (by simp) (leadsOn_of_ends ended)
      | member markKind nameKind _ =>
        have noMember := startsMember_of_ends ended
        simp [startsMember, markKind, nameKind] at noMember

/-- Tokens that settle a name do not assign, call or index it. -/
theorem startsWith_of_settled {mark : Punctuation} (settles : settled suffix = true)
    (other : mark ∉ [.dot, .colon, .closeParen, .comma, .openBrace, .semicolon]) :
    startsWith mark suffix = false := by
  rw [settled, Bool.or_eq_true, Bool.or_eq_true] at settles
  simp only [List.mem_cons, not_or] at other
  rcases settles with (dot | colon) | ended
  · exact startsWith_ne dot (Ne.symm other.1)
  · exact startsWith_ne colon (Ne.symm other.2.1)
  · exact startsWith_of_ends ended (by simpa using other.2.2)

/-- An element of a name hands on to what follows it. -/
theorem leads_access {target index : Node} {location : Location} (head : target.Leads)
    (legible : Legible .value index) : (Node.access target index location).Leads where
  indexed := by
    intro due room suffix value rest enough indexedRead
    rw [Node.unplaced_access] at indexedRead
    rw [Node.indices, Nat.add_right_comm, Nat.add_assoc] at enough ⊢
    exact reads_accessed head legible enough (.elementIndexed indexedRead)
  called := by
    intro due room suffix value rest enough callRead
    rw [Node.unplaced_access] at callRead
    exact reads_accessed head legible enough (.elementCalled callRead)
  members := by
    intro due room suffix value rest enough settles membersRead
    rw [Node.unplaced_access] at membersRead
    exact reads_accessed head legible enough
      (.element (startsWith_of_settled settles (by decide))
        (startsWith_of_settled settles (by decide)) (startsWith_of_settled settles (by decide))
        membersRead)

/-- A call hands on to what follows it. -/
theorem legible_call {callee : Node} {arguments : List Node} {location : Location}
    (head : callee.Leads) (legible : ∀ argument ∈ arguments, Legible .value argument) :
    Legible .owner (.call callee arguments location) := by
  intro due room suffix value rest enough settles membersRead
  rw [Node.levels, Node.reach] at enough
  obtain ⟨room, rfl⟩ := Nat.exists_eq_add_of_le' (show 1 ≤ room by omega)
  have argumentsRead : Reads (.list .paren .expression) room
      (commas (Node.printEach arguments) ++ .ofMark .closeParen :: suffix)
      (Node.listUnplaced arguments, {}) suffix :=
    reads_values legible (by omega)
  have place : callee.unplaced.location.through {} = {} := by rw [Node.location_unplaced]; rfl
  simp only [Node.reach, Node.print, enclosed, List.append_assoc, List.cons_append,
    List.nil_append]
  refine head.called (by omega) (.call rfl argumentsRead ?_)
  rw [place]
  exact membersRead

/-- A mark between an object and its member. -/
theorem separator?_ofMark (separator : MemberSeparator) :
    (Token.ofMark separator.mark).separator? = some separator := by
  cases separator <;> rfl

/-- A separator settles what stands before it. -/
theorem settled_separator (separator : MemberSeparator) (tokens : List Token) :
    settled (.ofMark separator.mark :: tokens) = true := by
  cases separator <;> rfl

/-- A member is read behind its object. -/
theorem reads_member {object property : Node} {separator : MemberSeparator}
    {tokens : List Token} (legible : Legible .owner object) (named : property.StartsWithName)
    (enough : object.levels ≤ object.reach + (room + 1))
    (propertyRead : Reads (.named false) room (property.print ++ tokens) value rest)
    (placed : value.location = {}) :
    Reads (.named due) (object.reach + (room + 1))
      (object.print ++ .ofMark separator.mark :: (property.print ++ tokens))
      (.member object.unplaced value separator {}) rest := by
  obtain ⟨name, others, same, nameKind⟩ := named.append tokens
  rw [same] at propertyRead ⊢
  have place : object.unplaced.location.through value.location = {} := by
    rw [Node.location_unplaced, placed]
    rfl
  have read : Reads (.members object.unplaced) (room + 1)
      (.ofMark separator.mark :: name :: others)
      (.member object.unplaced value separator (object.unplaced.location.through value.location))
      rest :=
    .member (separator?_ofMark separator) nameKind propertyRead
  rw [place] at read
  exact legible enough (settled_separator separator _) read

/-- Where nothing follows, a name, an element or a call is read as it is. -/
theorem legible_owner {node : Node} (legible : Legible .owner node) : Legible .named node := by
  intro due room rest enough ended
  have reach := node.reach_le_levels
  obtain ⟨room, rfl⟩ := Nat.exists_eq_add_of_le (show node.reach ≤ room by omega)
  have settles : settled rest = true := by rw [settled, ended, Bool.or_true]
  exact legible enough settles (.membersEnd (startsMember_of_ends ended))

/-- A member is read as what it is. -/
theorem legible_member {object property : Node} {separator : MemberSeparator}
    {location : Location} (owner : Legible .owner object) (named : property.StartsWithName)
    (legible : Legible .named property) :
    Legible .named (.member object property separator location) := by
  intro due room rest enough ended
  rw [Node.levels] at enough
  obtain ⟨room, rfl⟩ := Nat.exists_eq_add_of_le (show object.reach + 1 ≤ room by omega)
  rw [Nat.add_assoc, Nat.add_comm 1]
  simp only [Node.print, Node.unplaced, List.append_assoc, List.cons_append]
  exact reads_member owner named (by omega) (legible (by omega) ended)
    (Node.location_unplaced property)

/-- An update is read as what it is. -/
theorem legible_update {token : Token} {operator : UpdateOperator} {location : Location}
    (nameKind : token.isIdentifier = true) :
    Legible .named (.update token operator location) := by
  intro due room rest _ _
  have doubled : UpdateOperator.doubled? operator.symbol = some operator := by
    cases operator <;> rfl
  simp only [Node.print, List.cons_append, List.nil_append]
  exact .updated nameKind rfl rfl doubled

/-- An assignment is read as what it is. -/
theorem legible_assignment {token : Token} {operator : AssignmentOperator} {node : Node}
    {location : Location} (nameKind : token.isIdentifier = true) (legible : Legible .value node) :
    Legible .named (.assignment token operator node location) := by
  intro due room rest enough ended
  rw [Node.levels] at enough
  obtain ⟨room, rfl⟩ := Nat.exists_eq_add_of_le' (show 1 ≤ room by omega)
  have valueRead : Reads .expression room (enclosed node.print ++ rest) node.unplaced rest :=
    reads_value legible (by omega) (startsBinary_of_ends ended)
  have place : token.unplaced.location.through node.unplaced.location = {} :=
    node.through_unplaced rfl
  simp only [Node.print, Node.unplaced, List.cons_append, List.append_assoc]
  rw [← place]
  cases symbol : operator.symbol? with
  | none =>
    obtain rfl : operator = .assign := by cases operator <;> first | rfl | cases symbol
    exact .assigned nameKind rfl valueRead
  | some binary =>
    have compound : AssignmentOperator.compound? binary = some operator := by
      cases operator <;> cases symbol <;> rfl
    exact .combined nameKind rfl rfl compound valueRead

/-- An assignment to an element is read as what it is. -/
theorem legible_elementAssignment {target index node : Node} {location : Location}
    (head : target.Leads) (indexLegible : Legible .value index) (legible : Legible .value node) :
    Legible .named (.elementAssignment target index node location) := by
  intro due room rest enough ended
  rw [Node.levels] at enough
  obtain ⟨room, rfl⟩ := Nat.exists_eq_add_of_le (show target.indices + 1 ≤ room by omega)
  have valueRead : Reads .expression room (enclosed node.print ++ rest) node.unplaced rest :=
    reads_value legible (by omega) (startsBinary_of_ends ended)
  have place : target.unplaced.location.through node.unplaced.location = {} :=
    node.through_unplaced target.location_unplaced
  have accessed : Reads (.accessed target.unplaced index.unplaced {}) (room + 1)
      (.ofMark .equals :: (enclosed node.print ++ rest))
      (.elementAssignment target.unplaced index.unplaced node.unplaced
        (target.unplaced.location.through node.unplaced.location)) rest :=
    .elementAssigned rfl valueRead
  have fits : (Node.access target index location).levels ≤ target.indices + (room + 1) := by
    rw [Node.levels]
    omega
  have read : Reads (.named due) (target.indices + (room + 1)) _ _ rest :=
    reads_accessed head indexLegible fits accessed
  rw [place] at read
  rw [Nat.add_assoc, Nat.add_comm 1]
  simpa only [Node.print, Node.unplaced, List.cons_append, List.append_assoc, List.nil_append]
    using read

/-- A name without a member is read with its parameters as a call. -/
theorem legible_title {node : Node} (shaped : Shaped .head node) (head : node.Leads) :
    Legible .title node := by
  intro room parameters rest enough names ended
  have callRead {room} : Reads (.call node.unplaced) (room + 1) (printParameters parameters ++ rest)
      (.call node.unplaced ((parameters.map Token.unplaced).map Node.leaf)
        (node.unplaced.location.through {})) rest := by
    simp only [printParameters, enclosed, List.cons_append, List.append_assoc, List.nil_append]
    exact .call rfl (reads_names names) (.membersEnd (startsMember_of_ends ended))
  rw [shaped.calledWith_head]
  rw [Node.location_unplaced] at callRead
  have fits : node.levels ≤ room ∧ node.reach + 1 ≤ room := by
    cases shaped with
    | name nameKind => exact ⟨Nat.zero_le _, enough⟩
    | access _ _ =>
      rw [Node.titleLevels] at enough
      rw [Node.levels, Node.reach]
      omega
  obtain ⟨room, rfl⟩ := Nat.exists_eq_add_of_le fits.2
  rw [Nat.add_assoc, Nat.add_comm 1] at fits ⊢
  exact head.called fits.1 callRead

/-- A member is read with its parameters as a call of the member. -/
theorem legible_titleMember {object property : Node} {separator : MemberSeparator}
    {location : Location} (owner : Legible .owner object) (named : property.StartsWithName)
    (legible : Legible .title property) :
    Legible .title (.member object property separator location) := by
  intro room parameters rest enough names ended
  rw [Node.titleLevels] at enough
  obtain ⟨room, rfl⟩ := Nat.exists_eq_add_of_le (show object.reach + 1 ≤ room by omega)
  rw [Nat.add_assoc, Nat.add_comm 1]
  simp only [Node.print, Node.unplaced, Node.calledWith, List.append_assoc, List.cons_append]
  exact reads_member owner named (by omega) (legible (by omega) names ended)
    (Node.location_calledWith _ _)

end Names

section Operands

/-- A block is read as a body. -/
theorem reads_body {node : Node} {room : Nat} {rest : List Token} (legible : Legible .body node)
    (enough : node.levels ≤ room) :
    Reads .body room (node.print ++ rest) node.unplaced rest := by
  obtain ⟨nodes, location, rfl, read⟩ := legible
  exact .bodyBlock (read enough)

/-- A value is read in its parentheses, if it is read before the one that closes them. -/
theorem reads_enclosed {node : Node} {room : Nat} {rest : List Token}
    (ahead : startsWith .closeParen (node.print ++ .ofMark .closeParen :: rest) = false)
    (read : Reads .expression room (node.print ++ .ofMark .closeParen :: rest) node.unplaced
      (.ofMark .closeParen :: rest)) :
    Reads .operand (room + 1) (enclosed node.print ++ rest) node.unplaced rest := by
  simp only [enclosed, List.cons_append, List.append_assoc, List.nil_append]
  exact .parenthesized rfl ahead read rfl

/-- A value is legible, if it is read before the parenthesis that closes its own. -/
theorem legible_value {node : Node}
    (ahead : ∀ rest, startsWith .closeParen (node.print ++ rest) = false)
    (read : ∀ {room rest}, node.levels ≤ room →
      Reads .expression room (node.print ++ .ofMark .closeParen :: rest) node.unplaced
        (.ofMark .closeParen :: rest)) : Legible .value node := by
  intro room rest enough
  have opens := node.one_le_opens
  obtain ⟨room, rfl⟩ := Nat.exists_eq_add_of_le' (show 1 ≤ room by omega)
  exact reads_enclosed (ahead _) (read (by omega))

/-- An operand is legible as a value. -/
theorem legible_operand {node : Node}
    (ahead : ∀ rest, startsWith .closeParen (node.print ++ rest) = false)
    (read : ∀ {room rest}, node.levels ≤ room →
      Reads .operand room (node.print ++ .ofMark .closeParen :: rest) node.unplaced
        (.ofMark .closeParen :: rest)) : Legible .value node :=
  legible_value ahead fun enough => .expressionOperand (read enough) (startsBinary_of_mark rfl)

/-- A name and what it leads is read as a value. -/
theorem legible_named {node : Node} (named : node.StartsWithName) (legible : Legible .named node) :
    Legible .value node := by
  apply legible_operand
  · intro rest
    obtain ⟨name, others, same, nameKind⟩ := named.append rest
    obtain ⟨text, kind⟩ := Token.isIdentifier_iff.mp nameKind
    simp [same, kind]
  · intro room rest enough
    have read : Reads (.named false) room (node.print ++ .ofMark .closeParen :: rest) node.unplaced
        (.ofMark .closeParen :: rest) := legible (by omega) rfl
    obtain ⟨name, others, same, nameKind⟩ := named.append (.ofMark .closeParen :: rest)
    rw [same] at read ⊢
    exact .namedOperand nameKind read

/-- A token that is an operand by itself is read as a value. -/
theorem legible_literal {token : Token} (operand : token.isOperand = true) :
    Legible .value (.leaf token) := by
  apply legible_operand
  · intro rest
    have noMark : ¬ token.kind = .punctuation .closeParen := by
      intro kind
      simp [Token.isOperand, kind] at operand
    simpa [Node.print, Token.unplaced] using noMark
  · intro room rest _
    exact .literal operand

/-- Two values with an operator between them are read as one. -/
theorem legible_binary {operator : Operator} {left right : Node} {location : Location}
    (leftLegible : Legible .value left) (rightLegible : Legible .value right) :
    Legible .value (.binary operator left right location) := by
  apply legible_value
  · intro rest
    rfl
  · intro room rest enough
    rw [Node.levels] at enough
    have stop : ∀ (node : Node) (strength : Nat), Reads (.climb node strength) room
        (.ofMark .closeParen :: rest) node (.ofMark .closeParen :: rest) :=
      fun node strength => .climbEnd (by simp [Token.operator?, Token.ofMark])
    have tighter : 0 < operator.precedence := by cases operator <;> decide
    have place : left.unplaced.location.through right.unplaced.location = {} :=
      right.through_unplaced left.location_unplaced
    simp only [Node.print, Node.unplaced, List.cons_append, List.append_assoc]
    refine .expressionBinary (leftLegible (by omega)) rfl
      (.climbNext rfl tighter (rightLegible (by omega)) (stop _ _) ?_)
    rw [place]
    exact stop _ _

/-- A negation is read as what it is. -/
theorem legible_negation {node : Node} {location : Location} (legible : Legible .value node) :
    Legible .value (.negation node location) := by
  apply legible_operand
  · intro rest
    rfl
  · intro room rest enough
    rw [Node.levels] at enough
    obtain ⟨room, rfl⟩ := Nat.exists_eq_add_of_le' (show 1 ≤ room by omega)
    have place : (Token.ofMark .bang).location.through node.unplaced.location = {} :=
      node.through_unplaced rfl
    simp only [Node.print, Node.unplaced, List.cons_append]
    rw [← place]
    exact .negation rfl (reads_value legible (by omega) (startsBinary_of_mark rfl))

/-- Values in brackets are read as what they are. -/
theorem legible_array {nodes : List Node} {location : Location}
    (legible : ∀ node ∈ nodes, Legible .value node) : Legible .value (.array nodes location) := by
  apply legible_operand
  · intro rest
    rfl
  · intro room rest enough
    rw [Node.levels] at enough
    obtain ⟨room, rfl⟩ := Nat.exists_eq_add_of_le' (show 1 ≤ room by omega)
    simp only [Node.print, Node.unplaced, List.cons_append, List.append_assoc, List.nil_append]
    exact .array rfl (reads_values legible (by omega))

/-- An object literal is read as what it is. -/
theorem legible_object {entries : List Entry} {location : Location}
    (forms : ∀ entry ∈ entries, entry.agrees = true)
    (legible : ∀ entry ∈ entries, ∀ part ∈ entry.nodes, Legible .value part) :
    Legible .value (.object entries location) := by
  apply legible_operand
  · intro rest
    rfl
  · intro room rest enough
    rw [Node.levels] at enough
    obtain ⟨room, rfl⟩ := Nat.exists_eq_add_of_le' (show 1 ≤ room by omega)
    simp only [Node.print, Node.unplaced, List.cons_append, List.append_assoc, List.nil_append]
    exact .object rfl (reads_entries forms legible (by omega))

/-- An empty pair of parentheses is read as what it is. -/
theorem legible_unit {location : Location} : Legible .value (.unit location) := by
  apply legible_operand
  · intro rest
    rfl
  · intro room rest enough
    rw [Node.levels] at enough
    obtain ⟨room, rfl⟩ := Nat.exists_eq_add_of_le' (show 1 ≤ room by omega)
    exact .unit rfl rfl

/-- A function without a name is read from its keyword on. -/
theorem reads_lambda {parameters : List Token} {node : Node} {location : Location} {room : Nat}
    {rest : List Token} (names : ∀ parameter ∈ parameters, parameter.isIdentifier = true)
    (legible : Legible .body node) (enough : node.levels ≤ room) :
    Reads .lambda room ((Node.lambda parameters node location).print ++ rest)
      (Node.lambda parameters node location).unplaced rest := by
  have place : (Token.ofKeyword .fn).location.through node.unplaced.location = {} :=
    node.through_unplaced rfl
  simp only [Node.print, Node.unplaced, printParameters, enclosed, List.cons_append,
    List.append_assoc, List.nil_append]
  rw [← place]
  exact .lambda rfl rfl (reads_parameters names) (reads_body legible enough)

/-- A function without a name is read as a value. It opens a level besides the one of the
parentheses. -/
theorem legible_lambda {parameters : List Token} {node : Node} {location : Location}
    (names : ∀ parameter ∈ parameters, parameter.isIdentifier = true)
    (legible : Legible .body node) : Legible .value (.lambda parameters node location) := by
  intro room rest enough
  rw [Node.opens, Node.levels] at enough
  obtain ⟨room, rfl⟩ := Nat.exists_eq_add_of_le' (show 2 ≤ room by omega)
  have fits : node.levels ≤ room := by omega
  exact reads_enclosed rfl (.expressionOperand
    (.lambdaOperand rfl (reads_lambda names legible fits)) (startsBinary_of_mark rfl))

end Operands

end Oreo
