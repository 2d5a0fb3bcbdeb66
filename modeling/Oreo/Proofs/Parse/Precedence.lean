import Mathlib.Data.List.TakeWhile
import Oreo.Proofs.Parse.Completeness

/-!
# Precedence

Operands with operators between them are one tree, and the precedences of the operators say which.
`splitTree` says it from the outside in: the last of the weakest operators divides the row into a
left and a right part, and each part is a tree by the same rule. So tighter operators stand deeper,
and of equal ones the later stands higher.

The parser goes the other way. It climbs from the left: an operator takes for its right operand all
that binds tighter behind it, becomes a left operand itself, and the climb goes on
(`Reads.climbNext`). That both ways end at the same tree is `splitTree_climb`: what binds tighter
than an operator behind it can be put together first.

Formulas are the sources of such rows: operands are names, literals, and formulas in parentheses.
-/

namespace Oreo

/-- An operator and the operand on its right. -/
abbrev Step : Type := Operator × Node

/-- The steps before the last of the weakest operators, the step with this operator, and the steps
behind it. -/
def weakest? : List Step → Option (List Step × Step × List Step)
  | [] => none
  | step :: steps =>
    match weakest? steps with
    | none => some ([], step, [])
    | some (before, cut, behind) =>
      if step.1.precedence < cut.1.precedence then some ([], step, steps)
      else some (step :: before, cut, behind)

/-- Nothing but an empty row has no weakest operator. -/
theorem weakest?_eq_none_iff {steps : List Step} : weakest? steps = none ↔ steps = [] := by
  cases steps with
  | nil => simp [weakest?]
  | cons step steps =>
    simp only [weakest?, reduceCtorEq, iff_false]
    split
    · simp
    · split <;> simp

/-- No operator before the cut is weaker, and all behind it are tighter. -/
structure IsWeakest (steps before : List Step) (cut : Step) (behind : List Step) : Prop where
  /-- The parts make up the row. -/
  whole : steps = before ++ cut :: behind
  /-- No operator is weaker. -/
  lowest : ∀ step ∈ before, cut.1.precedence ≤ step.1.precedence
  /-- No later operator is as weak. -/
  last : ∀ step ∈ behind, cut.1.precedence < step.1.precedence

/-- What is found is the last of the weakest operators. -/
theorem isWeakest_of_weakest? {steps before behind : List Step} {cut : Step}
    (found : weakest? steps = some (before, cut, behind)) : IsWeakest steps before cut behind := by
  induction steps generalizing before cut behind with
  | nil => simp [weakest?] at found
  | cons step steps ih =>
    cases inner : weakest? steps with
    | none =>
      have empty := weakest?_eq_none_iff.mp inner
      simp only [weakest?, inner, Option.some.injEq, Prod.mk.injEq] at found
      obtain ⟨rfl, rfl, rfl⟩ := found
      exact ⟨by rw [empty]; rfl, by simp, by simp⟩
    | some parts =>
      obtain ⟨front, middle, back⟩ := parts
      have weakest := ih inner
      simp only [weakest?, inner] at found
      by_cases tighter : step.1.precedence < middle.1.precedence
      · rw [if_pos tighter] at found
        cases found
        refine ⟨rfl, by simp, fun other listed => ?_⟩
        rw [weakest.whole, List.mem_append, List.mem_cons] at listed
        rcases listed with early | rfl | late
        · exact Nat.lt_of_lt_of_le tighter (weakest.lowest other early)
        · exact tighter
        · exact Nat.lt_trans tighter (weakest.last other late)
      · rw [if_neg tighter] at found
        cases found
        refine ⟨by rw [weakest.whole, List.cons_append], fun other listed => ?_, weakest.last⟩
        rcases List.mem_cons.mp listed with rfl | early
        · exact Nat.le_of_not_lt tighter
        · exact weakest.lowest other early

/-- The last of the weakest operators is found. -/
theorem IsWeakest.weakest?_eq {steps before behind : List Step} {cut : Step}
    (weakest : IsWeakest steps before cut behind) :
    weakest? steps = some (before, cut, behind) := by
  obtain ⟨rfl, lowest, last⟩ := weakest
  induction before with
  | nil =>
    cases inner : weakest? behind with
    | none =>
      have empty := weakest?_eq_none_iff.mp inner
      simp [weakest?, empty]
    | some parts =>
      obtain ⟨front, middle, back⟩ := parts
      have among : middle ∈ behind := by
        rw [(isWeakest_of_weakest? inner).whole]
        simp
      simp [weakest?, inner, last middle among]
  | cons step before ih =>
    have later := ih (List.forall_mem_cons.mp lowest).2
    have noTighter : ¬ step.1.precedence < cut.1.precedence :=
      Nat.not_lt_of_le (List.forall_mem_cons.mp lowest).1
    simp only [List.cons_append, weakest?, later, if_neg noTighter]

/-- Two trees and an operator between them. -/
def Node.combine (operator : Operator) (left right : Node) : Node :=
  .binary operator left right (left.location.through right.location)

/-- On either side of the weakest operator there are fewer operators. -/
theorem IsWeakest.length_lt {steps before behind : List Step} {cut : Step}
    (weakest : IsWeakest steps before cut behind) :
    before.length < steps.length ∧ behind.length < steps.length := by
  rw [weakest.whole, List.length_append, List.length_cons]
  omega

/-- The tree of operands in a row: the last of the weakest operators divides it. -/
def splitTree (first : Node) (steps : List Step) : Node :=
  match found : weakest? steps with
  | none => first
  | some (before, (operator, operand), behind) =>
    have := (isWeakest_of_weakest? found).length_lt
    Node.combine operator (splitTree first before) (splitTree operand behind)
termination_by steps.length

/-- Without an operator the tree is its first operand. -/
@[simp] theorem splitTree_nil (first : Node) : splitTree first [] = first := by
  rw [splitTree]
  rfl

/-- A row is divided wherever the last of the weakest operators stands. -/
theorem splitTree_of_isWeakest {first operand : Node} {operator : Operator}
    {steps before behind : List Step}
    (weakest : IsWeakest steps before (operator, operand) behind) :
    splitTree first steps =
      Node.combine operator (splitTree first before) (splitTree operand behind) := by
  have found := weakest.weakest?_eq
  rw [splitTree]
  split
  · rename_i none
    rw [found] at none
    contradiction
  · rename_i some
    rw [found] at some
    cases some
    rfl

/-- What binds tighter than the operator before it can be put together first, up to the next
operator that does not. -/
theorem splitTree_climb {first operand : Node} {operator : Operator} {tight weak : List Step}
    (tighter : ∀ step ∈ tight, operator.precedence < step.1.precedence)
    (weaker : ∀ step, weak.head? = some step → step.1.precedence ≤ operator.precedence) :
    splitTree first ((operator, operand) :: (tight ++ weak)) =
      splitTree (Node.combine operator first (splitTree operand tight)) weak := by
  -- By induction on the length of what is left: the cut lies in it, and the part before the cut is
  -- shorter and begins with the same operator, if it is not empty.
  induction size : weak.length using Nat.strongRecOn generalizing weak with
  | ind count ih =>
    cases found : weakest? weak with
    | none =>
      obtain rfl := weakest?_eq_none_iff.mp found
      have weakest :
          IsWeakest ((operator, operand) :: (tight ++ [])) [] (operator, operand) tight :=
        ⟨by simp, by simp, tighter⟩
      rw [splitTree_of_isWeakest weakest, splitTree_nil, splitTree_nil]
    | some parts =>
      obtain ⟨before, ⟨cut, right⟩, behind⟩ := parts
      have weakest := isWeakest_of_weakest? found
      have start : ∀ step, before.head? = some step → step.1.precedence ≤ operator.precedence := by
        intro step ahead
        apply weaker
        rw [weakest.whole, List.head?_append, ahead]
        rfl
      have bound : cut.precedence ≤ operator.precedence := by
        cases before with
        | nil => exact weaker (cut, right) (by rw [weakest.whole]; rfl)
        | cons step before =>
          have low := weakest.lowest step List.mem_cons_self
          exact Nat.le_trans low (start step rfl)
      have whole : IsWeakest ((operator, operand) :: (tight ++ weak))
          ((operator, operand) :: (tight ++ before)) (cut, right) behind := by
        refine ⟨by rw [weakest.whole]; simp, ?_, weakest.last⟩
        intro step listed
        rcases List.mem_cons.mp listed with rfl | listed
        · exact bound
        rcases List.mem_append.mp listed with early | late
        · exact Nat.le_of_lt (Nat.lt_of_le_of_lt bound (tighter step early))
        · exact weakest.lowest step late
      have shorter : before.length < count := size ▸ weakest.length_lt.1
      rw [splitTree_of_isWeakest whole, splitTree_of_isWeakest weakest, ih _ shorter start rfl]

/-- Whether the token is a number, a text, a truth value or a name. -/
def Token.isLeaf (token : Token) : Bool :=
  match token.kind with
  | .number _ | .string .. | .boolean _ | .identifier _ => true
  | _ => false

mutual

/-- An operand of a formula. -/
inductive Operand where
  /-- A number, a text, a truth value or a name. -/
  | leaf (token : Token) (isLeaf : token.isLeaf = true)
  /-- A formula in parentheses, with their places. -/
  | group (opened : Location) (inner : Formula) (closed : Location)

/-- Operands with operators between them. -/
structure Formula where
  /-- The first operand. -/
  first : Operand
  /-- The operators and the operands behind them. -/
  links : List Link

/-- An operator with its place, and the operand behind it. -/
structure Link where
  /-- The operator. -/
  operator : Operator
  /-- Where it stands. -/
  place : Location
  /-- The operand behind it. -/
  operand : Operand

end

mutual

/-- The tokens of an operand. -/
def Operand.tokens : Operand → List Token
  | .leaf token _ => [token]
  | .group opened inner closed =>
    ⟨.punctuation .openParen, opened⟩ ::
      (inner.tokens ++ [⟨.punctuation .closeParen, closed⟩])

/-- The tokens of a formula. -/
def Formula.tokens : Formula → List Token
  | ⟨first, links⟩ => first.tokens ++ Link.tokens links

/-- The tokens of links, in order. -/
def Link.tokens : List Link → List Token
  | [] => []
  | ⟨operator, place, operand⟩ :: links =>
    ⟨.operator operator, place⟩ :: (operand.tokens ++ Link.tokens links)

end

mutual

/-- The tree of an operand. Parentheses leave no node. -/
def Operand.tree : Operand → Node
  | .leaf token _ => .leaf token
  | .group _ inner _ => inner.tree

/-- The tree of a formula: each row of operands is divided at the last of its weakest operators. -/
def Formula.tree : Formula → Node
  | ⟨first, links⟩ => splitTree first.tree (Link.steps links)

/-- The operators of links, with the trees of their operands. -/
def Link.steps : List Link → List Step
  | [] => []
  | ⟨operator, _, operand⟩ :: links => (operator, operand.tree) :: Link.steps links

end

mutual

/-- How deep parentheses are nested in an operand. -/
def Operand.nesting : Operand → Nat
  | .leaf .. => 0
  | .group _ inner _ => inner.nesting + 1

/-- How deep parentheses are nested in a formula. -/
def Formula.nesting : Formula → Nat
  | ⟨first, links⟩ => max first.nesting (Link.nesting links)

/-- How deep parentheses are nested in links. -/
def Link.nesting : List Link → Nat
  | [] => 0
  | ⟨_, _, operand⟩ :: links => max operand.nesting (Link.nesting links)

end

/-- What may stand behind a formula: neither an operator, nor anything to which a name leads on. -/
structure Stops (rest : List Token) : Prop where
  /-- No operator follows. -/
  noOperator : rest.head?.any Token.isOperator = false
  /-- A name does not lead on. -/
  alone : leadsOn rest = false

/-- The operand is read, whatever stands behind it to which a name does not lead on. -/
def Operand.Readable (room : Nat) (operand : Operand) : Prop :=
  ∀ rest, leadsOn rest = false → Reads .operand room (operand.tokens ++ rest) operand.tree rest

/-- What is no operator is no operator that the language knows. -/
theorem Token.operator?_eq_none {token : Token} (notOperator : token.isOperator = false) :
    token.operator? = none := by
  obtain ⟨kind, location⟩ := token
  cases kind with
  | operator operator => cases notOperator
  | _ => rfl

/-- The end of the tokens stops an expression. -/
theorem stops_nil : Stops [] := ⟨rfl, rfl⟩

/-- Where an expression stops there is no binary operator ahead. -/
theorem Stops.startsBinary {rest : List Token} (stops : Stops rest) :
    startsBinary rest = false := by
  cases rest with
  | nil => rfl
  | cons token others =>
    have notOperator : token.isOperator = false := stops.noOperator
    simp [Oreo.startsBinary, notOperator]

/-- No operator that the language knows stands behind a formula. -/
theorem Stops.operator?_eq_none {rest : List Token} (stops : Stops rest) :
    rest.head?.bind Token.operator? = none := by
  cases rest with
  | nil => rfl
  | cons token others => exact Token.operator?_eq_none stops.noOperator

/-- A semicolon or a closing parenthesis stops an expression. -/
theorem stops_of_mark {rest : List Token} {mark : Punctuation}
    (ahead : startsWith mark rest = true) (ends : mark = .semicolon ∨ mark = .closeParen) :
    Stops rest := by
  obtain ⟨token, others, rfl, kind⟩ := startsWith_iff.mp ahead
  rcases ends with rfl | rfl <;>
    exact ⟨by simp [Token.isOperator, kind], by simp [leadsOn, kind]⟩

/-- An operand begins with a token that is no operator, and no mark but a parenthesis. -/
theorem Operand.tokens_eq_cons (operand : Operand) :
    ∃ token others, operand.tokens = token :: others ∧ token.isOperator = false ∧
      ∀ mark, mark ≠ .openParen → token.kind ≠ .punctuation mark := by
  cases operand with
  | leaf token isLeaf =>
    refine ⟨token, [], by rw [Operand.tokens], ?_⟩
    obtain ⟨kind, location⟩ := token
    cases kind with
    | number | string | boolean | identifier => exact ⟨rfl, by simp⟩
    | _ => cases isLeaf
  | group opened inner closed =>
    refine ⟨_, _, by rw [Operand.tokens], rfl, ?_⟩
    intro mark other same
    exact other (Token.Kind.punctuation.inj same).symm

/-- An operator with an operand behind it is neither doubled nor before an equals sign. -/
theorem Link.leadsOn_tokens {rest : List Token} (stops : Stops rest) (links : List Link) :
    leadsOn (Link.tokens links ++ rest) = false := by
  cases links with
  | nil => exact stops.alone
  | cons link links =>
    obtain ⟨operator, place, operand⟩ := link
    obtain ⟨token, others, tokens, notOperator, notMark⟩ := operand.tokens_eq_cons
    have noEquals := notMark .equals (by decide)
    have noSymbol := Token.operator?_eq_none notOperator
    simp [Link.tokens, leadsOn, tokens, noEquals, noSymbol]

/-- An operator with an operand behind it begins a row. -/
theorem Link.startsBinary_tokens (link : Link) (links : List Link) (rest : List Token) :
    startsBinary (Link.tokens (link :: links) ++ rest) = true := by
  obtain ⟨operator, place, operand⟩ := link
  obtain ⟨token, others, tokens, notOperator, _⟩ := operand.tokens_eq_cons
  have symbol : Token.isOperator ⟨.operator operator, place⟩ = true := rfl
  simp [Link.tokens, startsBinary, tokens, notOperator, symbol]

/-- The steps of links are their operators with the trees of their operands. -/
theorem Link.steps_eq (links : List Link) :
    Link.steps links = links.map fun link => (link.operator, link.operand.tree) := by
  induction links with
  | nil => rfl
  | cons link links ih =>
    obtain ⟨operator, place, operand⟩ := link
    rw [Link.steps, ih, List.map_cons]

/-- A leaf is read alone. -/
theorem readable_leaf {token : Token} (isLeaf : token.isLeaf = true) (room : Nat) :
    (Operand.leaf token isLeaf).Readable room := by
  intro rest alone
  rw [Operand.tokens, Operand.tree]
  cases named : token.isIdentifier with
  | true =>
    refine .namedOperand named ?_
    cases rest with
    | nil => exact .nameLast named
    | cons follower others => exact .nameAlone named (List.cons_ne_nil _ _) alone
  | false =>
    refine .literal ?_
    obtain ⟨kind, location⟩ := token
    cases kind with
    | number | string | boolean => rfl
    | identifier => cases named
    | _ => cases isLeaf

/-- The links whose operators bind tighter than the strength, up to the first that does not. -/
def Link.tighter (strength : Nat) (links : List Link) : List Link :=
  links.takeWhile (strength < ·.operator.precedence)

/-- The links that are left when those are taken. -/
def Link.others (strength : Nat) (links : List Link) : List Link :=
  links.dropWhile (strength < ·.operator.precedence)

section

variable {strength : Nat} {link : Link}

/-- A link that binds tighter than the strength is taken, with what binds tighter than itself, and
the climb goes on behind that. -/
theorem Link.tighter_cons (tight : strength < link.operator.precedence) (links : List Link) :
    Link.tighter strength (link :: links) =
        link :: (Link.tighter link.operator.precedence links ++
          Link.tighter strength (Link.others link.operator.precedence links)) ∧
      Link.others strength (link :: links) =
        Link.others strength (Link.others link.operator.precedence links) := by
  let inner := Link.tighter link.operator.precedence links
  let outer := Link.others link.operator.precedence links
  have whole : inner ++ outer = links := List.takeWhile_append_dropWhile
  have taken : ∀ other ∈ inner, decide (strength < other.operator.precedence) = true := by
    intro other listed
    have above := List.mem_takeWhile_imp listed
    simp only [decide_eq_true_eq] at above ⊢
    omega
  constructor
  · calc
      Link.tighter strength (link :: links) = link :: Link.tighter strength links :=
        List.takeWhile_cons_of_pos (by simpa using tight)
      _ = link :: Link.tighter strength (inner ++ outer) := by rw [whole]
      _ = link :: (inner ++ Link.tighter strength outer) :=
        congrArg (link :: ·) (List.takeWhile_append_of_pos taken)
  · calc
      Link.others strength (link :: links) = Link.others strength links :=
        List.dropWhile_cons_of_pos (by simpa using tight)
      _ = Link.others strength (inner ++ outer) := by rw [whole]
      _ = Link.others strength outer := List.dropWhile_append_of_pos taken

/-- Behind the links that bind tighter than the strength stands one that does not. -/
theorem Link.head?_others {limit : Nat} {links : List Link}
    (ahead : (Link.tighter strength (Link.others limit links)).head? = some link) :
    link.operator.precedence ≤ limit := by
  have first : (Link.others limit links).head? = some link := by
    rw [Link.tighter, List.head?_takeWhile] at ahead
    exact (Option.filter_eq_some_iff.mp ahead).1
  have stopped := List.head?_dropWhile_not (limit < ·.operator.precedence) links
  rw [Link.others] at first
  simpa [first] using stopped

/-- The tree of the links that are taken: the first one with what binds tighter behind it is put
together with the left operand, and the others follow. -/
theorem splitTree_tighter (tight : strength < link.operator.precedence) (left : Node)
    (links : List Link) :
    splitTree left (Link.steps (Link.tighter strength (link :: links))) =
      splitTree (Node.combine link.operator left (splitTree link.operand.tree
          (Link.steps (Link.tighter link.operator.precedence links))))
        (Link.steps (Link.tighter strength (Link.others link.operator.precedence links))) := by
  have tighter : ∀ step ∈ Link.steps (Link.tighter link.operator.precedence links),
      link.operator.precedence < step.1.precedence := by
    intro step listed
    rw [Link.steps_eq] at listed
    obtain ⟨other, among, rfl⟩ := List.mem_map.mp listed
    simpa using List.mem_takeWhile_imp among
  have weaker : ∀ step,
      (Link.steps (Link.tighter strength
        (Link.others link.operator.precedence links))).head? = some step →
      step.1.precedence ≤ link.operator.precedence := by
    intro step ahead
    rw [Link.steps_eq, List.head?_map] at ahead
    obtain ⟨other, first, rfl⟩ := Option.map_eq_some_iff.mp ahead
    exact Link.head?_others first
  have row : Link.steps (Link.tighter strength (link :: links)) =
      (link.operator, link.operand.tree) ::
        (Link.steps (Link.tighter link.operator.precedence links) ++
          Link.steps (Link.tighter strength (Link.others link.operator.precedence links))) := by
    rw [(Link.tighter_cons tight links).1]
    simp only [Link.steps_eq, List.map_cons, List.map_append]
  rw [row, splitTree_climb tighter weaker]

end

/-- A climb takes the links that bind tighter than its strength, and makes of them and the left
operand the tree that splitting makes. -/
theorem reads_climb {room : Nat} {rest : List Token} (stops : Stops rest) {links : List Link}
    (readable : ∀ link ∈ links, link.operand.Readable room) (left : Node) (strength : Nat) :
    Reads (.climb left strength) room (Link.tokens links ++ rest)
      (splitTree left (Link.steps (Link.tighter strength links)))
      (Link.tokens (Link.others strength links) ++ rest) := by
  induction size : links.length using Nat.strongRecOn generalizing links left strength with
  | ind count ih =>
    cases links with
    | nil =>
      simp only [Link.tighter, Link.others, List.takeWhile_nil, List.dropWhile_nil, Link.steps,
        splitTree_nil]
      refine .climbEnd fun operator ahead => ?_
      rw [Link.tokens, List.nil_append, stops.operator?_eq_none] at ahead
      contradiction
    | cons link links =>
      obtain ⟨operator, place, operand⟩ := link
      obtain ⟨first, later⟩ := List.forall_mem_cons.mp readable
      by_cases tight : strength < operator.precedence
      · let outer := Link.others operator.precedence links
        have suffix : outer <:+ links := List.dropWhile_suffix _
        have shorter : outer.length < count := by
          rw [← size, List.length_cons]
          exact Nat.lt_succ_of_le suffix.length_le
        have fewer : links.length < count := by
          rw [← size, List.length_cons]
          exact Nat.lt_succ_self _
        have right := ih _ fewer later operand.tree operator.precedence rfl
        have onward := ih _ shorter (fun link listed => later link (suffix.subset listed))
          (Node.combine operator left
            (splitTree operand.tree (Link.steps (Link.tighter operator.precedence links))))
          strength rfl
        have dropped : Link.others strength (⟨operator, place, operand⟩ :: links) =
            Link.others strength outer := (Link.tighter_cons tight links).2
        have behind := first _ (Link.leadsOn_tokens stops links)
        rw [splitTree_tighter tight, dropped, Link.tokens, List.cons_append, List.append_assoc]
        exact .climbNext rfl tight behind right onward
      · have stays : Link.tighter strength (⟨operator, place, operand⟩ :: links) = [] :=
          List.takeWhile_cons_of_neg (by simpa using tight)
        have left : Link.others strength (⟨operator, place, operand⟩ :: links) =
            ⟨operator, place, operand⟩ :: links :=
          List.dropWhile_cons_of_neg (by simpa using tight)
        rw [stays, left, Link.steps, splitTree_nil]
        refine .climbEnd fun symbol ahead => ?_
        rw [Link.tokens] at ahead
        cases ahead
        omega

/-- All operators bind tighter than nothing, so a climb without strength takes all links. -/
theorem Link.tighter_zero (links : List Link) :
    Link.tighter 0 links = links ∧ Link.others 0 links = [] := by
  have positive : ∀ link ∈ links, decide (0 < link.operator.precedence) = true := by
    intro link _
    cases link.operator <;> rfl
  exact ⟨List.takeWhile_eq_self_iff.mpr positive, List.dropWhile_eq_nil_iff.mpr positive⟩

/-- A formula is read if its operands are. -/
theorem reads_formula {room : Nat} {rest : List Token} {first : Operand} {links : List Link}
    (stops : Stops rest) (operand : first.Readable room)
    (operands : ∀ link ∈ links, link.operand.Readable room) :
    Reads .expression room ((Formula.mk first links).tokens ++ rest)
      (Formula.mk first links).tree rest := by
  have start := operand _ (Link.leadsOn_tokens stops links)
  rw [Formula.tokens, Formula.tree, List.append_assoc]
  cases links with
  | nil =>
    rw [Link.steps, splitTree_nil]
    exact .expressionOperand start stops.startsBinary
  | cons link links =>
    have climb := reads_climb stops operands first.tree 0
    rw [(Link.tighter_zero _).1, (Link.tighter_zero _).2, Link.tokens, List.nil_append] at climb
    exact .expressionBinary start (Link.startsBinary_tokens link links rest) climb

/-- A formula in parentheses is read one level deeper. -/
theorem readable_group {room : Nat} {inner : Formula}
    (read : ∀ rest, Stops rest → Reads .expression room (inner.tokens ++ rest) inner.tree rest)
    (opened closed : Location) : (Operand.group opened inner closed).Readable (room + 1) := by
  intro rest _
  have closing : Stops (⟨.punctuation .closeParen, closed⟩ :: rest) :=
    stops_of_mark rfl (.inr rfl)
  have ahead : startsWith .closeParen
      (inner.tokens ++ ⟨.punctuation .closeParen, closed⟩ :: rest) = false := by
    obtain ⟨first, links⟩ := inner
    obtain ⟨token, others, tokens, _, notMark⟩ := first.tokens_eq_cons
    simp [Formula.tokens, tokens, notMark .closeParen (by decide)]
  rw [Operand.tokens, Operand.tree, List.cons_append, List.append_assoc]
  exact .parenthesized rfl ahead (read _ closing) rfl

mutual

/-- An operand is read in any room that its nesting fits into. -/
theorem Operand.readable (operand : Operand) {room : Nat} (enough : operand.nesting ≤ room) :
    operand.Readable room := by
  match operand with
  | .leaf token isLeaf => exact readable_leaf isLeaf room
  | .group opened inner closed =>
    rw [Operand.nesting] at enough
    obtain ⟨room, rfl⟩ : ∃ less, room = less + 1 := ⟨room - 1, by omega⟩
    exact readable_group (fun rest stops => inner.reads (by omega) stops) opened closed

/-- A formula is read as its tree in any room that its nesting fits into. -/
theorem Formula.reads (formula : Formula) {room : Nat} {rest : List Token}
    (enough : formula.nesting ≤ room) (stops : Stops rest) :
    Reads .expression room (formula.tokens ++ rest) formula.tree rest := by
  match formula with
  | ⟨first, links⟩ =>
    rw [Formula.nesting] at enough
    exact reads_formula stops (first.readable (by omega)) (Link.readable links (by omega))

/-- The operands of links are read in any room that their nesting fits into. -/
theorem Link.readable (links : List Link) {room : Nat} (enough : Link.nesting links ≤ room) :
    ∀ link ∈ links, link.operand.Readable room := by
  match links with
  | [] => exact List.forall_mem_nil _
  | ⟨operator, place, operand⟩ :: links =>
    rw [Link.nesting] at enough
    exact List.forall_mem_cons.mpr
      ⟨operand.readable (by omega), Link.readable links (by omega)⟩

end

/-- Precedence climbing makes the tree that splitting makes. Wherever a formula stands before a
semicolon or the end of the source, and there is room for as many levels as its parentheses are
nested, reading an expression succeeds, passes the tokens of the formula and no more, and answers
the tree that is divided, at each level, at the last of the weakest operators. -/
theorem expression_of_formula (formula : Formula) (scope : Scope) (rest : List Token)
    (enough : formula.nesting ≤ scope.room)
    (behind : rest = [] ∨ startsWith .semicolon rest = true) :
    (Parser.expression scope (formula.tokens ++ rest)).outcome = .ok formula.tree ∧
      (Parser.expression scope (formula.tokens ++ rest)).rest = rest := by
  have stops : Stops rest := by
    rcases behind with rfl | ahead
    · exact stops_nil
    · exact stops_of_mark ahead (.inl rfl)
  have covers := Grammar.covers_full (formula.tokens ++ rest).length
  exact covers.expressionRule (Nat.le_refl _) (formula.reads enough stops)

/-- In `a - b * (c || d) + e;` the sum comes last, and the parentheses need the one level that is
left. -/
theorem expression_of_formula_group :
    let name (text : String) : Token := ⟨.identifier text, {}⟩
    let formula : Formula :=
      ⟨.leaf (name "a") rfl, [⟨.subtract, {}, .leaf (name "b") rfl⟩,
        ⟨.multiply, {}, .group {} ⟨.leaf (name "c") rfl, [⟨.or, {}, .leaf (name "d") rfl⟩]⟩ {}⟩,
        ⟨.add, {}, .leaf (name "e") rfl⟩]⟩
    let scope : Scope := ⟨256, 1, none⟩
    let rest : List Token := [⟨.punctuation .semicolon, {}⟩]
    formula.nesting ≤ scope.room ∧
      formula.tree = .binary .add
        (.binary .subtract (.leaf (name "a"))
          (.binary .multiply (.leaf (name "b"))
            (.binary .or (.leaf (name "c")) (.leaf (name "d")) {}) {}) {})
        (.leaf (name "e")) {} ∧
      (Parser.expression scope (formula.tokens ++ rest)).outcome = .ok formula.tree ∧
      (Parser.expression scope (formula.tokens ++ rest)).rest = rest := by
  intro name formula scope rest
  have enough : formula.nesting ≤ scope.room := by decide
  refine ⟨enough, ?_, expression_of_formula formula scope rest enough (.inr rfl)⟩
  simp [formula, Formula.tree, Operand.tree, Link.steps, splitTree, weakest?, Operator.precedence,
    Node.combine, Node.location, Location.through, name]

end Oreo
