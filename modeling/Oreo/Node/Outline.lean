import Oreo.Node.Basic

/-!
# Outlines

The outline of a tree lists its nodes from the outside in, each with its depth. Tokens that
are parts of a node are not listed. A switch lists the bodies of its cases, and at its end one
line for each case.
-/

namespace Oreo

/-- One line of an outline. -/
inductive OutlineLine where
  /-- A node at some depth. -/
  | node (depth : Nat) (shown : Node)
  /-- A case of a switch that stands one level higher. -/
  | clause (depth : Nat) (branch : Clause)

mutual

/-- The lines of a node that stands at the given depth. -/
def Node.outline (depth : Nat) (node : Node) : List OutlineLine :=
  .node depth node ::
    match node with
    | .block body _ => Node.outlineList (depth + 1) body
    | .declaration _ value _ => Node.outlineOption (depth + 1) value
    | .conditional test consequent alternate _ =>
      test.outline (depth + 1) ++ consequent.outline (depth + 1) ++
        Node.outlineOption (depth + 1) alternate
    | .whileLoop test body _ => test.outline (depth + 1) ++ body.outline (depth + 1)
    | .doWhileLoop test body _ => test.outline (depth + 1) ++ body.outline (depth + 1)
    | .forLoop initial test update body _ =>
      initial.outline (depth + 1) ++ test.outline (depth + 1) ++ update.outline (depth + 1) ++
        body.outline (depth + 1)
    | .switch subject clauses _ =>
      subject.outline (depth + 1) ++ Clause.outlineBodies (depth + 1) clauses ++
        clauses.map (.clause (depth + 1))
    | .function name _ body _ => name.outline (depth + 1) ++ body.outline (depth + 1)
    | .lambda _ body _ => body.outline (depth + 1)
    | .returns value _ => Node.outlineOption (depth + 1) value
    | .binary _ left right _ => left.outline (depth + 1) ++ right.outline (depth + 1)
    | .negation operand _ => operand.outline (depth + 1)
    | .update .. => []
    | .assignment _ _ value _ => value.outline (depth + 1)
    | .call callee arguments _ =>
      callee.outline (depth + 1) ++ Node.outlineList (depth + 1) arguments
    | .access target index _ => target.outline (depth + 1) ++ index.outline (depth + 1)
    | .elementAssignment target index value _ =>
      target.outline (depth + 1) ++ index.outline (depth + 1) ++ value.outline (depth + 1)
    | .member object property _ _ => object.outline (depth + 1) ++ property.outline (depth + 1)
    | .array elements _ => Node.outlineList (depth + 1) elements
    | .object entries _ => Entry.outlineList (depth + 1) entries
    | .unit _ => []
    | .clause ⟨_, pattern, body, _⟩ => pattern.outline (depth + 1) ++ body.outline (depth + 1)
    | .leaf _ => []

/-- The lines of several nodes at one depth. -/
def Node.outlineList (depth : Nat) : List Node → List OutlineLine
  | [] => []
  | node :: nodes => node.outline depth ++ Node.outlineList depth nodes

/-- The lines of a part that may be missing. -/
def Node.outlineOption (depth : Nat) : Option Node → List OutlineLine
  | none => []
  | some node => node.outline depth

/-- The lines of the bodies of cases. -/
def Clause.outlineBodies (depth : Nat) : List Clause → List OutlineLine
  | [] => []
  | ⟨_, _, body, _⟩ :: clauses => body.outline depth ++ Clause.outlineBodies depth clauses

/-- The lines of the values of a case. -/
def Pattern.outline (depth : Nat) : Pattern → List OutlineLine
  | .none => []
  | .single value => value.outline depth
  | .alternatives values => Node.outlineList depth values

/-- The lines of the entries of an object literal: those of the key, then those of the value. -/
def Entry.outlineList (depth : Nat) : List Entry → List OutlineLine
  | [] => []
  | ⟨key, _, _, value⟩ :: entries =>
    key.outline depth ++ Node.outlineOption depth value ++ Entry.outlineList depth entries

end

end Oreo
