import SymbolicLogic.Expression.Equality
import SymbolicLogic.Expression.Kind
import SymbolicLogic.Rendering.Expression
import SymbolicLogic.Truth.Interpretation
import SymbolicLogic.Truth.Value

/-!
# Decomposing a formula

Negations and binary formulas are taken apart, down to formulas that have been
declared basic. The parts are the nodes of a side table, where a node refers to
its own parts by their places in the table. Values are computed node by node, in
the order of nesting levels, so that a node comes after its parts.

Each part is displayed by one column: a binary formula between its operands, a
negation before its operand. A comparison shown through its complement glyph has
no column apart from that of its negation.
-/

namespace SymbolicLogic

/-- How the values of a node come about. -/
inductive NodeKind
  /-- The node is a declared basic formula. -/
  | basic (place : Nat)
  | negation (operand : Nat)
  | binary (connective : Connective) (left right : Nat)
  deriving DecidableEq, Repr

/-- A part of a formula in the side table. -/
structure Node where
  formula : Formula
  kind : NodeKind

/-- A basic part that was not declared. Its position counts the columns before
it; there is none if the part has no column. -/
structure Undeclared where
  subformula : Formula
  position : Option Nat

/-- The parts of a formula, and the places of those that are displayed, in the
order of their columns. -/
structure Decomposition where
  nodes : List Node
  displayed : List Nat

/-- A negation of the formula is written with a complement glyph. -/
def Formula.isAbsorbed (formula : Formula) : Bool :=
  formula.complementPieces?.isSome

namespace Decomposition

def empty : Decomposition :=
  ⟨[], []⟩

/-- Stands for the place of a part that has not been added yet. -/
def unset : Nat := UInt64.size - 1

/-- Add a node at the end of the table. -/
def push
    (decomposition : Decomposition)
    (formula : Formula)
    (kind : NodeKind)
    (shown : Bool) : Decomposition where
  nodes := decomposition.nodes ++ [⟨formula, kind⟩]
  displayed :=
    if shown then decomposition.displayed ++ [decomposition.nodes.length]
    else decomposition.displayed

/-- Tell a node where its parts are. -/
def link
    (decomposition : Decomposition)
    (place : Nat)
    (kind : NodeKind) : Decomposition :=
  { decomposition with
    nodes := decomposition.nodes.modify place fun node => { node with kind } }

/-- Add a formula that must have been declared basic. -/
def pushBasic
    (decomposition : Decomposition)
    (basics : List Formula)
    (formula : Formula)
    (shown : Bool) : Except Undeclared (Nat × Decomposition) :=
  match basics.findIdx? fun basic => basic.same formula with
  | some place =>
      .ok (decomposition.nodes.length,
        decomposition.push formula (.basic place) shown)
  | none =>
      .error ⟨formula,
        if shown then some decomposition.displayed.length else none⟩

end Decomposition

mutual

/-- Add a formula with its parts, and return its place. -/
def Formula.decompose
    (formula : Formula)
    (basics : List Formula)
    (shown : Bool)
    (decomposition : Decomposition) : Except Undeclared (Nat × Decomposition) :=
  match formula with
  | .plain shape => shape.decompose (.plain shape) basics shown decomposition
  | .transformed shape transform =>
      shape.decompose (.transformed shape transform) basics shown decomposition
termination_by structural formula

/-- Add a formula of the given shape with its parts, and return its place. -/
def FormulaShape.decompose
    (shape : FormulaShape)
    (formula : Formula)
    (basics : List Formula)
    (shown : Bool)
    (decomposition : Decomposition) : Except Undeclared (Nat × Decomposition) :=
  match shape with
  | .negation _ operand => do
      let place := decomposition.nodes.length
      let begun := decomposition.push formula (.negation Decomposition.unset) shown
      let (inner, added) <-
        operand.decompose basics (shown && !operand.isAbsorbed) begun
      return (place, added.link place (.negation inner))
  | .binary _ connective left right _ => do
      let (first, added) <- left.decompose basics shown decomposition
      let place := added.nodes.length
      let begun :=
        added.push formula (.binary connective first Decomposition.unset) shown
      let (second, added) <- right.decompose basics shown begun
      return (place, added.link place (.binary connective first second))
  | _ => decomposition.pushBasic basics formula shown
termination_by structural shape

end

namespace Decomposition

/-- The parts of a formula, with the place of the whole. -/
def of
    (formula : Formula)
    (basics : List Formula) : Except Undeclared (Nat × Decomposition) :=
  formula.decompose basics true .empty

/-- The nesting level of a node. -/
def levelAt (decomposition : Decomposition) (place : Nat) : Nat :=
  (decomposition.nodes[place]?.map fun node => node.formula.level).getD 0

/-- The places of the nodes, lower levels first. -/
def order (decomposition : Decomposition) : List Nat :=
  (List.range decomposition.nodes.length).mergeSort fun first second =>
    decomposition.levelAt first <= decomposition.levelAt second

/-- The values of a node in each row, given those of its parts. -/
def valuesOf
    (interpretations : List Interpretation)
    (values : List (List Bool)) : NodeKind -> List Bool
  | .basic place =>
      interpretations.map fun interpretation => interpretation.value place
  | .negation operand => (values[operand]?.getD []).map not
  | .binary connective left right =>
      List.zipWith connective.apply (values[left]?.getD [])
        (values[right]?.getD [])

/-- Compute the values of the node at a place. -/
def step
    (decomposition : Decomposition)
    (interpretations : List Interpretation)
    (values : List (List Bool))
    (place : Nat) : List (List Bool) :=
  match decomposition.nodes[place]? with
  | some node => values.set place (valuesOf interpretations values node.kind)
  | none => values

/-- The values of every node in each row. -/
def evaluate
    (decomposition : Decomposition)
    (interpretations : List Interpretation) : List (List Bool) :=
  decomposition.order.foldl (decomposition.step interpretations)
    (List.replicate decomposition.nodes.length [])

end Decomposition
end SymbolicLogic
