import SymbolicLogic.Expression.Basic
import SymbolicLogic.Rendering.Run

/-!
# Rendering expressions

Every expression is written as a list of styled pieces, one for each symbol,
bracket and separator. The text of an expression, its runs and what a terminal
shows are all read off this one list.

A binary formula stands in its own brackets, or in round ones if it has none;
only at the root, and without a pending substitution, may the brackets be
missing. A comparison written with its complement glyph is shown by that glyph
when it stands under a negation. A pending substitution follows its carrier as
`[t/x]`, or as `^x_t` in the stacked notation.
-/

namespace SymbolicLogic
namespace Rendering

def symbol (style : Style) (s : Symbol) : TextRun :=
  ⟨style, s.text⟩

def punctuation (text : String) : TextRun :=
  ⟨.punctuation, text⟩

def space : TextRun :=
  ⟨.plain, " "⟩

/-- A character at a given nesting depth. -/
def bracket (c : Char) (depth : Nat) : TextRun :=
  ⟨.ofDepth depth, String.singleton c⟩

/-- Pieces inside a pair of brackets. -/
def enclosed
    (brackets : Brackets)
    (depth : Nat)
    (inner : List TextRun) : List TextRun :=
  bracket brackets.opening depth :: inner ++ [bracket brackets.closing depth]

/-- An operator between its two sides. -/
def spaced
    (left : List TextRun)
    (operator : Symbol)
    (right : List TextRun) : List TextRun :=
  left ++ [space, symbol .operator operator, space] ++ right

/-- Items separated by commas. -/
def separated (items : List (List TextRun)) : List TextRun :=
  (items.intersperse [punctuation ", "]).flatten

/-- A pending substitution, given the texts of its two parts. -/
def substitution
    (target replacement : String)
    (stacked : Bool) : List TextRun :=
  if stacked then
    [punctuation "^", ⟨.superscript, target⟩, punctuation "_",
      ⟨.subscript, replacement⟩]
  else
    [punctuation "[", ⟨.subscript, replacement⟩, punctuation "/",
      ⟨.superscript, target⟩, punctuation "]"]

end Rendering

open Rendering

/-- The style of a leaf: metavariables stand out from terms of the object
language. -/
def TermLeaf.style : TermLeaf -> Style
  | .constant | .objectVariable => .term
  | .termMeta | .variableMeta | .anyMeta => .metavariable

def TermHead.style : TermHead -> Style
  | .function => .term
  | .complexMeta => .metavariable

mutual

/-- The pieces of a term inside `depth` brackets. -/
def Term.pieces (term : Term) (depth : Nat) : List TextRun :=
  match term with
  | .plain shape => shape.pieces depth
  | .transformed shape target replacement stacked =>
      shape.pieces depth ++
        substitution (TextRun.plainText (target.pieces 0))
          (TextRun.plainText (replacement.pieces 0)) stacked
termination_by structural term

def TermShape.pieces (shape : TermShape) (depth : Nat) : List TextRun :=
  match shape with
  | .leaf kind s => [symbol kind.style s]
  | .apply head s args brackets =>
      symbol head.style s ::
        enclosed brackets depth (separated (Term.piecesOfAll args (depth + 1)))
  | .operation s left right brackets =>
      enclosed brackets depth
        (spaced (left.pieces (depth + 1)) s (right.pieces (depth + 1)))
termination_by structural shape

/-- The pieces of each of a list of terms. -/
def Term.piecesOfAll (terms : List Term) (depth : Nat) : List (List TextRun) :=
  match terms with
  | [] => []
  | term :: terms => term.pieces depth :: Term.piecesOfAll terms depth
termination_by structural terms

end

/-- The terms of a list are rendered one by one. -/
theorem Term.piecesOfAll_eq_map (terms : List Term) (depth : Nat) :
    Term.piecesOfAll terms depth = terms.map fun term => term.pieces depth := by
  induction terms with
  | nil => rfl
  | cons term terms ih => simp [Term.piecesOfAll, ih]

/-- The text of a term. -/
def Term.text (term : Term) : String :=
  TextRun.plainText (term.pieces 0)

/-- The pieces of a pending substitution. -/
def Transform.pieces (transform : Transform) : List TextRun :=
  substitution transform.target.text transform.replacement.text
    transform.stacked

def FormulaLeaf.style : FormulaLeaf -> Style
  | .letter => .letter
  | .formulaMeta | .anyMeta => .metavariable

/-- How a formula is shown under a negation that it absorbs: a comparison
written with its complement glyph, without a pending substitution. -/
def Formula.complementPieces? : Formula -> Option (List TextRun)
  | .plain (.comparison _ left right (some complement)) =>
      some (spaced (left.pieces 0) complement (right.pieces 0))
  | _ => none

mutual

/-- The pieces of a formula inside `depth` brackets. At the root, a binary
formula that has no brackets gets none. -/
def Formula.pieces
    (formula : Formula)
    (depth : Nat)
    (root : Bool) : List TextRun :=
  match formula with
  | .plain shape => shape.pieces depth root
  | .transformed shape transform => shape.pieces depth false ++ transform.pieces
termination_by structural formula

/-- The pieces of a shape; `bare` lets a binary formula stand without
brackets. -/
def FormulaShape.pieces
    (shape : FormulaShape)
    (depth : Nat)
    (bare : Bool) : List TextRun :=
  match shape with
  | .leaf kind s => [symbol kind.style s]
  | .relation s args =>
      symbol .relation s :: (Term.piecesOfAll args depth).flatten
  | .comparison s left right _ =>
      spaced (left.pieces depth) s (right.pieces depth)
  | .complexMeta s params brackets =>
      symbol .metavariable s ::
        enclosed brackets depth
          (separated (Term.piecesOfAll params (depth + 1)))
  | .negation s operand =>
      match operand.complementPieces? with
      | some pieces => pieces
      | none => symbol .operator s :: operand.pieces depth false
  | .binary s _ left right brackets =>
      match brackets with
      | some pair =>
          enclosed pair depth
            (spaced (left.pieces (depth + 1) false) s
              (right.pieces (depth + 1) false))
      | none =>
          if bare then
            spaced (left.pieces depth false) s (right.pieces depth false)
          else
            enclosed .round depth
              (spaced (left.pieces (depth + 1) false) s
                (right.pieces (depth + 1) false))
  | .quantified s _ boundVariable restriction scope =>
      restriction.pieces depth
          (symbol .operator s :: boundVariable.pieces depth) ++
        scope.pieces depth false
termination_by structural shape

/-- A quantifier with its variable, and what restricts it. -/
def Restriction.pieces
    (restriction : Restriction)
    (depth : Nat)
    (quantifier : List TextRun) : List TextRun :=
  match restriction with
  | .unrestricted => quantifier
  | .bounded relation bound brackets =>
      enclosed brackets depth
        (spaced quantifier relation (bound.pieces (depth + 1)))
  | .restricted divider formula brackets =>
      enclosed brackets depth
        (quantifier ++ [symbol .punctuation divider, space] ++
          formula.pieces (depth + 1) false)
termination_by structural restriction

end

/-- The text of a formula. -/
def Formula.text (formula : Formula) : String :=
  TextRun.plainText (formula.pieces 0 true)

namespace Expression

/-- The pieces of an expression. -/
def pieces : Expression -> List TextRun
  | .formula f => f.pieces 0 true
  | .term t => t.pieces 0

/-- The text of an expression. -/
def text (expression : Expression) : String :=
  TextRun.plainText expression.pieces

/-- The styled runs of an expression. -/
def runs (expression : Expression) : List TextRun :=
  TextRun.merge expression.pieces

/-- The runs of an expression show its text. -/
theorem plainText_runs (expression : Expression) :
    TextRun.plainText expression.runs = expression.text := by
  simp [runs, text]

end Expression
end SymbolicLogic
