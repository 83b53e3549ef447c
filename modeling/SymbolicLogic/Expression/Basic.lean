import SymbolicLogic.Operator
import SymbolicLogic.Symbol

/-!
# Expressions

Terms and formulas are trees. Each node is a shape, and may carry one
substitution that is still to be carried out: `A[t/x]`, or `A^x_t` in the
stacked notation. Nodes keep how they were written (bracket pairs, complement
glyphs, the notation of a substitution), which only rendering looks at.
-/

namespace SymbolicLogic

/-- What a term without parts is. -/
inductive TermLeaf
  | constant
  | objectVariable
  | termMeta
  /-- Ranges over variables of the object language only. -/
  | variableMeta
  /-- Ranges over formulas and terms, written where a term stands. -/
  | anyMeta
  deriving DecidableEq, Repr

/-- What a symbol applied to a bracketed list of terms is. -/
inductive TermHead
  | function
  | complexMeta
  deriving DecidableEq, Repr

mutual

/-- A term, perhaps with a pending substitution of `replacement` for
`target`. -/
inductive Term
  | plain (shape : TermShape)
  | transformed
      (shape : TermShape)
      (target replacement : Term)
      (stacked : Bool)

/-- A term but for a pending substitution. -/
inductive TermShape
  | leaf (kind : TermLeaf) (symbol : Symbol)
  | apply
      (head : TermHead)
      (symbol : Symbol)
      (args : List Term)
      (brackets : Brackets)
  | operation
      (symbol : Symbol)
      (left right : Term)
      (brackets : Brackets)

end

/-- A pending substitution of `replacement` for `target`. -/
structure Transform where
  target : Term
  replacement : Term
  stacked : Bool

/-- What a formula without parts is. -/
inductive FormulaLeaf
  | letter
  | formulaMeta
  /-- Ranges over formulas and terms, written where a formula stands. -/
  | anyMeta
  deriving DecidableEq, Repr

mutual

/-- A formula, perhaps with a pending substitution. -/
inductive Formula
  | plain (shape : FormulaShape)
  | transformed (shape : FormulaShape) (transform : Transform)

/-- A formula but for a pending substitution. -/
inductive FormulaShape
  | leaf (kind : FormulaLeaf) (symbol : Symbol)
  | relation (symbol : Symbol) (args : List Term)
  /-- `left = right`. The complement glyph is present when the formula stands
  under a negation and was written with it, as in `a ≠ b`. -/
  | comparison
      (symbol : Symbol)
      (left right : Term)
      (complement : Option Symbol)
  | complexMeta
      (symbol : Symbol)
      (params : List Term)
      (brackets : Brackets)
  | negation (symbol : Symbol) (operand : Formula)
  /-- Brackets are absent only when an outermost formula was written without. -/
  | binary
      (symbol : Symbol)
      (connective : Connective)
      (left right : Formula)
      (brackets : Option Brackets)
  | quantified
      (symbol : Symbol)
      (quantifier : Quantifier)
      (boundVariable : Term)
      (restriction : Restriction)
      (scope : Formula)

/-- What a quantifier restricts its variable by. -/
inductive Restriction
  | unrestricted
  /-- `(∀x < t)`: the variable is compared with a term. -/
  | bounded
      (relation : Symbol)
      (bound : Term)
      (brackets : Brackets)
  /-- `(∀x: Fx)`: the variable satisfies a formula. -/
  | restricted
      (divider : Symbol)
      (formula : Formula)
      (brackets : Brackets)

end

/-- A formula or a term. -/
inductive Expression
  | formula (formula : Formula)
  | term (term : Term)

namespace Term

/-- The term but for its pending substitution. -/
def shape : Term -> TermShape
  | .plain shape => shape
  | .transformed shape .. => shape

/-- The pending substitution, if there is one. -/
def transform? : Term -> Option Transform
  | .plain _ => none
  | .transformed _ target replacement stacked =>
      some ⟨target, replacement, stacked⟩

/-- Attach a substitution. It takes the place of one that is already there. -/
def withTransform (term : Term) (transform : Transform) : Term :=
  .transformed term.shape transform.target transform.replacement
    transform.stacked

/-- Drop the pending substitution. -/
def withoutTransform (term : Term) : Term :=
  .plain term.shape

@[simp] theorem shape_plain (shape : TermShape) :
    (Term.plain shape).shape = shape := rfl

@[simp] theorem shape_withTransform (term : Term) (transform : Transform) :
    (term.withTransform transform).shape = term.shape := rfl

@[simp] theorem transform?_withTransform
    (term : Term)
    (transform : Transform) :
    (term.withTransform transform).transform? = some transform := rfl

/-- Without its substitution a term has none pending. -/
@[simp] theorem transform?_withoutTransform (term : Term) :
    term.withoutTransform.transform? = none := rfl

/-- An occurrence of a leaf of the given kind. -/
def leaf (kind : TermLeaf) (symbol : Symbol) : Term :=
  .plain (.leaf kind symbol)

/-- An object-language variable without a pending substitution. -/
def isVariable : Term -> Bool
  | .plain (.leaf .objectVariable _) => true
  | _ => false

end Term

namespace Formula

/-- The formula but for its pending substitution. -/
def shape : Formula -> FormulaShape
  | .plain shape => shape
  | .transformed shape _ => shape

/-- The pending substitution, if there is one. -/
def transform? : Formula -> Option Transform
  | .plain _ => none
  | .transformed _ transform => some transform

/-- Attach a substitution. It takes the place of one that is already there. -/
def withTransform (formula : Formula) (transform : Transform) : Formula :=
  .transformed formula.shape transform

/-- Drop the pending substitution. -/
def withoutTransform (formula : Formula) : Formula :=
  .plain formula.shape

@[simp] theorem shape_plain (shape : FormulaShape) :
    (Formula.plain shape).shape = shape := rfl

@[simp] theorem shape_withTransform
    (formula : Formula)
    (transform : Transform) :
    (formula.withTransform transform).shape = formula.shape := rfl

@[simp] theorem transform?_withTransform
    (formula : Formula)
    (transform : Transform) :
    (formula.withTransform transform).transform? = some transform := rfl

/-- Without its substitution a formula has none pending. -/
@[simp] theorem transform?_withoutTransform (formula : Formula) :
    formula.withoutTransform.transform? = none := rfl

/-- An occurrence of a leaf of the given kind. -/
def leaf (kind : FormulaLeaf) (symbol : Symbol) : Formula :=
  .plain (.leaf kind symbol)

/-- The negation of `left = right`, written with the complement glyph. -/
def complemented
    (negation relation complement : Symbol)
    (left right : Term) : Formula :=
  .plain (.negation negation
    (.plain (.comparison relation left right (some complement))))

end Formula

namespace Expression

/-- The formula, if the expression is one. -/
def formula? : Expression -> Option Formula
  | .formula f => some f
  | .term _ => none

/-- The term, if the expression is one. -/
def term? : Expression -> Option Term
  | .formula _ => none
  | .term t => some t

end Expression
end SymbolicLogic
