import SymbolicLogic.Expression.Kind
import SymbolicLogic.Expression.Substitution
import SymbolicLogic.Session.Basic

/-!
# Readings of an expression

A reading rebuilds an expression from its leaves. It says what metavariables
stand for, and what becomes of a pending substitution whose carrier and parts
have been read. A metavariable without a meaning of the right sort stays.

Carrying out reads pending substitutions only: each one whose carrier and parts
are free of metavariables is performed, the others are kept.
-/

namespace SymbolicLogic

/-- What metavariables and pending substitutions become. -/
structure Reading where
  /-- The meaning of a metavariable, given its parameters as they are written
  and as they have been read. -/
  meaning :
    MetaFamily -> Symbol -> (written read : List Term) -> Option Expression
  attachTerm : Term -> Transform -> Term
  attachFormula : Formula -> Transform -> Formula

mutual

/-- A term as it is read. -/
def Term.readBy (term : Term) (reading : Reading) : Term :=
  match term with
  | .plain shape => shape.readBy reading
  | .transformed shape target replacement stacked =>
      reading.attachTerm (shape.readBy reading)
        ⟨target.readBy reading, replacement.readBy reading, stacked⟩
termination_by structural term

def TermShape.readBy (shape : TermShape) (reading : Reading) : Term :=
  match shape with
  | .leaf kind symbol =>
      ((kind.family?.bind fun family =>
        reading.meaning family symbol [] []).bind Expression.term?).getD
          (.leaf kind symbol)
  | .apply .function symbol args brackets =>
      .plain (.apply .function symbol (Term.readAllBy args reading) brackets)
  | .apply .complexMeta symbol args brackets =>
      let read := Term.readAllBy args reading
      ((reading.meaning .complexTerm symbol args read).bind
        Expression.term?).getD
          (.plain (.apply .complexMeta symbol read brackets))
  | .operation symbol left right brackets =>
      .plain
        (.operation symbol (left.readBy reading) (right.readBy reading)
          brackets)
termination_by structural shape

def Term.readAllBy (terms : List Term) (reading : Reading) : List Term :=
  match terms with
  | [] => []
  | term :: terms => term.readBy reading :: Term.readAllBy terms reading
termination_by structural terms

end

/-- A list of terms is read term by term. -/
theorem Term.readAllBy_eq_map (terms : List Term) (reading : Reading) :
    Term.readAllBy terms reading =
      terms.map fun term => term.readBy reading := by
  induction terms with
  | nil => rfl
  | cons term terms ih => simp [Term.readAllBy, ih]

/-- A pending substitution with both parts read. -/
def Transform.readBy (transform : Transform) (reading : Reading) : Transform :=
  ⟨transform.target.readBy reading, transform.replacement.readBy reading,
    transform.stacked⟩

mutual

/-- A formula as it is read. -/
def Formula.readBy (formula : Formula) (reading : Reading) : Formula :=
  match formula with
  | .plain shape => shape.readBy reading
  | .transformed shape transform =>
      reading.attachFormula (shape.readBy reading) (transform.readBy reading)
termination_by structural formula

def FormulaShape.readBy (shape : FormulaShape) (reading : Reading) : Formula :=
  match shape with
  | .leaf kind symbol =>
      ((kind.family?.bind fun family =>
        reading.meaning family symbol [] []).bind Expression.formula?).getD
          (.leaf kind symbol)
  | .relation symbol args => .plain (.relation symbol (Term.readAllBy args reading))
  | .comparison symbol left right complement =>
      .plain
        (.comparison symbol (left.readBy reading) (right.readBy reading)
          complement)
  | .complexMeta symbol params brackets =>
      let read := Term.readAllBy params reading
      ((reading.meaning .complexFormula symbol params read).bind
        Expression.formula?).getD (.plain (.complexMeta symbol read brackets))
  | .negation symbol operand => .plain (.negation symbol (operand.readBy reading))
  | .binary symbol connective left right brackets =>
      .plain
        (.binary symbol connective (left.readBy reading)
          (right.readBy reading) brackets)
  | .quantified symbol quantifier boundVariable restriction scope =>
      .plain
        (.quantified symbol quantifier (boundVariable.readBy reading)
          (restriction.readBy reading) (scope.readBy reading))
termination_by structural shape

def Restriction.readBy
    (restriction : Restriction)
    (reading : Reading) : Restriction :=
  match restriction with
  | .unrestricted => .unrestricted
  | .bounded relation bound brackets =>
      .bounded relation (bound.readBy reading) brackets
  | .restricted divider formula brackets =>
      .restricted divider (formula.readBy reading) brackets
termination_by structural restriction

end

/-- An expression as it is read. -/
def Expression.readBy
    (expression : Expression)
    (reading : Reading) : Expression :=
  match expression with
  | .formula f => .formula (f.readBy reading)
  | .term t => .term (t.readBy reading)

/-- Perform a substitution if no metavariable is in the way, or else attach
it. -/
def Term.settle (carrier : Term) (transform : Transform) : Term :=
  if carrier.isSchematic || transform.isSchematic then
    carrier.withTransform transform
  else carrier.substitute transform.target transform.replacement

/-- Perform a substitution if no metavariable is in the way, or else attach
it. -/
def Formula.settle (carrier : Formula) (transform : Transform) : Formula :=
  if carrier.isSchematic || transform.isSchematic then
    carrier.withTransform transform
  else carrier.substitute transform.target transform.replacement

namespace Reading

/-- Perform pending substitutions and leave metavariables as they are. -/
def carryOut : Reading where
  meaning := fun _ _ _ _ => none
  attachTerm := Term.settle
  attachFormula := Formula.settle

end Reading

/-- The term with its pending substitutions carried out. -/
def Term.carryOut (term : Term) : Term :=
  term.readBy .carryOut

/-- The formula with its pending substitutions carried out. -/
def Formula.carryOut (formula : Formula) : Formula :=
  formula.readBy .carryOut

/-- The expression with its pending substitutions carried out. -/
def Expression.carryOut (expression : Expression) : Expression :=
  expression.readBy .carryOut

end SymbolicLogic
