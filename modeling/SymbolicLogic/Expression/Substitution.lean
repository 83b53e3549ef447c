import SymbolicLogic.Expression.Equality

/-!
# Substitution

Substitution puts a term in place of the free occurrences of another. A
quantifier shields its scope and its restricting formula from substitution for
the variable it binds, its bound lies outside. The target of a pending
substitution stays as it is while its replacement is entered. Nothing is
renamed, so a variable of the replacement can be captured.
-/

namespace SymbolicLogic

mutual

/-- Put `replacement` in place of every occurrence of `target`. -/
def Term.substitute (term target replacement : Term) : Term :=
  match term with
  | .plain shape =>
      if (Term.plain shape).same target then replacement
      else .plain (shape.substitute target replacement)
  | .transformed shape target' replacement' stacked =>
      if (Term.transformed shape target' replacement' stacked).same target then
        replacement
      else
        .transformed (shape.substitute target replacement) target'
          (replacement'.substitute target replacement) stacked
termination_by structural term

def TermShape.substitute
    (shape : TermShape)
    (target replacement : Term) : TermShape :=
  match shape with
  | .leaf kind symbol => .leaf kind symbol
  | .apply head symbol args brackets =>
      .apply head symbol (Term.substituteAll args target replacement) brackets
  | .operation symbol left right brackets =>
      .operation symbol (left.substitute target replacement)
        (right.substitute target replacement) brackets
termination_by structural shape

def Term.substituteAll
    (terms : List Term)
    (target replacement : Term) : List Term :=
  match terms with
  | [] => []
  | term :: terms =>
      term.substitute target replacement ::
        Term.substituteAll terms target replacement
termination_by structural terms

end

/-- Substitution in a list of terms is made term by term. -/
theorem Term.substituteAll_eq_map
    (terms : List Term)
    (target replacement : Term) :
    Term.substituteAll terms target replacement =
      terms.map fun term => term.substitute target replacement := by
  induction terms with
  | nil => rfl
  | cons term terms ih => simp [Term.substituteAll, ih]

/-- Substitute inside a pending substitution, in its replacement only. -/
def Transform.substitute
    (transform : Transform)
    (target replacement : Term) : Transform :=
  { transform with
    replacement := transform.replacement.substitute target replacement }

mutual

/-- Put `replacement` in place of the free occurrences of `target`. -/
def Formula.substitute
    (formula : Formula)
    (target replacement : Term) : Formula :=
  match formula with
  | .plain shape => .plain (shape.substitute target replacement)
  | .transformed shape transform =>
      .transformed (shape.substitute target replacement)
        (transform.substitute target replacement)

def FormulaShape.substitute
    (shape : FormulaShape)
    (target replacement : Term) : FormulaShape :=
  match shape with
  | .leaf kind symbol => .leaf kind symbol
  | .relation symbol args =>
      .relation symbol (Term.substituteAll args target replacement)
  | .comparison symbol left right complement =>
      .comparison symbol (left.substitute target replacement)
        (right.substitute target replacement) complement
  | .complexMeta symbol params brackets =>
      .complexMeta symbol (Term.substituteAll params target replacement)
        brackets
  | .negation symbol operand =>
      .negation symbol (operand.substitute target replacement)
  | .binary symbol connective left right brackets =>
      .binary symbol connective (left.substitute target replacement)
        (right.substitute target replacement) brackets
  | .quantified symbol quantifier boundVariable restriction scope =>
      let captured := boundVariable.same target
      .quantified symbol quantifier boundVariable
        (restriction.substitute target replacement captured)
        (if captured then scope else scope.substitute target replacement)

/-- Substitute in a restriction, whose formula is shielded when the quantifier
binds the target. -/
def Restriction.substitute
    (restriction : Restriction)
    (target replacement : Term)
    (captured : Bool) : Restriction :=
  match restriction with
  | .unrestricted => .unrestricted
  | .bounded relation bound brackets =>
      .bounded relation (bound.substitute target replacement) brackets
  | .restricted divider formula brackets =>
      .restricted divider
        (if captured then formula else formula.substitute target replacement)
        brackets

end

/-- Substitute in an expression of either sort. -/
def Expression.substitute
    (expression : Expression)
    (target replacement : Term) : Expression :=
  match expression with
  | .formula f => .formula (f.substitute target replacement)
  | .term t => .term (t.substitute target replacement)

end SymbolicLogic
