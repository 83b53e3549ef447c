import SymbolicLogic.Expression.Equality

/-!
# Sameness as equality of standard forms

The standard form of an expression is the same expression written in one fixed
way: every bracket pair is round, no complement glyph is recorded, substitutions
are written inline and all symbols have one class. Expressions are the same
exactly if their standard forms are equal, so sameness is an equivalence, and a
function respects sameness as soon as it commutes with taking standard forms.
-/

namespace SymbolicLogic

/-- The symbol in a class that is the same for all symbols. -/
def Symbol.standard (symbol : Symbol) : Symbol :=
  symbol.withRole .sentenceLetter

/-- Symbols are the same if they have the same standard form, that is, the same text. -/
theorem Symbol.same_iff_standard (left right : Symbol) :
    left.same right = true ↔ left.standard = right.standard := by
  rw [Symbol.same_iff]
  simp [Symbol.standard, Symbol.withRole]

@[simp] theorem Symbol.standard_standard (symbol : Symbol) :
    symbol.standard.standard = symbol.standard := rfl

@[simp] theorem Symbol.same_standard (left right : Symbol) :
    left.standard.same right.standard = left.same right := by
  rw [Bool.eq_iff_iff, Symbol.same_iff_standard, Symbol.same_iff_standard,
    Symbol.standard_standard, Symbol.standard_standard]

mutual

/-- The term as it is written in the standard way. -/
def Term.standard : Term -> Term
  | .plain shape => .plain shape.standard
  | .transformed shape target replacement _ =>
      .transformed shape.standard target.standard replacement.standard false

def TermShape.standard : TermShape -> TermShape
  | .leaf kind symbol => .leaf kind symbol.standard
  | .apply head symbol args _ =>
      .apply head symbol.standard (Term.standardAll args) .round
  | .operation symbol left right _ =>
      .operation symbol.standard left.standard right.standard .round

def Term.standardAll : List Term -> List Term
  | [] => []
  | term :: terms => term.standard :: Term.standardAll terms

end

@[simp] theorem Term.length_standardAll (terms : List Term) :
    (Term.standardAll terms).length = terms.length := by
  induction terms with
  | nil => rfl
  | cons term terms inductionHypothesis =>
      simp [Term.standardAll, inductionHypothesis]

mutual

/-- Terms are the same exactly if their standard forms are equal. -/
theorem Term.same_iff (left right : Term) :
    left.same right = true ↔ left.standard = right.standard := by
  match left, right with
  | .plain shape, .plain shape' =>
      simp [Term.same, Term.standard, TermShape.same_iff shape shape']
  | .transformed shape target replacement _,
      .transformed shape' target' replacement' _ =>
      simp [Term.same, Term.standard, TermShape.same_iff shape shape',
        Term.same_iff target target', Term.same_iff replacement replacement',
        and_assoc]
  | .plain _, .transformed .. | .transformed .., .plain _ =>
      simp [Term.same, Term.standard]

theorem TermShape.same_iff (left right : TermShape) :
    left.same right = true ↔ left.standard = right.standard := by
  match left, right with
  | .leaf kind symbol, .leaf kind' symbol' =>
      simp [TermShape.same, TermShape.standard, Symbol.same_iff_standard,
        -Symbol.same_iff]
  | .apply head symbol args _, .apply head' symbol' args' _ =>
      simp [TermShape.same, TermShape.standard, Symbol.same_iff_standard,
        -Symbol.same_iff, Term.sameAll_iff args args', and_assoc]
  | .operation symbol first second _, .operation symbol' first' second' _ =>
      simp [TermShape.same, TermShape.standard, Symbol.same_iff_standard,
        -Symbol.same_iff, Term.same_iff first first',
        Term.same_iff second second', and_assoc]
  | .leaf .., .apply .. | .leaf .., .operation .. | .apply .., .leaf ..
  | .apply .., .operation .. | .operation .., .leaf ..
  | .operation .., .apply .. =>
      simp [TermShape.same, TermShape.standard]

/-- Lists of terms are the same exactly if their standard forms are equal. -/
theorem Term.sameAll_iff (left right : List Term) :
    Term.sameAll left right = true ↔
      Term.standardAll left = Term.standardAll right := by
  match left, right with
  | [], [] => simp [Term.sameAll]
  | term :: terms, term' :: terms' =>
      simp [Term.sameAll, Term.standardAll, Term.same_iff term term',
        Term.sameAll_iff terms terms']
  | [], _ :: _ | _ :: _, [] => simp [Term.sameAll, Term.standardAll]

end

/-- The substitution as it is written in the standard way. -/
def Transform.standard (transform : Transform) : Transform :=
  ⟨transform.target.standard, transform.replacement.standard, false⟩

/-- Pending substitutions are the same exactly if their standard forms are equal. -/
theorem Transform.same_iff (left right : Transform) :
    left.same right = true ↔ left.standard = right.standard := by
  simp [Transform.same, Transform.standard, Term.same_iff]

mutual

/-- The formula as it is written in the standard way. -/
def Formula.standard : Formula -> Formula
  | .plain shape => .plain shape.standard
  | .transformed shape transform =>
      .transformed shape.standard transform.standard

def FormulaShape.standard : FormulaShape -> FormulaShape
  | .leaf kind symbol => .leaf kind symbol.standard
  | .relation symbol args => .relation symbol.standard (Term.standardAll args)
  | .comparison symbol left right _ =>
      .comparison symbol.standard left.standard right.standard none
  | .complexMeta symbol params _ =>
      .complexMeta symbol.standard (Term.standardAll params) .round
  | .negation symbol operand => .negation symbol.standard operand.standard
  | .binary symbol connective left right _ =>
      .binary symbol.standard connective left.standard right.standard none
  | .quantified symbol quantifier boundVariable restriction scope =>
      .quantified symbol.standard quantifier boundVariable.standard
        restriction.standard scope.standard

def Restriction.standard : Restriction -> Restriction
  | .unrestricted => .unrestricted
  | .bounded relation bound _ =>
      .bounded relation.standard bound.standard .round
  | .restricted divider formula _ =>
      .restricted divider.standard formula.standard .round

end

mutual

/-- Formulas are the same exactly if their standard forms are equal. -/
theorem Formula.same_iff (left right : Formula) :
    left.same right = true ↔ left.standard = right.standard := by
  match left, right with
  | .plain shape, .plain shape' =>
      simp [Formula.same, Formula.standard, FormulaShape.same_iff shape shape']
  | .transformed shape transform, .transformed shape' transform' =>
      simp [Formula.same, Formula.standard, FormulaShape.same_iff shape shape',
        Transform.same_iff]
  | .plain _, .transformed .. | .transformed .., .plain _ =>
      simp [Formula.same, Formula.standard]

theorem FormulaShape.same_iff (left right : FormulaShape) :
    left.same right = true ↔ left.standard = right.standard := by
  match left with
  | .leaf .. =>
      cases right <;>
        simp [FormulaShape.same, FormulaShape.standard,
          Symbol.same_iff_standard, -Symbol.same_iff]
  | .relation .. | .complexMeta .. =>
      cases right <;>
        simp [FormulaShape.same, FormulaShape.standard,
          Symbol.same_iff_standard, -Symbol.same_iff, Term.sameAll_iff]
  | .comparison .. =>
      cases right <;>
        simp [FormulaShape.same, FormulaShape.standard,
          Symbol.same_iff_standard, -Symbol.same_iff, Term.same_iff, and_assoc]
  | .negation symbol operand =>
      cases right <;>
        simp [FormulaShape.same, FormulaShape.standard,
          Symbol.same_iff_standard, -Symbol.same_iff,
          Formula.same_iff operand _]
  | .binary symbol connective first second _ =>
      cases right <;>
        simp [FormulaShape.same, FormulaShape.standard,
          Symbol.same_iff_standard, -Symbol.same_iff, Formula.same_iff first _,
          Formula.same_iff second _, and_assoc]
  | .quantified symbol quantifier boundVariable restriction scope =>
      cases right <;>
        simp [FormulaShape.same, FormulaShape.standard,
          Symbol.same_iff_standard, -Symbol.same_iff, Term.same_iff,
          Restriction.same_iff restriction _, Formula.same_iff scope _,
          and_assoc]

/-- Restrictions are the same exactly if their standard forms are equal. -/
theorem Restriction.same_iff (left right : Restriction) :
    left.same right = true ↔ left.standard = right.standard := by
  match left with
  | .unrestricted =>
      cases right <;> simp [Restriction.same, Restriction.standard]
  | .bounded .. =>
      cases right <;>
        simp [Restriction.same, Restriction.standard,
          Symbol.same_iff_standard, -Symbol.same_iff, Term.same_iff]
  | .restricted divider formula _ =>
      cases right <;>
        simp [Restriction.same, Restriction.standard,
          Symbol.same_iff_standard, -Symbol.same_iff,
          Formula.same_iff formula _]

end

/-- The expression as it is written in the standard way. -/
def Expression.standard : Expression -> Expression
  | .formula f => .formula f.standard
  | .term t => .term t.standard

/-- Expressions are the same exactly if their standard forms are equal. -/
theorem Expression.same_iff (left right : Expression) :
    left.same right = true ↔ left.standard = right.standard := by
  cases left <;> cases right <;>
    simp [Expression.same, Expression.standard, Formula.same_iff, Term.same_iff]

namespace Expression

variable {first second third : Expression}

theorem same_symm (same : first.same second = true) :
    second.same first = true := by
  rw [same_iff] at same ⊢
  exact same.symm

theorem same_trans
    (same : first.same second = true)
    (same' : second.same third = true) : first.same third = true := by
  rw [same_iff] at same same' ⊢
  exact same.trans same'

/-- Expressions that are the same compare alike. -/
theorem same_congr
    {left right left' right' : Expression}
    (first : left.same left' = true)
    (second : right.same right' = true) :
    left.same right = left'.same right' := by
  rw [same_iff] at first second
  rw [Bool.eq_iff_iff, same_iff, same_iff, first, second]

end Expression

mutual

/-- The standard form of a term is standard. -/
@[simp] theorem Term.standard_standard (term : Term) :
    term.standard.standard = term.standard := by
  match term with
  | .plain shape => simp [Term.standard, TermShape.standard_standard shape]
  | .transformed shape target replacement _ =>
      simp [Term.standard, TermShape.standard_standard shape,
        Term.standard_standard target, Term.standard_standard replacement]

theorem TermShape.standard_standard (shape : TermShape) :
    shape.standard.standard = shape.standard := by
  match shape with
  | .leaf .. => rfl
  | .apply _ _ args _ =>
      simp [TermShape.standard, Term.standardAll_standardAll args]
  | .operation _ left right _ =>
      simp [TermShape.standard, Term.standard_standard left,
        Term.standard_standard right]

theorem Term.standardAll_standardAll (terms : List Term) :
    Term.standardAll (Term.standardAll terms) = Term.standardAll terms := by
  match terms with
  | [] => rfl
  | term :: terms =>
      simp [Term.standardAll, Term.standard_standard term,
        Term.standardAll_standardAll terms]

end

mutual

/-- The standard form of a formula is standard. -/
@[simp] theorem Formula.standard_standard (formula : Formula) :
    formula.standard.standard = formula.standard := by
  match formula with
  | .plain shape => simp [Formula.standard, FormulaShape.standard_standard shape]
  | .transformed shape _ =>
      simp [Formula.standard, FormulaShape.standard_standard shape,
        Transform.standard]

theorem FormulaShape.standard_standard (shape : FormulaShape) :
    shape.standard.standard = shape.standard := by
  match shape with
  | .leaf .. => rfl
  | .relation .. | .complexMeta .. =>
      simp [FormulaShape.standard, Term.standardAll_standardAll]
  | .comparison .. => simp [FormulaShape.standard]
  | .negation _ operand =>
      simp [FormulaShape.standard, Formula.standard_standard operand]
  | .binary _ _ left right _ =>
      simp [FormulaShape.standard, Formula.standard_standard left,
        Formula.standard_standard right]
  | .quantified _ _ _ restriction scope =>
      simp [FormulaShape.standard, Restriction.standard_standard restriction,
        Formula.standard_standard scope]

theorem Restriction.standard_standard (restriction : Restriction) :
    restriction.standard.standard = restriction.standard := by
  match restriction with
  | .unrestricted => rfl
  | .bounded .. => simp [Restriction.standard]
  | .restricted _ formula _ =>
      simp [Restriction.standard, Formula.standard_standard formula]

end

/-- Writing an expression in the standard way does not change it. -/
theorem Expression.same_of_standard (expression : Expression) :
    expression.same expression.standard = true := by
  rw [same_iff]
  cases expression with
  | formula f => exact congrArg Expression.formula f.standard_standard.symm
  | term t => exact congrArg Expression.term t.standard_standard.symm

/-- A term in standard form compares as the term does. -/
theorem Term.same_standard (left right : Term) :
    left.standard.same right.standard = left.same right := by
  rw [Bool.eq_iff_iff, Term.same_iff, Term.same_iff, Term.standard_standard,
    Term.standard_standard]

end SymbolicLogic
