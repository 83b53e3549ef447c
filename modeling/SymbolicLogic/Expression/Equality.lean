import SymbolicLogic.Expression.Basic

/-!
# Sameness of expressions

Two expressions are the same when they have the same structure, pending
substitutions included. How they are written does not count: bracket pairs,
complement glyphs, the notation of a substitution and the classes of symbols
are all passed over.
-/

namespace SymbolicLogic

mutual

/-- Terms are the same up to how they are written. -/
def Term.same : Term -> Term -> Bool
  | .plain left, .plain right => left.same right
  | .transformed left target replacement _,
      .transformed right target' replacement' _ =>
      left.same right && target.same target' && replacement.same replacement'
  | _, _ => false

/-- Shapes of terms are the same up to how they are written. -/
def TermShape.same : TermShape -> TermShape -> Bool
  | .leaf kind symbol, .leaf kind' symbol' =>
      kind = kind' && symbol.same symbol'
  | .apply head symbol args _, .apply head' symbol' args' _ =>
      head = head' && symbol.same symbol' && Term.sameAll args args'
  | .operation symbol left right _, .operation symbol' left' right' _ =>
      symbol.same symbol' && left.same left' && right.same right'
  | _, _ => false

/-- Lists of terms are the same place by place. -/
def Term.sameAll : List Term -> List Term -> Bool
  | [], [] => true
  | term :: terms, term' :: terms' =>
      term.same term' && Term.sameAll terms terms'
  | _, _ => false

end

mutual

/-- A term is the same as itself. -/
@[simp] theorem Term.same_refl (term : Term) : term.same term = true := by
  match term with
  | .plain shape => exact TermShape.same_refl shape
  | .transformed shape target replacement _ =>
      simp [Term.same, TermShape.same_refl shape, Term.same_refl target,
        Term.same_refl replacement]

theorem TermShape.same_refl (shape : TermShape) :
    shape.same shape = true := by
  match shape with
  | .leaf .. => simp [TermShape.same]
  | .apply _ _ args _ => simp [TermShape.same, Term.sameAll_refl args]
  | .operation _ left right _ =>
      simp [TermShape.same, Term.same_refl left, Term.same_refl right]

theorem Term.sameAll_refl (terms : List Term) :
    Term.sameAll terms terms = true := by
  match terms with
  | [] => rfl
  | term :: terms =>
      simp [Term.sameAll, Term.same_refl term, Term.sameAll_refl terms]

end

/-- Pending substitutions are the same whatever their notation. -/
def Transform.same (left right : Transform) : Bool :=
  left.target.same right.target && left.replacement.same right.replacement

mutual

/-- Formulas are the same up to how they are written. -/
def Formula.same : Formula -> Formula -> Bool
  | .plain left, .plain right => left.same right
  | .transformed left transform, .transformed right transform' =>
      left.same right && transform.same transform'
  | _, _ => false

/-- Shapes of formulas are the same up to how they are written. -/
def FormulaShape.same : FormulaShape -> FormulaShape -> Bool
  | .leaf kind symbol, .leaf kind' symbol' =>
      kind = kind' && symbol.same symbol'
  | .relation symbol args, .relation symbol' args' =>
      symbol.same symbol' && Term.sameAll args args'
  | .comparison symbol left right _, .comparison symbol' left' right' _ =>
      symbol.same symbol' && left.same left' && right.same right'
  | .complexMeta symbol params _, .complexMeta symbol' params' _ =>
      symbol.same symbol' && Term.sameAll params params'
  | .negation symbol operand, .negation symbol' operand' =>
      symbol.same symbol' && operand.same operand'
  | .binary symbol connective left right _,
      .binary symbol' connective' left' right' _ =>
      symbol.same symbol' && connective = connective' && left.same left' &&
        right.same right'
  | .quantified symbol quantifier boundVariable restriction scope,
      .quantified symbol' quantifier' boundVariable' restriction' scope' =>
      symbol.same symbol' && quantifier = quantifier' &&
        boundVariable.same boundVariable' && restriction.same restriction' &&
        scope.same scope'
  | _, _ => false

/-- Restrictions are the same up to how they are written. -/
def Restriction.same : Restriction -> Restriction -> Bool
  | .unrestricted, .unrestricted => true
  | .bounded relation bound _, .bounded relation' bound' _ =>
      relation.same relation' && bound.same bound'
  | .restricted divider formula _, .restricted divider' formula' _ =>
      divider.same divider' && formula.same formula'
  | _, _ => false

end

mutual

/-- A formula is the same as itself. -/
@[simp] theorem Formula.same_refl (formula : Formula) :
    formula.same formula = true := by
  match formula with
  | .plain shape => exact FormulaShape.same_refl shape
  | .transformed shape _ =>
      simp [Formula.same, Transform.same, FormulaShape.same_refl shape]

theorem FormulaShape.same_refl (shape : FormulaShape) :
    shape.same shape = true := by
  match shape with
  | .leaf .. => simp [FormulaShape.same]
  | .relation _ args | .complexMeta _ args _ =>
      simp [FormulaShape.same, Term.sameAll_refl args]
  | .comparison .. => simp [FormulaShape.same]
  | .negation _ operand =>
      simp [FormulaShape.same, Formula.same_refl operand]
  | .binary _ _ left right _ =>
      simp [FormulaShape.same, Formula.same_refl left, Formula.same_refl right]
  | .quantified _ _ _ restriction scope =>
      simp [FormulaShape.same, Restriction.same_refl restriction,
        Formula.same_refl scope]

theorem Restriction.same_refl (restriction : Restriction) :
    restriction.same restriction = true := by
  match restriction with
  | .unrestricted => rfl
  | .bounded .. => simp [Restriction.same]
  | .restricted _ formula _ =>
      simp [Restriction.same, Formula.same_refl formula]

end

/-- Expressions are the same when they are of one sort and the same there. -/
def Expression.same : Expression -> Expression -> Bool
  | .formula left, .formula right => left.same right
  | .term left, .term right => left.same right
  | _, _ => false

/-- An expression is the same as itself. -/
@[simp] theorem Expression.same_refl (expression : Expression) :
    expression.same expression = true := by
  cases expression <;> simp [Expression.same]

end SymbolicLogic
