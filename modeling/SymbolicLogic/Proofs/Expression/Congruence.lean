import SymbolicLogic.Proofs.Expression.Sameness
import SymbolicLogic.Session.Reading

/-!
# Functions that respect sameness

Whether a term is a variable, whether an expression is schematic, what it is
after a substitution and after its pending substitutions have been carried out
does not depend on how it is written: each of these commutes with taking standard
forms.
-/

namespace SymbolicLogic

theorem Term.isVariable_standard (term : Term) :
    term.standard.isVariable = term.isVariable := by
  match term with
  | .plain (.leaf kind _) => cases kind <;> rfl
  | .plain (.apply ..) | .plain (.operation ..) | .transformed .. => rfl

mutual

/-- The standard form of a term is schematic exactly if the term is. -/
@[simp] theorem Term.isSchematic_standard (term : Term) :
    term.standard.isSchematic = term.isSchematic := by
  match term with
  | .plain shape =>
      simp [Term.standard, Term.isSchematic, TermShape.isSchematic_standard shape]
  | .transformed shape target replacement _ =>
      simp [Term.standard, Term.isSchematic,
        TermShape.isSchematic_standard shape, Term.isSchematic_standard target,
        Term.isSchematic_standard replacement]

theorem TermShape.isSchematic_standard (shape : TermShape) :
    shape.standard.isSchematic = shape.isSchematic := by
  match shape with
  | .leaf .. => rfl
  | .apply _ _ args _ =>
      simp [TermShape.standard, TermShape.isSchematic,
        Term.anySchematic_standardAll args]
  | .operation _ left right _ =>
      simp [TermShape.standard, TermShape.isSchematic,
        Term.isSchematic_standard left, Term.isSchematic_standard right]

theorem Term.anySchematic_standardAll (terms : List Term) :
    Term.anySchematic (Term.standardAll terms) = Term.anySchematic terms := by
  match terms with
  | [] => rfl
  | term :: terms =>
      simp [Term.standardAll, Term.anySchematic, Term.isSchematic_standard term,
        Term.anySchematic_standardAll terms]

end

@[simp] theorem Transform.isSchematic_standard (transform : Transform) :
    transform.standard.isSchematic = transform.isSchematic := by
  simp [Transform.standard, Transform.isSchematic]

mutual

/-- The standard form of a formula is schematic exactly if the formula is. -/
@[simp] theorem Formula.isSchematic_standard (formula : Formula) :
    formula.standard.isSchematic = formula.isSchematic := by
  match formula with
  | .plain shape =>
      simp [Formula.standard, Formula.isSchematic,
        FormulaShape.isSchematic_standard shape]
  | .transformed shape _ =>
      simp [Formula.standard, Formula.isSchematic,
        FormulaShape.isSchematic_standard shape]

theorem FormulaShape.isSchematic_standard (shape : FormulaShape) :
    shape.standard.isSchematic = shape.isSchematic := by
  match shape with
  | .leaf .. | .complexMeta .. => rfl
  | .relation _ args => exact Term.anySchematic_standardAll args
  | .comparison _ left right _ =>
      simp [FormulaShape.standard, FormulaShape.isSchematic]
  | .negation _ operand => exact Formula.isSchematic_standard operand
  | .binary _ _ left right _ =>
      simp [FormulaShape.standard, FormulaShape.isSchematic,
        Formula.isSchematic_standard left, Formula.isSchematic_standard right]
  | .quantified _ _ boundVariable restriction scope =>
      simp [FormulaShape.standard, FormulaShape.isSchematic,
        Restriction.isSchematic_standard restriction,
        Formula.isSchematic_standard scope]

theorem Restriction.isSchematic_standard (restriction : Restriction) :
    restriction.standard.isSchematic = restriction.isSchematic := by
  match restriction with
  | .unrestricted => rfl
  | .bounded _ bound _ => exact Term.isSchematic_standard bound
  | .restricted _ formula _ => exact Formula.isSchematic_standard formula

end

mutual

/-- A term has the level of its standard form. -/
@[simp] theorem Term.level_standard (term : Term) :
    term.standard.level = term.level := by
  match term with
  | .plain shape | .transformed shape _ _ _ => exact TermShape.level_standard shape

theorem TermShape.level_standard (shape : TermShape) :
    shape.standard.level = shape.level := by
  match shape with
  | .leaf .. => rfl
  | .apply _ _ args _ => exact Term.levelAll_standardAll args
  | .operation _ left right _ =>
      simp [TermShape.standard, TermShape.level, Term.level_standard left,
        Term.level_standard right]

theorem Term.levelAll_standardAll (terms : List Term) :
    Term.levelAll (Term.standardAll terms) = Term.levelAll terms := by
  match terms with
  | [] => rfl
  | term :: terms =>
      simp [Term.standardAll, Term.levelAll, Term.level_standard term,
        Term.levelAll_standardAll terms]

end

mutual

/-- A formula has the level of its standard form. -/
@[simp] theorem Formula.level_standard (formula : Formula) :
    formula.standard.level = formula.level := by
  match formula with
  | .plain shape | .transformed shape _ =>
      exact FormulaShape.level_standard shape

theorem FormulaShape.level_standard (shape : FormulaShape) :
    shape.standard.level = shape.level := by
  match shape with
  | .leaf .. => rfl
  | .relation _ args | .complexMeta _ args _ =>
      exact Term.levelAll_standardAll args
  | .comparison .. => simp [FormulaShape.standard, FormulaShape.level]
  | .negation _ operand =>
      simp [FormulaShape.standard, FormulaShape.level,
        Formula.level_standard operand]
  | .binary _ _ left right _ =>
      simp [FormulaShape.standard, FormulaShape.level,
        Formula.level_standard left, Formula.level_standard right]
  | .quantified _ _ boundVariable restriction scope =>
      simp [FormulaShape.standard, FormulaShape.level,
        Restriction.level_standard restriction, Formula.level_standard scope]

theorem Restriction.level_standard (restriction : Restriction) :
    restriction.standard.level = restriction.level := by
  match restriction with
  | .unrestricted => rfl
  | .bounded .. => simp [Restriction.standard, Restriction.level]
  | .restricted _ formula _ =>
      simp [Restriction.standard, Restriction.level,
        Formula.level_standard formula]

end

/-- The operands of a standard form are the standard forms of the operands. -/
theorem FormulaShape.operands_standard (shape : FormulaShape) :
    shape.standard.operands = shape.operands.map Formula.standard := by
  cases shape <;> rfl

@[simp] theorem Formula.shape_standard (formula : Formula) :
    formula.standard.shape = formula.shape.standard := by
  cases formula <;> rfl

/-- A formula is basic exactly if its standard form is. -/
@[simp] theorem Formula.isBasic_standard (formula : Formula) :
    formula.standard.isBasic = formula.isBasic := by
  rw [Formula.isBasic, Formula.isBasic, Formula.shape_standard]
  cases formula.shape with
  | relation _ args | complexMeta _ args => cases args <;> rfl
  | _ => rfl

/-- Of two formulas that are the same, both are basic or neither is. -/
theorem Formula.isBasic_eq_of_same
    {first second : Formula}
    (same : first.same second = true) : first.isBasic = second.isBasic := by
  rw [← Formula.isBasic_standard first, (Formula.same_iff first second).mp same,
    Formula.isBasic_standard]

mutual

/-- Substitution in a term and taking standard forms can be exchanged. -/
theorem Term.standard_substitute (term target replacement : Term) :
    (term.substitute target replacement).standard =
      term.standard.substitute target.standard replacement.standard := by
  match term with
  | .plain shape =>
      have compared := Term.same_standard (.plain shape) target
      rw [Term.standard] at compared
      rw [Term.substitute, Term.standard, Term.substitute, compared]
      split
      · rfl
      · rw [Term.standard, TermShape.standard_substitute shape]
  | .transformed shape target' replacement' stacked =>
      have compared := Term.same_standard
        (.transformed shape target' replacement' stacked) target
      rw [Term.standard] at compared
      rw [Term.substitute, Term.standard, Term.substitute, compared]
      split
      · rfl
      · rw [Term.standard, TermShape.standard_substitute shape,
          Term.standard_substitute replacement']

theorem TermShape.standard_substitute
    (shape : TermShape)
    (target replacement : Term) :
    (shape.substitute target replacement).standard =
      shape.standard.substitute target.standard replacement.standard := by
  match shape with
  | .leaf .. => rfl
  | .apply _ _ args _ =>
      simp only [TermShape.standard, TermShape.substitute,
        Term.standardAll_substituteAll args]
  | .operation _ left right _ =>
      simp only [TermShape.standard, TermShape.substitute,
        Term.standard_substitute left, Term.standard_substitute right]

theorem Term.standardAll_substituteAll
    (terms : List Term)
    (target replacement : Term) :
    Term.standardAll (Term.substituteAll terms target replacement) =
      Term.substituteAll (Term.standardAll terms) target.standard
        replacement.standard := by
  match terms with
  | [] => rfl
  | term :: terms =>
      simp only [Term.standardAll, Term.substituteAll,
        Term.standard_substitute term, Term.standardAll_substituteAll terms]

end

/-- So can they in both sides of a pending substitution. -/
theorem Transform.standard_substitute
    (transform : Transform)
    (target replacement : Term) :
    (transform.substitute target replacement).standard =
      transform.standard.substitute target.standard replacement.standard := by
  simp [Transform.standard, Transform.substitute, Term.standard_substitute]

mutual

/-- Substitution in a formula and taking standard forms can be exchanged. -/
theorem Formula.standard_substitute
    (formula : Formula)
    (target replacement : Term) :
    (formula.substitute target replacement).standard =
      formula.standard.substitute target.standard replacement.standard := by
  match formula with
  | .plain shape =>
      simp only [Formula.standard, Formula.substitute,
        FormulaShape.standard_substitute shape]
  | .transformed shape _ =>
      simp only [Formula.standard, Formula.substitute,
        FormulaShape.standard_substitute shape, Transform.standard_substitute]

theorem FormulaShape.standard_substitute
    (shape : FormulaShape)
    (target replacement : Term) :
    (shape.substitute target replacement).standard =
      shape.standard.substitute target.standard replacement.standard := by
  match shape with
  | .leaf .. => rfl
  | .relation .. | .complexMeta .. =>
      simp only [FormulaShape.standard, FormulaShape.substitute,
        Term.standardAll_substituteAll]
  | .comparison .. =>
      simp only [FormulaShape.standard, FormulaShape.substitute,
        Term.standard_substitute]
  | .negation _ operand =>
      simp only [FormulaShape.standard, FormulaShape.substitute,
        Formula.standard_substitute operand]
  | .binary _ _ left right _ =>
      simp only [FormulaShape.standard, FormulaShape.substitute,
        Formula.standard_substitute left, Formula.standard_substitute right]
  | .quantified _ _ boundVariable restriction scope =>
      simp only [FormulaShape.standard, FormulaShape.substitute,
        Term.same_standard, Restriction.standard_substitute restriction]
      split
      · rfl
      · rw [Formula.standard_substitute scope]

/-- So can they in a restriction, whether or not its variable is captured. -/
theorem Restriction.standard_substitute
    (restriction : Restriction)
    (target replacement : Term)
    (captured : Bool) :
    (restriction.substitute target replacement captured).standard =
      restriction.standard.substitute target.standard replacement.standard
        captured := by
  match restriction with
  | .unrestricted => rfl
  | .bounded .. =>
      simp only [Restriction.standard, Restriction.substitute,
        Term.standard_substitute]
  | .restricted _ formula _ =>
      cases captured with
      | true => rfl
      | false =>
          simp [Restriction.standard, Restriction.substitute,
            Formula.standard_substitute formula]

end

@[simp] theorem Term.standard_withTransform
    (term : Term)
    (transform : Transform) :
    (term.withTransform transform).standard =
      term.standard.withTransform transform.standard := by
  cases term <;> rfl

@[simp] theorem Formula.standard_withTransform
    (formula : Formula)
    (transform : Transform) :
    (formula.withTransform transform).standard =
      formula.standard.withTransform transform.standard := by
  cases formula <;> rfl

/-- Settling a substitution on a term and taking standard forms can be exchanged. -/
theorem Term.standard_settle (carrier : Term) (transform : Transform) :
    (carrier.settle transform).standard =
      carrier.standard.settle transform.standard := by
  rw [Term.settle, Term.settle, Term.isSchematic_standard,
    Transform.isSchematic_standard]
  split
  · exact Term.standard_withTransform carrier transform
  · exact Term.standard_substitute carrier _ _

/-- Settling a substitution on a formula and taking standard forms can be exchanged. -/
theorem Formula.standard_settle (carrier : Formula) (transform : Transform) :
    (carrier.settle transform).standard =
      carrier.standard.settle transform.standard := by
  rw [Formula.settle, Formula.settle, Formula.isSchematic_standard,
    Transform.isSchematic_standard]
  split
  · exact Formula.standard_withTransform carrier transform
  · exact Formula.standard_substitute carrier _ _

namespace Reading

@[simp] theorem carryOut_meaning
    (family : MetaFamily)
    (symbol : Symbol)
    (written read : List Term) :
    carryOut.meaning family symbol written read = none := rfl

@[simp] theorem carryOut_attachTerm : carryOut.attachTerm = Term.settle := rfl

@[simp] theorem carryOut_attachFormula :
    carryOut.attachFormula = Formula.settle := rfl

end Reading

mutual

/-- Carrying out substitutions in a term and taking standard forms can be exchanged. -/
theorem Term.standard_carryOut (term : Term) :
    (term.readBy .carryOut).standard = term.standard.readBy .carryOut := by
  match term with
  | .plain shape => exact TermShape.standard_carryOut shape
  | .transformed shape target replacement _ =>
      simp [Term.readBy, Term.standard, Term.standard_settle, Transform.standard,
        TermShape.standard_carryOut shape, Term.standard_carryOut target,
        Term.standard_carryOut replacement]

theorem TermShape.standard_carryOut (shape : TermShape) :
    (shape.readBy .carryOut).standard = shape.standard.readBy .carryOut := by
  match shape with
  | .leaf kind _ =>
      simp [TermShape.readBy, TermShape.standard, Term.leaf, Term.standard]
  | .apply .function _ args _ | .apply .complexMeta _ args _ =>
      simp [TermShape.readBy, TermShape.standard, Term.standard,
        Term.standardAll_carryOut args]
  | .operation _ left right _ =>
      simp [TermShape.readBy, TermShape.standard, Term.standard,
        Term.standard_carryOut left, Term.standard_carryOut right]

theorem Term.standardAll_carryOut (terms : List Term) :
    Term.standardAll (Term.readAllBy terms .carryOut) =
      Term.readAllBy (Term.standardAll terms) .carryOut := by
  match terms with
  | [] => rfl
  | term :: terms =>
      simp [Term.readAllBy, Term.standardAll, Term.standard_carryOut term,
        Term.standardAll_carryOut terms]

end

mutual

/-- Carrying out substitutions in a formula and taking standard forms can be exchanged. -/
theorem Formula.standard_carryOut (formula : Formula) :
    (formula.readBy .carryOut).standard = formula.standard.readBy .carryOut := by
  match formula with
  | .plain shape => exact FormulaShape.standard_carryOut shape
  | .transformed shape transform =>
      simp [Formula.readBy, Formula.standard, Formula.standard_settle,
        Transform.standard, Transform.readBy, Term.standard_carryOut,
        FormulaShape.standard_carryOut shape]

theorem FormulaShape.standard_carryOut (shape : FormulaShape) :
    (shape.readBy .carryOut).standard = shape.standard.readBy .carryOut := by
  match shape with
  | .leaf .. =>
      simp [FormulaShape.readBy, FormulaShape.standard, Formula.leaf,
        Formula.standard]
  | .relation .. | .complexMeta .. =>
      simp [FormulaShape.readBy, FormulaShape.standard, Formula.standard,
        Term.standardAll_carryOut]
  | .comparison .. =>
      simp [FormulaShape.readBy, FormulaShape.standard, Formula.standard,
        Term.standard_carryOut]
  | .negation _ operand =>
      simp [FormulaShape.readBy, FormulaShape.standard, Formula.standard,
        Formula.standard_carryOut operand]
  | .binary _ _ left right _ =>
      simp [FormulaShape.readBy, FormulaShape.standard, Formula.standard,
        Formula.standard_carryOut left, Formula.standard_carryOut right]
  | .quantified _ _ _ restriction scope =>
      simp [FormulaShape.readBy, FormulaShape.standard, Formula.standard,
        Term.standard_carryOut, Restriction.standard_carryOut restriction,
        Formula.standard_carryOut scope]

theorem Restriction.standard_carryOut (restriction : Restriction) :
    (restriction.readBy .carryOut).standard =
      restriction.standard.readBy .carryOut := by
  match restriction with
  | .unrestricted => rfl
  | .bounded .. =>
      simp [Restriction.readBy, Restriction.standard, Term.standard_carryOut]
  | .restricted _ formula _ =>
      simp [Restriction.readBy, Restriction.standard,
        Formula.standard_carryOut formula]

end

/-- Carrying out and taking standard forms can be exchanged. -/
theorem Expression.standard_carryOut (expression : Expression) :
    expression.carryOut.standard = expression.standard.carryOut := by
  cases expression with
  | formula f => exact congrArg Expression.formula f.standard_carryOut
  | term t => exact congrArg Expression.term t.standard_carryOut

/-- Expressions that are the same are so after carrying out. -/
theorem Expression.same_carryOut
    {first second : Expression}
    (same : first.same second = true) :
    first.carryOut.same second.carryOut = true := by
  rw [Expression.same_iff] at same ⊢
  rw [standard_carryOut, standard_carryOut, same]

end SymbolicLogic
