import Mathlib.Data.Option.Basic
import SymbolicLogic.Proofs.Session.Store
import SymbolicLogic.Session.Matching

/-!
# Readings in a growing session

Once all metavariables of an expression have values, the expression is read in
the same way in every later session. A metavariable with parameters is found by
what its parameters are instantiated to, so its key stays the same as well, and
the value of a metavariable is for good.
-/

namespace SymbolicLogic

open Session

variable {before after : Session}

namespace Reading

@[simp] theorem instantiate_meaning
    (session : Session)
    (family : MetaFamily)
    (symbol : Symbol)
    (written read : List Term) :
    (instantiate session).meaning family symbol written read =
      session.value? ⟨family, symbol, read⟩ := rfl

@[simp] theorem instantiate_attachTerm (session : Session) :
    (instantiate session).attachTerm = Term.withTransform := rfl

@[simp] theorem instantiate_attachFormula (session : Session) :
    (instantiate session).attachFormula = Formula.withTransform := rfl

@[simp] theorem resolve_meaning
    (session : Session)
    (family : MetaFamily)
    (symbol : Symbol)
    (written read : List Term) :
    (resolve session).meaning family symbol written read =
      (session.value? (session.key family symbol written)).map
        Expression.carryOut := rfl

@[simp] theorem resolve_attachTerm (session : Session) :
    (resolve session).attachTerm = Term.settle := rfl

@[simp] theorem resolve_attachFormula (session : Session) :
    (resolve session).attachFormula = Formula.settle := rfl

end Reading

/-- A metavariable without parameters is its own key. -/
@[simp] theorem Session.key_nil
    (session : Session)
    (family : MetaFamily)
    (symbol : Symbol) : session.key family symbol [] = ⟨family, symbol, []⟩ := rfl

/-- A metavariable with a value keeps it. -/
theorem Session.Extends.value?_eq
    (larger : before.Extends after)
    {key : Metavariable}
    (bound : (before.value? key).isSome = true) :
    after.value? key = before.value? key := by
  obtain ⟨value, valueEq⟩ := Option.isSome_iff_exists.mp bound
  rw [valueEq, larger key value valueEq]

/-- A name is reported only for a missing value. -/
theorem isSome_of_unbound_eq_none
    {value : Option Expression}
    {symbol : Symbol}
    (bound : (if value.isSome then none else some symbol) = none) :
    value.isSome = true := by
  cases value with
  | none => cases bound
  | some => rfl

mutual

/-- A term whose metavariables have values is read alike in every larger session. -/
theorem Term.readBy_of_extends
    (larger : before.Extends after)
    (term : Term)
    (bound : term.unbound? before = none) :
    term.unbound? after = none ∧
      term.readBy (.instantiate after) = term.readBy (.instantiate before) ∧
      term.readBy (.resolve after) = term.readBy (.resolve before) := by
  match term with
  | .plain shape => exact TermShape.readBy_of_extends larger shape bound
  | .transformed shape target replacement stacked =>
      simp only [Term.unbound?, Option.orElse_eq_none] at bound
      obtain ⟨boundShape, boundTarget, boundReplacement⟩ := bound
      obtain ⟨shapeUnbound, shapeInstantiated, shapeResolved⟩ :=
        TermShape.readBy_of_extends larger shape boundShape
      obtain ⟨targetUnbound, targetInstantiated, targetResolved⟩ :=
        Term.readBy_of_extends larger target boundTarget
      obtain ⟨replacementUnbound, replacementInstantiated, replacementResolved⟩ :=
        Term.readBy_of_extends larger replacement boundReplacement
      simp [Term.unbound?, Term.readBy, shapeUnbound, shapeInstantiated,
        shapeResolved, targetUnbound, targetInstantiated, targetResolved,
        replacementUnbound, replacementInstantiated, replacementResolved]

theorem TermShape.readBy_of_extends
    (larger : before.Extends after)
    (shape : TermShape)
    (bound : shape.unbound? before = none) :
    shape.unbound? after = none ∧
      shape.readBy (.instantiate after) = shape.readBy (.instantiate before) ∧
      shape.readBy (.resolve after) = shape.readBy (.resolve before) := by
  match shape with
  | .leaf kind symbol =>
      cases familyEq : kind.family? with
      | none => simp [TermShape.unbound?, TermShape.readBy, familyEq]
      | some family =>
          simp only [TermShape.unbound?, familyEq, Option.bind_some] at bound
          have isBound := isSome_of_unbound_eq_none bound
          have kept := larger.value?_eq isBound
          simp [TermShape.unbound?, TermShape.readBy, familyEq, kept, isBound]
  | .apply .function symbol args brackets =>
      obtain ⟨unbound, instantiated, resolved⟩ :=
        Term.readAllBy_of_extends larger args bound
      simp [TermShape.unbound?, TermShape.readBy, unbound, instantiated,
        resolved]
  | .apply .complexMeta symbol args brackets =>
      simp only [TermShape.unbound?, Option.orElse_eq_none] at bound
      obtain ⟨unbound, instantiated, resolved⟩ :=
        Term.readAllBy_of_extends larger args bound.1
      have isBound := isSome_of_unbound_eq_none bound.2
      have kept := larger.value?_eq isBound
      simp only [Session.key] at isBound kept
      simp [TermShape.unbound?, TermShape.readBy, Session.key, unbound,
        instantiated, resolved, kept, isBound]
  | .operation symbol left right brackets =>
      simp only [TermShape.unbound?, Option.orElse_eq_none] at bound
      obtain ⟨leftUnbound, leftInstantiated, leftResolved⟩ :=
        Term.readBy_of_extends larger left bound.1
      obtain ⟨rightUnbound, rightInstantiated, rightResolved⟩ :=
        Term.readBy_of_extends larger right bound.2
      simp [TermShape.unbound?, TermShape.readBy, leftUnbound,
        leftInstantiated, leftResolved, rightUnbound, rightInstantiated,
        rightResolved]

/-- So are lists of such terms. -/
theorem Term.readAllBy_of_extends
    (larger : before.Extends after)
    (terms : List Term)
    (bound : Term.unboundAmong? terms before = none) :
    Term.unboundAmong? terms after = none ∧
      Term.readAllBy terms (.instantiate after) =
        Term.readAllBy terms (.instantiate before) ∧
      Term.readAllBy terms (.resolve after) =
        Term.readAllBy terms (.resolve before) := by
  match terms with
  | [] => exact ⟨rfl, rfl, rfl⟩
  | term :: terms =>
      simp only [Term.unboundAmong?, Option.orElse_eq_none] at bound
      obtain ⟨firstUnbound, firstInstantiated, firstResolved⟩ :=
        Term.readBy_of_extends larger term bound.1
      obtain ⟨othersUnbound, othersInstantiated, othersResolved⟩ :=
        Term.readAllBy_of_extends larger terms bound.2
      simp [Term.unboundAmong?, Term.readAllBy, firstUnbound,
        firstInstantiated, firstResolved, othersUnbound, othersInstantiated,
        othersResolved]

end

/-- So are pending substitutions of such terms. -/
theorem Transform.readBy_of_extends
    (larger : before.Extends after)
    (transform : Transform)
    (bound : transform.unbound? before = none) :
    transform.unbound? after = none ∧
      transform.readBy (.instantiate after) =
        transform.readBy (.instantiate before) ∧
      transform.readBy (.resolve after) =
        transform.readBy (.resolve before) := by
  simp only [Transform.unbound?, Option.orElse_eq_none] at bound
  obtain ⟨targetUnbound, targetInstantiated, targetResolved⟩ :=
    Term.readBy_of_extends larger transform.target bound.1
  obtain ⟨replacementUnbound, replacementInstantiated, replacementResolved⟩ :=
    Term.readBy_of_extends larger transform.replacement bound.2
  simp [Transform.unbound?, Transform.readBy, targetUnbound,
    targetInstantiated, targetResolved, replacementUnbound,
    replacementInstantiated, replacementResolved]

mutual

/-- A formula whose metavariables have values is read alike in every larger session. -/
theorem Formula.readBy_of_extends
    (larger : before.Extends after)
    (formula : Formula)
    (bound : formula.unbound? before = none) :
    formula.unbound? after = none ∧
      formula.readBy (.instantiate after) =
        formula.readBy (.instantiate before) ∧
      formula.readBy (.resolve after) = formula.readBy (.resolve before) := by
  match formula with
  | .plain shape => exact FormulaShape.readBy_of_extends larger shape bound
  | .transformed shape transform =>
      simp only [Formula.unbound?, Option.orElse_eq_none] at bound
      obtain ⟨shapeUnbound, shapeInstantiated, shapeResolved⟩ :=
        FormulaShape.readBy_of_extends larger shape bound.1
      obtain ⟨unbound, instantiated, resolved⟩ :=
        transform.readBy_of_extends larger bound.2
      simp [Formula.unbound?, Formula.readBy, shapeUnbound, shapeInstantiated,
        shapeResolved, unbound, instantiated, resolved]

theorem FormulaShape.readBy_of_extends
    (larger : before.Extends after)
    (shape : FormulaShape)
    (bound : shape.unbound? before = none) :
    shape.unbound? after = none ∧
      shape.readBy (.instantiate after) = shape.readBy (.instantiate before) ∧
      shape.readBy (.resolve after) = shape.readBy (.resolve before) := by
  match shape with
  | .leaf kind symbol =>
      cases familyEq : kind.family? with
      | none => simp [FormulaShape.unbound?, FormulaShape.readBy, familyEq]
      | some family =>
          simp only [FormulaShape.unbound?, familyEq, Option.bind_some] at bound
          have isBound := isSome_of_unbound_eq_none bound
          have kept := larger.value?_eq isBound
          simp [FormulaShape.unbound?, FormulaShape.readBy, familyEq, kept,
            isBound]
  | .relation symbol args =>
      obtain ⟨unbound, instantiated, resolved⟩ :=
        Term.readAllBy_of_extends larger args bound
      simp [FormulaShape.unbound?, FormulaShape.readBy, unbound, instantiated,
        resolved]
  | .comparison symbol left right complement =>
      simp only [FormulaShape.unbound?, Option.orElse_eq_none] at bound
      obtain ⟨leftUnbound, leftInstantiated, leftResolved⟩ :=
        left.readBy_of_extends larger bound.1
      obtain ⟨rightUnbound, rightInstantiated, rightResolved⟩ :=
        right.readBy_of_extends larger bound.2
      simp [FormulaShape.unbound?, FormulaShape.readBy, leftUnbound,
        leftInstantiated, leftResolved, rightUnbound, rightInstantiated,
        rightResolved]
  | .complexMeta symbol params brackets =>
      simp only [FormulaShape.unbound?, Option.orElse_eq_none] at bound
      obtain ⟨unbound, instantiated, resolved⟩ :=
        Term.readAllBy_of_extends larger params bound.1
      have isBound := isSome_of_unbound_eq_none bound.2
      have kept := larger.value?_eq isBound
      simp only [Session.key] at isBound kept
      simp [FormulaShape.unbound?, FormulaShape.readBy, Session.key, unbound,
        instantiated, resolved, kept, isBound]
  | .negation symbol operand =>
      obtain ⟨unbound, instantiated, resolved⟩ :=
        Formula.readBy_of_extends larger operand bound
      simp [FormulaShape.unbound?, FormulaShape.readBy, unbound, instantiated,
        resolved]
  | .binary symbol connective left right brackets =>
      simp only [FormulaShape.unbound?, Option.orElse_eq_none] at bound
      obtain ⟨leftUnbound, leftInstantiated, leftResolved⟩ :=
        Formula.readBy_of_extends larger left bound.1
      obtain ⟨rightUnbound, rightInstantiated, rightResolved⟩ :=
        Formula.readBy_of_extends larger right bound.2
      simp [FormulaShape.unbound?, FormulaShape.readBy, leftUnbound,
        leftInstantiated, leftResolved, rightUnbound, rightInstantiated,
        rightResolved]
  | .quantified symbol quantifier boundVariable restriction scope =>
      simp only [FormulaShape.unbound?, Option.orElse_eq_none] at bound
      obtain ⟨boundVariableBound, restrictionBound, scopeBound⟩ := bound
      obtain ⟨variableUnbound, variableInstantiated, variableResolved⟩ :=
        boundVariable.readBy_of_extends larger boundVariableBound
      obtain ⟨restrictionUnbound, restrictionInstantiated, restrictionResolved⟩ :=
        Restriction.readBy_of_extends larger restriction restrictionBound
      obtain ⟨scopeUnbound, scopeInstantiated, scopeResolved⟩ :=
        Formula.readBy_of_extends larger scope scopeBound
      simp [FormulaShape.unbound?, FormulaShape.readBy, variableUnbound,
        variableInstantiated, variableResolved, restrictionUnbound,
        restrictionInstantiated, restrictionResolved, scopeUnbound,
        scopeInstantiated, scopeResolved]

/-- So is a restriction of such parts. -/
theorem Restriction.readBy_of_extends
    (larger : before.Extends after)
    (restriction : Restriction)
    (bound : restriction.unbound? before = none) :
    restriction.unbound? after = none ∧
      restriction.readBy (.instantiate after) =
        restriction.readBy (.instantiate before) ∧
      restriction.readBy (.resolve after) =
        restriction.readBy (.resolve before) := by
  match restriction with
  | .unrestricted => exact ⟨rfl, rfl, rfl⟩
  | .bounded relation term brackets =>
      obtain ⟨unbound, instantiated, resolved⟩ :=
        term.readBy_of_extends larger bound
      simp [Restriction.unbound?, Restriction.readBy, unbound, instantiated,
        resolved]
  | .restricted divider formula brackets =>
      obtain ⟨unbound, instantiated, resolved⟩ :=
        Formula.readBy_of_extends larger formula bound
      simp [Restriction.unbound?, Restriction.readBy, unbound, instantiated,
        resolved]

end

namespace Expression

/-- The first metavariable of an expression without a value. -/
def unbound? (expression : Expression) (session : Session) : Option Symbol :=
  match expression with
  | .formula f => f.unbound? session
  | .term t => t.unbound? session

/-- An expression whose metavariables have values is read alike in every larger session. -/
theorem readBy_of_extends
    {expression : Expression}
    (larger : before.Extends after)
    (bound : expression.unbound? before = none) :
    expression.unbound? after = none ∧
      expression.readBy (.instantiate after) =
        expression.readBy (.instantiate before) ∧
      expression.readBy (.resolve after) = expression.readBy (.resolve before) := by
  cases expression with
  | formula f =>
      obtain ⟨unbound, instantiated, resolved⟩ := f.readBy_of_extends larger bound
      exact ⟨unbound, congrArg formula instantiated, congrArg formula resolved⟩
  | term t =>
      obtain ⟨unbound, instantiated, resolved⟩ := t.readBy_of_extends larger bound
      exact ⟨unbound, congrArg term instantiated, congrArg term resolved⟩

end Expression

namespace Session

/-- A key is found exactly if the parameters have values, and then it is made of these. -/
theorem resolvedKey_eq_ok
    {session : Session}
    {metavariable key : Metavariable} :
    session.resolvedKey metavariable = .ok key ↔
      Term.unboundAmong? metavariable.params session = none ∧
        session.key metavariable.family metavariable.symbol
          metavariable.params = key := by
  rw [resolvedKey]
  cases Term.unboundAmong? metavariable.params session <;> simp

/-- A key that is known stays the same. -/
theorem Extends.resolvedKey_eq_ok
    (larger : before.Extends after)
    {metavariable key : Metavariable}
    (known : before.resolvedKey metavariable = .ok key) :
    after.resolvedKey metavariable = .ok key := by
  rw [Session.resolvedKey_eq_ok] at known ⊢
  obtain ⟨bound, rfl⟩ := known
  obtain ⟨unbound, instantiated, -⟩ :=
    Term.readAllBy_of_extends larger metavariable.params bound
  exact ⟨unbound, by rw [Session.key, Session.key, instantiated]⟩

/-- A metavariable has a value exactly if its key is found and has one. -/
theorem get?_eq_some
    {session : Session}
    {metavariable : Metavariable}
    {value : Expression} :
    session.get? metavariable = some value ↔
      ∃ key, session.resolvedKey metavariable = .ok key ∧
        session.value? key = some value := by
  rw [get?]
  cases session.resolvedKey metavariable <;> simp

/-- A metavariable that has a value has this value from then on. -/
theorem Extends.get?_eq_some
    (larger : before.Extends after)
    {metavariable : Metavariable}
    {value : Expression}
    (bound : before.get? metavariable = some value) :
    after.get? metavariable = some value := by
  rw [Session.get?_eq_some] at bound ⊢
  obtain ⟨key, known, valueEq⟩ := bound
  exact ⟨key, larger.resolvedKey_eq_ok known, larger key value valueEq⟩

end Session
end SymbolicLogic
