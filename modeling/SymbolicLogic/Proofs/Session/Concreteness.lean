import SymbolicLogic.Proofs.Expression.Metavariables
import SymbolicLogic.Proofs.Expression.NormalForm
import SymbolicLogic.Proofs.Session.Permanence
import SymbolicLogic.Proofs.Session.Resolution

/-!
# Schemata that are fully bound

A schema all of whose metavariables have concrete values denotes a concrete expression.
Resolving finds the value of each of them, carries out the substitutions of the value,
and has no metavariable left that would keep a substitution of the schema pending.
-/

namespace SymbolicLogic

open Session

/-- Every metavariable in the expression has a value, those in substitutions and in
parameters included. The value of an any-expression metavariable is of the sort of its
place. -/
def Session.BindsAll (session : Session) (expression : Expression) : Prop :=
  expression.Throughout fun node => ∀ metavariable,
    node.metaNode? = some metavariable ->
      ∃ value, session.get? metavariable = some value ∧
        (metavariable.family = .anyExpression -> value.isSentence = node.isSentence)

namespace Expression

variable {session : Session} {expression value : Expression}
  {metavariable : Metavariable}

/-- In a session of ground values, what is fully bound is resolved to a concrete
expression. -/
theorem isConcrete_resolve
    (wellSorted : session.IsWellSorted)
    (ground : session.IsGround)
    (bound : session.BindsAll expression) :
    (expression.readBy (.resolve session)).IsConcrete := by
  refine isConcrete_readBy (Reading.attach_resolve session) ?_
  intro node within metavariable isMetavariable
  obtain ⟨value, found, sorts⟩ := bound node within metavariable isMetavariable
  obtain ⟨key, known, has⟩ := get?_eq_some.mp found
  obtain ⟨-, rfl⟩ := resolvedKey_eq_ok.mp known
  have accepts := wellSorted.accepts_of_value? has
  refine ⟨value.carryOut, ?_, ?_, isConcrete_carryOut (ground _ _ has)⟩
  · simp [Reading.meaningOf, has]
  · have writes : node.withoutTransform.Writes metavariable :=
      writes_of_metaNode? transform?_withoutTransform (by simpa using isMetavariable)
    have sort := writes.isSentence_eq accepts (by simpa using sorts)
    rw [isSentence_withoutTransform] at sort
    rw [carryOut, isSentence_readBy]
    exact sort

end Expression

namespace Session

/-- After any operations, if no value holds a metavariable, a formula that is fully bound
is resolved to one without metavariables and without substitutions. -/
theorem resolveFormula_concrete
    (operations : List Operation)
    (formula : Formula)
    (ground : (empty.performAll operations).IsGround)
    (bound : (empty.performAll operations).BindsAll (.formula formula)) :
    let resolved := (empty.performAll operations).resolveFormula formula
    resolved.isSchematic = false ∧ (Expression.formula resolved).IsBare := by
  intro resolved
  have wellSorted : (empty.performAll operations).IsWellSorted :=
    (empty.growsTo_performAll operations).isWellSorted .empty
  have concrete : (Expression.formula resolved).IsConcrete :=
    Expression.isConcrete_resolve wellSorted ground bound
  exact ⟨concrete.isSchematic_eq_false, concrete.isBare⟩

/-- Let `t` stand for `a`, and `A(t)` for `Fxy` with `b` put for `y`. Then `A(t)`, with `t`
put for `x`, is resolved to `Fab`. -/
theorem resolveFormula_concrete_substitution :
    let variableOf (name : String) : Term := .leaf .objectVariable ⟨name, .objectVariable⟩
    let constant (name : String) : Term := .leaf .constant ⟨name, .constant⟩
    let applied (left right : Term) : Formula :=
      .plain (.relation ⟨"F", .relation⟩ [left, right])
    let t : Symbol := ⟨"t", .termMeta⟩
    let handle : Metavariable :=
      ⟨.complexFormula, ⟨"A", .formulaMeta⟩, [.leaf .termMeta t]⟩
    let value := (applied (variableOf "x") (variableOf "y")).withTransform
      ⟨variableOf "y", constant "b", false⟩
    let session := empty.performAll
      [.bind ⟨.term, t, []⟩ (.term (constant "a")), .bind handle (.formula value)]
    let schema := Formula.withTransform
      (.plain (.complexMeta handle.symbol handle.params .round))
      ⟨variableOf "x", .leaf .termMeta t, false⟩
    let resolved := session.resolveFormula schema
    session.IsGround ∧ session.BindsAll (.formula schema) ∧
      resolved = applied (constant "a") (constant "b") ∧
      resolved.isSchematic = false ∧ (Expression.formula resolved).IsBare := by
  intro variableOf constant applied t handle value session schema resolved
  have ground : session.IsGround := by
    intro key found bound
    obtain ⟨binding, member, -, has⟩ := exists_binding_of_value? bound
    rcases List.mem_cons.mp member with rfl | member
    · cases has
      rfl
    · cases List.mem_singleton.mp member
      cases has
      rfl
  have parameter : session.BindsAll (.term (.leaf .termMeta t)) := by
    refine .of_parts rfl ?_ nofun
    rintro _ ⟨⟩
    exact ⟨.term (constant "a"), rfl, fun any => by cases any⟩
  have bound : session.BindsAll (.formula schema) := by
    have whole : ∀ metavariable, some handle = some metavariable ->
        ∃ value, session.get? metavariable = some value ∧
          (metavariable.family = .anyExpression -> value.isSentence = true) := by
      rintro _ ⟨⟩
      exact ⟨.formula value, rfl, fun any => by cases any⟩
    refine .of_transformed rfl whole (.of_parts rfl whole ?_) (.of_parts rfl nofun nofun)
      parameter
    exact List.forall_mem_singleton.mpr parameter
  exact ⟨ground, bound, rfl, resolveFormula_concrete _ schema ground bound⟩

end Session
end SymbolicLogic
