import SymbolicLogic.Proofs.Session.Completeness
import SymbolicLogic.Proofs.Session.Permanence
import SymbolicLogic.Proofs.Session.Resolution

/-!
# Matching across sorts

A metavariable for expressions of any sort is written as a formula or as a term, and can
be matched with expressions of the other sort as well. It is then bound to the whole
expression. On its own it is instantiated to this value. With a substitution pending at
it, it cannot be: a substitution stays at a node of its sort, so the metavariable is left
in its place, and what was matched is not what comes out.
-/

namespace SymbolicLogic

open Session Matching

namespace Expression

variable {pattern concrete value : Expression} {symbol : Symbol}
  {before after session : Session}

/-- Across sorts, nothing but a metavariable for expressions of any sort matches. It is
met whether or not a substitution is pending at it. -/
theorem succeeds_iff_of_sorts (sorts : pattern.isSentence ≠ concrete.isSentence) :
    (pattern.matchAgainst concrete).Succeeds before after ↔
      ∃ symbol, pattern.metaNode? = some ⟨.anyExpression, symbol, []⟩ ∧
        (Metavariable.meet ⟨.anyExpression, symbol, []⟩ concrete).Succeeds before
          after := by
  cases pattern with
  | formula p =>
      cases concrete with
      | formula => exact absurd rfl sorts
      | term c =>
          rw [matchAgainst, metaNode?]
          cases p.shape with
          | leaf kind => cases kind <;> simp [FormulaShape.metaNode?, FormulaLeaf.family?]
          | _ => simp [FormulaShape.metaNode?]
  | term p =>
      cases concrete with
      | term => exact absurd rfl sorts
      | formula c =>
          rw [matchAgainst, metaNode?]
          cases p.shape with
          | leaf kind => cases kind <;> simp [TermShape.metaNode?, TermLeaf.family?]
          | apply head => cases head <;> simp [TermShape.metaNode?]
          | operation => simp [TermShape.metaNode?]

/-- After a match across sorts the metavariable stands for the concrete expression. -/
theorem exists_value?_of_sorts
    (sorts : pattern.isSentence ≠ concrete.isSentence)
    (succeeds : (pattern.matchAgainst concrete).Succeeds before after) :
    ∃ symbol value, pattern.metaNode? = some ⟨.anyExpression, symbol, []⟩ ∧
      after.value? ⟨.anyExpression, symbol, []⟩ = some value ∧
      value.same concrete = true := by
  obtain ⟨symbol, isMetavariable, met⟩ := (succeeds_iff_of_sorts sorts).mp succeeds
  obtain ⟨value, found, same⟩ := (Metavariable.succeeds_meet_iff.mp met).exists_get?
  rw [after.get?_of_params_eq_nil rfl] at found
  exact ⟨symbol, value, isMetavariable, found, same⟩

/-- On its own, a metavariable for expressions of any sort becomes its value. -/
theorem instantiate_of_any
    (plain : pattern.transform? = none)
    (isMetavariable : pattern.metaNode? = some ⟨.anyExpression, symbol, []⟩)
    (found : session.value? ⟨.anyExpression, symbol, []⟩ = some value) :
    session.instantiate pattern = value := by
  cases writes_of_metaNode? plain isMetavariable with
  | @formulaLeaf kind _ _ familyEq => cases kind <;> cases familyEq; simp [instantiate, found]
  | @termLeaf kind _ _ familyEq => cases kind <;> cases familyEq; simp [instantiate, found]

/-- With a substitution pending at it, an expression is instantiated within its sort. -/
theorem instantiate_of_pending
    {transform : Transform}
    (pending : pattern.transform? = some transform) :
    session.instantiate pattern = pattern.readBy (.instantiate session) := by
  match pattern with
  | .formula (.transformed ..) | .term (.transformed ..) => rfl
  | .formula (.plain _) | .term (.plain _) => cases pending

/-- A metavariable without parameters stays in its place if its value is of the other
sort. -/
theorem readBy_of_sorts
    (plain : pattern.transform? = none)
    (isMetavariable : pattern.metaNode? = some ⟨.anyExpression, symbol, []⟩)
    (found : session.value? ⟨.anyExpression, symbol, []⟩ = some value)
    (sorts : value.isSentence ≠ pattern.isSentence) :
    pattern.readBy (.instantiate session) = pattern := by
  have keeps : (Reading.instantiate session).Keeps pattern := by
    intro metavariable value' isMetavariable' meaning
    cases isMetavariable.symm.trans isMetavariable'
    cases found.symm.trans meaning
    exact sorts
  have writes := writes_of_metaNode? plain isMetavariable
  rw [writes.readBy_of_keeps keeps]
  cases writes <;> rfl

end Expression

namespace Session

open Expression

/-- From any session, after a match across sorts, the pattern is a metavariable for
expressions of any sort and stands for the concrete expression. It is instantiated to
this expression if no substitution is pending at it. Otherwise it is left in its place,
with its substitution, and so is not instantiated to an expression of the other sort. -/
theorem match_across_sorts
    (before after : Session)
    (pattern concrete : Expression)
    (sorts : pattern.isSentence ≠ concrete.isSentence)
    (succeeds : (pattern.matchAgainst concrete).Succeeds before after) :
    (∃ symbol value, pattern.metaNode? = some ⟨.anyExpression, symbol, []⟩ ∧
      after.value? ⟨.anyExpression, symbol, []⟩ = some value ∧
      value.same concrete = true) ∧
    (∀ transform, pattern.transform? = some transform ->
      after.instantiate pattern =
        pattern.withTransform (transform.readBy (.instantiate after))) ∧
    ((after.instantiate pattern).same concrete = true ↔
      pattern.transform? = none) := by
  obtain ⟨symbol, value, isMetavariable, found, same⟩ :=
    exists_value?_of_sorts sorts succeeds
  have stays : ∀ transform, pattern.transform? = some transform ->
      after.instantiate pattern =
        pattern.withTransform (transform.readBy (.instantiate after)) := by
    intro transform pending
    have read : pattern.withoutTransform.readBy (.instantiate after) =
        pattern.withoutTransform := by
      refine readBy_of_sorts transform?_withoutTransform (by simpa using isMetavariable)
        found ?_
      rw [isSentence_eq_of_same same, isSentence_withoutTransform]
      exact sorts.symm
    rw [instantiate_of_pending pending, readBy_of_pending pending,
      Reading.attach_instantiate, read]
    cases pattern <;> rfl
  refine ⟨⟨symbol, value, isMetavariable, found, same⟩, stays, ?_⟩
  cases pending : pattern.transform? with
  | none =>
      rw [instantiate_of_any pending isMetavariable found]
      exact iff_of_true same rfl
  | some transform =>
      refine iff_of_false (fun same' => sorts ?_) (by simp)
      rw [stays transform pending] at same'
      rw [← isSentence_eq_of_same same']
      cases pattern <;> rfl

/-- A metavariable for expressions of any sort, written as a formula, is matched with the
term `f(a)` and instantiated to it. -/
theorem match_across_sorts_application :
    let schema : Expression := .formula (.leaf .anyMeta ⟨"X", .anyMeta⟩)
    let application : Expression :=
      .term (.plain (.apply .function ⟨"f", .function⟩
        [.leaf .constant ⟨"a", .constant⟩] .round))
    let after := empty.perform (.matchExpression schema application)
    schema.isSentence ≠ application.isSentence ∧
      (schema.matchAgainst application).Succeeds empty after ∧
      (after.instantiate schema).same application = true := by
  intro schema application after
  have sorts : schema.isSentence ≠ application.isSentence := by decide
  have succeeds : (schema.matchAgainst application).Succeeds empty after := rfl
  obtain ⟨-, -, instantiated⟩ :=
    match_across_sorts empty after schema application sorts succeeds
  exact ⟨sorts, succeeds, instantiated.mpr rfl⟩

/-- With `a` to be put for `x`, the metavariable is matched with the term `b`. It stands
for `b` then, but is instantiated to itself, with `a` still to be put for `x`. -/
theorem match_across_sorts_substitution :
    let x : Term := .leaf .objectVariable ⟨"x", .objectVariable⟩
    let a : Term := .leaf .constant ⟨"a", .constant⟩
    let b : Expression := .term (.leaf .constant ⟨"b", .constant⟩)
    let symbol : Symbol := ⟨"X", .anyMeta⟩
    let schema : Expression :=
      .formula ((Formula.leaf .anyMeta symbol).withTransform ⟨x, a, false⟩)
    let after := empty.perform (.matchExpression schema b)
    schema.isSentence ≠ b.isSentence ∧
      (schema.matchAgainst b).Succeeds empty after ∧
      after.value? ⟨.anyExpression, symbol, []⟩ = some b ∧
      after.instantiate schema = schema ∧
      (after.instantiate schema).same b = false := by
  intro x a b symbol schema after
  exact ⟨by decide, rfl, rfl, rfl, rfl⟩

end Session
end SymbolicLogic
