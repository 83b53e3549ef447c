import SymbolicLogic.Proofs.Expression.Readings

/-!
# Occurrences of a metavariable

An expression that a metavariable is written as is accepted by its family, unless it
stands for variables only. The family and the symbol determine how it is written, up to
the sort of its place where it stands for expressions of any sort. So two occurrences of
one metavariable in places of one sort are the same.
-/

namespace SymbolicLogic

/-- A family of metavariables belongs to one kind of formula leaves. -/
theorem FormulaLeaf.eq_of_family?
    {kind kind' : FormulaLeaf}
    {family : MetaFamily}
    (familyEq : kind.family? = some family)
    (familyEq' : kind'.family? = some family) : kind = kind' := by
  cases kind <;> cases familyEq <;> cases kind' <;> cases familyEq' <;> rfl

/-- A family of metavariables belongs to one kind of term leaves. -/
theorem TermLeaf.eq_of_family?
    {kind kind' : TermLeaf}
    {family : MetaFamily}
    (familyEq : kind.family? = some family)
    (familyEq' : kind'.family? = some family) : kind = kind' := by
  cases kind <;> cases familyEq <;> cases kind' <;> cases familyEq' <;> rfl

namespace Expression.Writes

variable {expression value left right : Expression}
  {metavariable metavariable' : Metavariable}

/-- All families but one determine the sort of their values. -/
theorem isSentence_eq
    (writes : expression.Writes metavariable)
    (accepts : metavariable.family.accepts value = true)
    (sorts : metavariable.family = .anyExpression ->
      value.isSentence = expression.isSentence) :
    value.isSentence = expression.isSentence := by
  cases writes with
  | @formulaLeaf kind family symbol familyEq =>
      cases kind with
      | letter => cases familyEq
      | formulaMeta =>
          cases familyEq
          cases value with
          | formula => rfl
          | term => cases accepts
      | anyMeta =>
          cases familyEq
          exact sorts rfl
  | @termLeaf kind family symbol familyEq =>
      cases kind with
      | constant | objectVariable => cases familyEq
      | termMeta | variableMeta =>
          cases familyEq
          cases value with
          | formula => cases accepts
          | term => rfl
      | anyMeta =>
          cases familyEq
          exact sorts rfl
  | complexFormula =>
      cases value with
      | formula => rfl
      | term => cases accepts
  | complexTerm =>
      cases value with
      | formula => cases accepts
      | term => rfl

/-- A metavariable may stand for itself, but one for variables is not a variable. -/
theorem accepts
    (writes : expression.Writes metavariable)
    (noVariable : metavariable.family ≠ .objectVariable) :
    metavariable.family.accepts expression = true := by
  cases writes with
  | @formulaLeaf kind family symbol familyEq => cases kind <;> cases familyEq <;> rfl
  | @termLeaf kind family symbol familyEq =>
      cases kind <;> cases familyEq
      · rfl
      · exact absurd rfl noVariable
      · rfl
  | complexFormula | complexTerm => rfl

/-- Metavariables of one family, symbol and sort are written at nodes with one head. -/
theorem head_eq_of_same
    (writes : left.Writes metavariable)
    (writes' : right.Writes metavariable')
    (families : metavariable.family = metavariable'.family)
    (symbols : metavariable.symbol.text = metavariable'.symbol.text)
    (sorts : left.isSentence = right.isSentence) : left.head = right.head := by
  cases writes with
  | @formulaLeaf kind family symbol familyEq =>
      cases writes' with
      | formulaLeaf symbol' familyEq' =>
          cases families
          cases FormulaLeaf.eq_of_family? familyEq familyEq'
          exact congrArg (NodeHead.formulaLeaf _) symbols
      | complexFormula =>
          cases families
          cases kind <;> cases familyEq
      | termLeaf | complexTerm => cases sorts
  | @termLeaf kind family symbol familyEq =>
      cases writes' with
      | termLeaf symbol' familyEq' =>
          cases families
          cases TermLeaf.eq_of_family? familyEq familyEq'
          exact congrArg (NodeHead.termLeaf _) symbols
      | complexTerm =>
          cases families
          cases kind <;> cases familyEq
      | formulaLeaf | complexFormula => cases sorts
  | complexFormula =>
      cases writes' with
      | complexFormula => exact congrArg NodeHead.complexMeta symbols
      | @formulaLeaf kind family symbol familyEq =>
          cases families
          cases kind <;> cases familyEq
      | termLeaf | complexTerm => cases sorts
  | complexTerm =>
      cases writes' with
      | complexTerm => exact congrArg (NodeHead.application _) symbols
      | @termLeaf kind family symbol familyEq =>
          cases families
          cases kind <;> cases familyEq
      | formulaLeaf | complexFormula => cases sorts

/-- Occurrences of one metavariable are the same where they are of one sort. -/
theorem same_of_same
    (writes : left.Writes metavariable)
    (writes' : right.Writes metavariable')
    (same : metavariable.same metavariable' = true)
    (sorts : left.isSentence = right.isSentence) : left.same right = true := by
  obtain ⟨families, symbols, params⟩ := (Metavariable.same_iff_parts _ _).mp same
  refine (same_iff_parts writes.transform?_eq writes'.transform?_eq).mpr
    ⟨writes.head_eq_of_same writes' families symbols sorts, ?_⟩
  rw [writes.children_eq, writes'.children_eq, List.forall₂_map_left_iff,
    List.forall₂_map_right_iff]
  exact params

end Expression.Writes
end SymbolicLogic
