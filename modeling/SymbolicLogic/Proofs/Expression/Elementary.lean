import SymbolicLogic.Proofs.Expression.NormalForm
import SymbolicLogic.Proofs.Expression.Substitution

/-!
# Elementary expressions

An expression is elementary if it has no quantifier, no metavariable and no pending
substitution. Substitution keeps it so, and so does carrying out where every pending
substitution is one for a variable. In elementary expressions nothing is captured, so
a substitution is told by the variables that are free.
-/

namespace SymbolicLogic

namespace Expression

variable {expression expression' : Expression} {target replacement replacement' : Term}
  {onTerm onTerm' : Term -> Term} {onFormula onFormula' : Formula -> Formula}
  {x z : Symbol} {s t : Term}

/-- Substitution and taking standard forms can be exchanged. -/
theorem standard_substitute :
    (expression.substitute target replacement).standard =
      expression.standard.substitute target.standard replacement.standard := by
  cases expression with
  | formula f => exact congrArg formula (f.standard_substitute target replacement)
  | term t => exact congrArg term (t.standard_substitute target replacement)

/-- Substitution of the same terms in the same expressions gives the same expressions. -/
theorem same_substitute
    (same : expression.same expression' = true)
    (replacements : (term replacement).same (.term replacement') = true) :
    (expression.substitute target replacement).same
      (expression'.substitute target replacement') = true := by
  rw [same_iff] at same replacements ⊢
  rw [standard_substitute, standard_substitute, same, term.inj replacements]

theorem isSchematic_standard :
    expression.standard.isSchematic = expression.isSchematic := by
  cases expression with
  | formula f => exact f.isSchematic_standard
  | term t => exact t.isSchematic_standard

/-- Of two expressions that are the same, both are schematic or neither is. -/
theorem isSchematic_eq_of_same (same : expression.same expression' = true) :
    expression.isSchematic = expression'.isSchematic := by
  rw [← isSchematic_standard, (same_iff _ _).mp same, isSchematic_standard]

/-- Other parts make the same node exactly if they are the same. -/
theorem same_mapParts_iff :
    (expression.mapParts onTerm onFormula).same
        (expression.mapParts onTerm' onFormula') = true ↔
      (∀ part ∈ expression.terms, (onTerm part).same (onTerm' part) = true) ∧
        ∀ part ∈ expression.formulas,
          (onFormula part).same (onFormula' part) = true := by
  cases expression with
  | formula f =>
      rw [mapParts, mapParts, terms, formulas]
      cases f.shape with
      | quantified _ _ _ restriction =>
          cases restriction <;>
            simp [Expression.same, Formula.same, FormulaShape.mapParts,
              FormulaShape.same, Restriction.mapParts, Restriction.same,
              FormulaShape.terms, FormulaShape.formulas, Restriction.terms,
              Restriction.formulas]
      | _ =>
          simp [Expression.same, Formula.same, FormulaShape.mapParts,
            FormulaShape.same, Term.sameAll_iff_forall₂, List.forall₂_same,
            FormulaShape.terms, FormulaShape.formulas]
  | term t =>
      rw [mapParts, mapParts, terms, formulas]
      cases t.shape <;>
        simp [Expression.same, Term.same, TermShape.mapParts, TermShape.same,
          Term.sameAll_iff_forall₂, List.forall₂_same, TermShape.children]

/-- Put in for a variable that is free, only the same terms give the same. -/
theorem same_of_same_substitute
    (bare : expression.IsBare)
    (free : x.text ∈ expression.freeVariables)
    (same : (expression.substitute (.ofVariable x) s).same
      (expression.substitute (.ofVariable x) t) = true) : s.same t = true := by
  induction expression, bare using bareInduction with
  | node expression bare terms formulas =>
      have plain := bare.whole
      by_cases named : expression.variableName? = some x.text
      · rwa [substitute_of_variable named, substitute_of_variable named] at same
      rw [substitute_eq_mapParts plain named, substitute_eq_mapParts plain named,
        same_mapParts_iff] at same
      rcases (mem_freeVariables_iff plain).mp free with
        isName | ⟨part, member, free⟩ | ⟨unbound, part, member, free⟩
      · exact absurd isName named
      · exact terms part member free (same.1 part member)
      · have parts := same.2 part member
        rw [substituteUnder, if_neg unbound, substituteUnder, if_neg unbound] at parts
        exact formulas part member free parts

/-- The expression has no quantifier, no metavariable and no pending substitution. -/
def IsElementary (expression : Expression) : Prop :=
  expression.Everywhere fun node =>
    node.transform? = none ∧ node.kind.isMetavariable = false ∧
      node.kind.isQuantifier = false

/-- The parts of a node without a quantifier are those that substitution changes. -/
theorem children_eq_parts (unquantified : expression.kind.isQuantifier = false) :
    expression.children =
      expression.terms.map term ++ expression.formulas.map formula := by
  cases expression with
  | formula f =>
      rw [kind] at unquantified
      rw [children, terms, formulas]
      cases shapeEq : f.shape with
      | quantified _ quantifier _ restriction =>
          rw [shapeEq] at unquantified
          cases quantifier <;> cases restriction <;> cases unquantified
      | _ =>
          simp [FormulaShape.children, FormulaShape.terms, FormulaShape.formulas]
  | term t => simp [children, terms, formulas]

/-- Only quantified formulas bind a variable. -/
theorem binder?_eq_none (unquantified : expression.kind.isQuantifier = false) :
    expression.binder? = none := by
  cases expression with
  | formula f =>
      rw [kind] at unquantified
      rw [binder?]
      cases shapeEq : f.shape with
      | quantified _ quantifier _ restriction =>
          rw [shapeEq] at unquantified
          cases quantifier <;> cases restriction <;> cases unquantified
      | _ => rfl
  | term => rfl

/-- Substitution in a node without a quantifier is substitution in all parts. -/
theorem substitute_eq_mapParts_of_unquantified
    (plain : expression.transform? = none)
    (unquantified : expression.kind.isQuantifier = false)
    (other : expression.variableName? ≠ some x.text) :
    expression.substitute (.ofVariable x) t =
      expression.mapParts (fun term => term.substitute (.ofVariable x) t)
        fun formula => formula.substitute (.ofVariable x) t := by
  rw [substitute_eq_mapParts plain other, binder?_eq_none unquantified]
  rfl

/-- A node that is no quantifier and no metavariable is read part by part. -/
theorem readBy_eq_mapParts
    (reading : Reading)
    (plain : expression.transform? = none)
    (ordinary : expression.kind.isMetavariable = false)
    (unquantified : expression.kind.isQuantifier = false) :
    expression.readBy reading =
      expression.mapParts (fun term => term.readBy reading)
        fun formula => formula.readBy reading := by
  match expression with
  | .formula (.plain shape) =>
      cases shape with
      | leaf kind => cases kind <;> cases ordinary; rfl
      | relation =>
          simp [readBy, Formula.readBy, FormulaShape.readBy, mapParts,
            FormulaShape.mapParts, Formula.shape, Term.readAllBy_eq_map]
      | complexMeta => cases ordinary
      | quantified _ quantifier _ restriction =>
          cases quantifier <;> cases restriction <;> cases unquantified
      | comparison | negation | binary => rfl
  | .term (.plain shape) =>
      cases shape with
      | leaf kind => cases kind <;> cases ordinary <;> rfl
      | apply head =>
          cases head with
          | complexMeta => cases ordinary
          | function =>
              simp [readBy, Term.readBy, TermShape.readBy, mapParts,
                TermShape.mapParts, Term.shape, Term.readAllBy_eq_map]
      | operation => rfl
  | .formula (.transformed ..) | .term (.transformed ..) => cases plain

namespace IsElementary

/-- Nothing is pending in an elementary expression. -/
theorem isBare (elementary : expression.IsElementary) : expression.IsBare :=
  fun node occurs => (elementary node occurs).1

theorem not_binds
    (elementary : expression.IsElementary)
    (name : String) : ¬expression.Binds name := by
  rintro ⟨node, occurs, binder⟩
  rw [binder?_eq_none (elementary node occurs).2.2] at binder
  cases binder

/-- An elementary expression has no metavariables either, so it is concrete. -/
theorem isConcrete (elementary : expression.IsElementary) : expression.IsConcrete :=
  fun node occurs => ⟨(elementary node occurs).1, (elementary node occurs).2.1⟩

theorem isSchematic_eq_false (elementary : expression.IsElementary) :
    expression.isSchematic = false :=
  elementary.isConcrete.isSchematic_eq_false

/-- A node with elementary parts is elementary. -/
theorem mapParts
    (ordinary : expression.kind.isMetavariable = false)
    (unquantified : expression.kind.isQuantifier = false)
    (terms : ∀ part ∈ expression.terms, (term (onTerm part)).IsElementary)
    (formulas : ∀ part ∈ expression.formulas,
      (formula (onFormula part)).IsElementary) :
    (expression.mapParts onTerm onFormula).IsElementary := by
  refine .of_parts ?_ ?_
  · rw [transform?_mapParts, kind_mapParts]
    exact ⟨rfl, ordinary, unquantified⟩
  · rw [children_eq_parts (by rwa [kind_mapParts]), terms_mapParts, formulas_mapParts,
      List.map_map, List.map_map]
    exact List.forall_mem_append.mpr
      ⟨List.forall_mem_map.mpr terms, List.forall_mem_map.mpr formulas⟩

/-- Elementary expressions stay so when elementary terms are put into them. -/
theorem substitute
    (elementary : expression.IsElementary)
    (elementaryTerm : (term t).IsElementary) :
    (expression.substitute (.ofVariable x) t).IsElementary := by
  have bare := elementary.isBare
  induction expression, bare using bareInduction with
  | node expression bare terms formulas =>
      obtain ⟨plain, ordinary, unquantified⟩ := elementary.whole
      by_cases named : expression.variableName? = some x.text
      · rwa [substitute_of_variable named]
      rw [substitute_eq_mapParts_of_unquantified plain unquantified named]
      exact mapParts ordinary unquantified
        (fun part member =>
          terms part member (elementary.part (term_mem_children member)))
        fun part member =>
          formulas part member (elementary.part (formula_mem_children member))

/-- There is nothing to carry out. -/
theorem carryOut_eq_self (elementary : expression.IsElementary) :
    expression.carryOut = expression :=
  elementary.isBare.carryOut_eq_self

end IsElementary

section Closed

variable (elementary : (term t).IsElementary) (closed : t.freeVariables = ∅)

include elementary closed

/-- In an elementary expression a term without variables can be put in first, unless the
other substitution is for the same variable and puts in something else. -/
theorem same_substitute_substitute_iff
    (elementaryCarrier : expression.IsElementary)
    (elementaryReplacement : (term s).IsElementary) :
    ((expression.substitute (.ofVariable x) t).substitute (.ofVariable z)
          (s.substitute (.ofVariable x) t)).same
        ((expression.substitute (.ofVariable z) s).substitute (.ofVariable x) t) = true ↔
      (z.text = x.text -> x.text ∈ expression.freeVariables ->
        (s.substitute (.ofVariable x) t).same t = true) := by
  have bare := elementaryCarrier.isBare
  by_cases names : z.text = x.text
  · have bareResult : (expression.substitute (.ofVariable x) t).IsBare :=
      (elementaryCarrier.substitute elementary).isBare
    have replaced :
        x.text ∉ (expression.substitute (.ofVariable x) t).freeVariables := by
      rw [mem_freeVariables_substitute_iff bare fun name _ =>
        elementaryCarrier.not_binds name, closed]
      simp
    rw [substitute_ofVariable_congr bareResult names,
      substitute_ofVariable_congr bare names,
      substitute_of_not_free bareResult replaced, substitute_substitute_self bare]
    refine ⟨fun same _ free => ?_, fun puts => ?_⟩
    · exact same_of_same_substitute bare free (same_symm same)
    · by_cases free : x.text ∈ expression.freeVariables
      · exact same_substitute (same_refl _) (same_symm (puts names free))
      · rw [substitute_of_not_free bare free, substitute_of_not_free bare free]
        exact same_refl _
  · rw [substitute_substitute bare elementaryReplacement.isBare elementary.isBare names
      (by simp [closed]) fun name _ => elementaryCarrier.not_binds name]
    exact iff_of_true (same_refl _) fun equal => absurd equal names

end Closed

end Expression
end SymbolicLogic
