import Mathlib.Data.Finset.Option
import Mathlib.Data.Finset.SDiff
import SymbolicLogic.Expression.Kind
import SymbolicLogic.Proofs.Expression.Nodes

/-!
# Variables and scopes

A quantifier binds its variable in its scope and in the formula that restricts it, but
not in its bound. The variable itself is no occurrence. So the parts of a node are terms,
whose variables are free in the whole, and formulas, where the node may bind a
variable; substitution changes these parts and keeps the rest of the node.
-/

namespace SymbolicLogic

/-- An object-language variable. -/
def Term.ofVariable (symbol : Symbol) : Term :=
  .leaf .objectVariable symbol

/-- The name of an object-language variable; other terms have none. -/
def Term.variableName? : Term -> Option String
  | .plain (.leaf .objectVariable symbol) => some symbol.text
  | _ => none

@[simp] theorem Term.variableName?_ofVariable (symbol : Symbol) :
    (Term.ofVariable symbol).variableName? = some symbol.text := rfl

/-- A term that names a variable is the variable. -/
theorem Term.exists_of_variableName?
    {term : Term}
    {name : String}
    (named : term.variableName? = some name) :
    ∃ symbol, term = .ofVariable symbol ∧ symbol.text = name := by
  match term with
  | .plain (.leaf kind symbol) =>
      cases kind <;> cases named
      exact ⟨symbol, rfl, rfl⟩
  | .plain (.apply ..) | .plain (.operation ..) | .transformed .. => cases named

/-- What is the same as a variable is the variable of its name. -/
theorem Term.same_ofVariable_iff (term : Term) (symbol : Symbol) :
    term.same (.ofVariable symbol) = true ↔
      term.variableName? = some symbol.text := by
  match term with
  | .plain (.leaf kind _) =>
      cases kind <;>
        simp [Term.same, TermShape.same, ofVariable, leaf, variableName?]
  | .plain (.apply ..) | .plain (.operation ..) | .transformed .. =>
      simp [Term.same, TermShape.same, ofVariable, leaf, variableName?]

mutual

/-- Names of the variables that are free in a term: all that occur, unless a pending
substitution replaces them. -/
def Term.freeVariables : Term -> Finset String
  | .plain shape => shape.freeVariables
  | .transformed shape target replacement _ =>
      shape.freeVariables \ target.variableName?.toFinset ∪
        replacement.freeVariables

def TermShape.freeVariables : TermShape -> Finset String
  | .leaf .objectVariable symbol => {symbol.text}
  | .leaf .. => ∅
  | .apply _ _ args _ => Term.freeVariablesAmong args
  | .operation _ left right _ => left.freeVariables ∪ right.freeVariables

def Term.freeVariablesAmong : List Term -> Finset String
  | [] => ∅
  | term :: terms => term.freeVariables ∪ Term.freeVariablesAmong terms

end

/-- A variable is free among terms if it is free in one of them. -/
theorem Term.mem_freeVariablesAmong_iff {name : String} (terms : List Term) :
    name ∈ Term.freeVariablesAmong terms ↔
      ∃ term ∈ terms, name ∈ term.freeVariables := by
  induction terms with
  | nil => simp [freeVariablesAmong]
  | cons term terms inductionHypothesis =>
      simp [freeVariablesAmong, inductionHypothesis]

mutual

/-- Names of the variables that are free in a formula. A pending substitution binds its
target in its carrier and not in its replacement. -/
def Formula.freeVariables : Formula -> Finset String
  | .plain shape => shape.freeVariables
  | .transformed shape transform =>
      shape.freeVariables \ transform.target.variableName?.toFinset ∪
        transform.replacement.freeVariables

def FormulaShape.freeVariables : FormulaShape -> Finset String
  | .leaf .. => ∅
  | .relation _ args => Term.freeVariablesAmong args
  | .comparison _ left right _ => left.freeVariables ∪ right.freeVariables
  | .complexMeta _ params _ => Term.freeVariablesAmong params
  | .negation _ operand => operand.freeVariables
  | .binary _ _ left right _ => left.freeVariables ∪ right.freeVariables
  | .quantified _ _ boundVariable restriction scope =>
      restriction.freeVariables boundVariable ∪
        scope.freeVariables \ boundVariable.variableName?.toFinset

/-- Names of the variables that are free in what restricts a quantifier: its variable
is not bound in the bound. -/
def Restriction.freeVariables
    (restriction : Restriction)
    (boundVariable : Term) : Finset String :=
  match restriction with
  | .unrestricted => ∅
  | .bounded _ bound _ => bound.freeVariables
  | .restricted _ formula _ =>
      formula.freeVariables \ boundVariable.variableName?.toFinset

end

def Restriction.terms : Restriction -> List Term
  | .bounded _ bound _ => [bound]
  | .unrestricted | .restricted .. => []

def Restriction.formulas : Restriction -> List Formula
  | .restricted _ formula _ => [formula]
  | .unrestricted | .bounded .. => []

namespace FormulaShape

/-- The terms among the parts, without the variable that is bound. -/
def terms : FormulaShape -> List Term
  | .relation _ args => args
  | .complexMeta _ params _ => params
  | .comparison _ left right _ => [left, right]
  | .quantified _ _ _ restriction _ => restriction.terms
  | .leaf .. | .negation .. | .binary .. => []

/-- The formulas among the parts, which are the scope of a variable that is bound. -/
def formulas : FormulaShape -> List Formula
  | .negation _ operand => [operand]
  | .binary _ _ left right _ => [left, right]
  | .quantified _ _ _ restriction scope => restriction.formulas ++ [scope]
  | .leaf .. | .relation .. | .comparison .. | .complexMeta .. => []

/-- The name of the variable that a quantifier binds. -/
def binder? : FormulaShape -> Option String
  | .quantified _ _ boundVariable _ _ => boundVariable.variableName?
  | _ => none

end FormulaShape

def TermShape.mapParts (onTerm : Term -> Term) : TermShape -> TermShape
  | .leaf kind symbol => .leaf kind symbol
  | .apply head symbol args brackets => .apply head symbol (args.map onTerm) brackets
  | .operation symbol left right brackets =>
      .operation symbol (onTerm left) (onTerm right) brackets

def Restriction.mapParts
    (onTerm : Term -> Term)
    (onFormula : Formula -> Formula) : Restriction -> Restriction
  | .unrestricted => .unrestricted
  | .bounded relation bound brackets => .bounded relation (onTerm bound) brackets
  | .restricted divider formula brackets =>
      .restricted divider (onFormula formula) brackets

def FormulaShape.mapParts
    (onTerm : Term -> Term)
    (onFormula : Formula -> Formula) : FormulaShape -> FormulaShape
  | .leaf kind symbol => .leaf kind symbol
  | .relation symbol args => .relation symbol (args.map onTerm)
  | .comparison symbol left right complement =>
      .comparison symbol (onTerm left) (onTerm right) complement
  | .complexMeta symbol params brackets =>
      .complexMeta symbol (params.map onTerm) brackets
  | .negation symbol operand => .negation symbol (onFormula operand)
  | .binary symbol connective left right brackets =>
      .binary symbol connective (onFormula left) (onFormula right) brackets
  | .quantified symbol quantifier boundVariable restriction scope =>
      .quantified symbol quantifier boundVariable
        (restriction.mapParts onTerm onFormula) (onFormula scope)

namespace Expression

/-- Names of the variables that are free in an expression. -/
def freeVariables : Expression -> Finset String
  | .formula f => f.freeVariables
  | .term t => t.freeVariables

def variableName? : Expression -> Option String
  | .formula _ => none
  | .term t => t.variableName?

/-- The name of the variable that the node binds. -/
def binder? : Expression -> Option String
  | .formula f => f.shape.binder?
  | .term _ => none

/-- Some quantifier in the expression binds the variable. -/
def Binds (expression : Expression) (name : String) : Prop :=
  ∃ node : Expression, node.OccursIn expression ∧ node.binder? = some name

def terms : Expression -> List Term
  | .formula f => f.shape.terms
  | .term t => t.shape.children

def formulas : Expression -> List Formula
  | .formula f => f.shape.formulas
  | .term _ => []

/-- The node without its pending substitution, and with other parts. The variable that
a quantifier binds stays. -/
def mapParts
    (onTerm : Term -> Term)
    (onFormula : Formula -> Formula) : Expression -> Expression
  | .formula f => .formula (.plain (f.shape.mapParts onTerm onFormula))
  | .term t => .term (.plain (t.shape.mapParts onTerm))

variable {expression : Expression} {name : String}
  {onTerm onTerm' : Term -> Term} {onFormula onFormula' : Formula -> Formula}

/-- The terms of a node are parts of it. -/
theorem term_mem_children
    {term : Term}
    (member : term ∈ expression.terms) : .term term ∈ expression.children := by
  cases expression with
  | formula f =>
      rw [terms] at member
      rw [children]
      cases shapeEq : f.shape with
      | quantified _ _ _ restriction =>
          rw [shapeEq] at member
          cases restriction <;>
            simp_all [FormulaShape.terms, Restriction.terms, FormulaShape.children,
              FormulaShape.restrictionChildren]
      | _ => simp_all [FormulaShape.terms, FormulaShape.children]
  | term t => exact List.mem_map_of_mem member

/-- The formulas of a node are parts of it. -/
theorem formula_mem_children
    {formula : Formula}
    (member : formula ∈ expression.formulas) :
    .formula formula ∈ expression.children := by
  cases expression with
  | formula f =>
      rw [formulas] at member
      rw [children]
      cases shapeEq : f.shape with
      | quantified _ _ _ restriction =>
          rw [shapeEq] at member
          cases restriction <;>
            simp_all [FormulaShape.formulas, Restriction.formulas,
              FormulaShape.children, FormulaShape.restrictionChildren]
      | _ => simp_all [FormulaShape.formulas, FormulaShape.children]
  | term => cases member

/-- What is bound in a part is bound in the expression. -/
theorem Binds.part
    {part : Expression}
    (member : part ∈ expression.children)
    (binds : part.Binds name) : expression.Binds name := by
  obtain ⟨node, occurs, binder⟩ := binds
  exact ⟨node, .part member occurs, binder⟩

/-- A variable is free in a node that is the variable itself, if it is free in a term
of the node, or in a formula of the node and not bound by the node. -/
theorem mem_freeVariables_iff (plain : expression.transform? = none) :
    name ∈ expression.freeVariables ↔
      expression.variableName? = some name ∨
        (∃ term ∈ expression.terms, name ∈ term.freeVariables) ∨
          expression.binder? ≠ some name ∧
            ∃ formula ∈ expression.formulas, name ∈ formula.freeVariables := by
  match expression with
  | .formula (.plain shape) =>
      cases shape with
      | relation | complexMeta =>
          simp [freeVariables, Formula.freeVariables, FormulaShape.freeVariables,
            variableName?, terms, formulas, FormulaShape.terms,
            FormulaShape.formulas, Term.mem_freeVariablesAmong_iff]
      | quantified _ _ boundVariable restriction =>
          cases restriction <;>
            simp [freeVariables, Formula.freeVariables, FormulaShape.freeVariables,
              Restriction.freeVariables, variableName?, terms, formulas,
              FormulaShape.terms, FormulaShape.formulas, Restriction.terms,
              Restriction.formulas, binder?, FormulaShape.binder?, and_comm,
              or_and_right, exists_or]
      | leaf | comparison | negation | binary =>
          simp [freeVariables, Formula.freeVariables, FormulaShape.freeVariables,
            variableName?, terms, formulas, FormulaShape.terms,
            FormulaShape.formulas, binder?, FormulaShape.binder?]
  | .term (.plain shape) =>
      cases shape with
      | leaf kind =>
          cases kind <;>
            simp [freeVariables, Term.freeVariables, TermShape.freeVariables,
              variableName?, Term.variableName?, terms, formulas,
              TermShape.children, eq_comm]
      | apply =>
          simp [freeVariables, Term.freeVariables, TermShape.freeVariables,
            variableName?, Term.variableName?, terms, formulas, TermShape.children,
            Term.mem_freeVariablesAmong_iff]
      | operation =>
          simp [freeVariables, Term.freeVariables, TermShape.freeVariables,
            variableName?, Term.variableName?, terms, formulas, TermShape.children]
  | .formula (.transformed ..) | .term (.transformed ..) => cases plain

@[simp] theorem transform?_mapParts :
    (expression.mapParts onTerm onFormula).transform? = none := by
  cases expression <;> rfl

@[simp] theorem kind_mapParts :
    (expression.mapParts onTerm onFormula).kind = expression.kind := by
  cases expression with
  | formula f =>
      rw [mapParts, kind, kind, Formula.shape]
      cases f.shape with
      | leaf kind => cases kind <;> rfl
      | quantified _ quantifier _ restriction =>
          cases quantifier <;> cases restriction <;> rfl
      | _ => rfl
  | term t =>
      rw [mapParts, kind, kind, Term.shape]
      cases t.shape with
      | leaf kind => cases kind <;> rfl
      | apply head => cases head <;> rfl
      | operation => rfl

@[simp] theorem binder?_mapParts :
    (expression.mapParts onTerm onFormula).binder? = expression.binder? := by
  cases expression with
  | formula f =>
      rw [mapParts, binder?, binder?, Formula.shape]
      cases f.shape <;> rfl
  | term => rfl

/-- The terms of a changed node are the terms that were put in. -/
@[simp] theorem terms_mapParts :
    (expression.mapParts onTerm onFormula).terms = expression.terms.map onTerm := by
  cases expression with
  | formula f =>
      rw [mapParts, terms, terms, Formula.shape]
      cases f.shape with
      | quantified _ _ _ restriction => cases restriction <;> rfl
      | _ => rfl
  | term t =>
      rw [mapParts, terms, terms, Term.shape]
      cases t.shape <;> rfl

/-- The formulas of a changed node are the formulas that were put in. -/
@[simp] theorem formulas_mapParts :
    (expression.mapParts onTerm onFormula).formulas =
      expression.formulas.map onFormula := by
  cases expression with
  | formula f =>
      rw [mapParts, formulas, formulas, Formula.shape]
      cases f.shape with
      | quantified _ _ _ restriction => cases restriction <;> rfl
      | _ => rfl
  | term => rfl

theorem variableName?_mapParts (plain : expression.transform? = none) :
    (expression.mapParts onTerm onFormula).variableName? =
      expression.variableName? := by
  match expression with
  | .formula _ => rfl
  | .term (.plain (.leaf kind _)) => cases kind <;> rfl
  | .term (.plain (.apply ..)) | .term (.plain (.operation ..)) => rfl
  | .term (.transformed ..) => cases plain

/-- Two changes of the parts of a node are one change. -/
@[simp] theorem mapParts_mapParts :
    (expression.mapParts onTerm onFormula).mapParts onTerm' onFormula' =
      expression.mapParts (fun term => onTerm' (onTerm term))
        fun formula => onFormula' (onFormula formula) := by
  cases expression with
  | formula f =>
      rw [mapParts, mapParts, mapParts, Formula.shape]
      cases f.shape with
      | quantified _ _ _ restriction =>
          cases restriction <;> simp [FormulaShape.mapParts, Restriction.mapParts]
      | _ => simp [FormulaShape.mapParts]
  | term t =>
      rw [mapParts, mapParts, mapParts, Term.shape]
      cases t.shape <;> simp [TermShape.mapParts]

/-- Changes that agree on the parts of a node agree on the node. -/
theorem mapParts_congr
    (onTerms : ∀ term ∈ expression.terms, onTerm term = onTerm' term)
    (onFormulas : ∀ formula ∈ expression.formulas,
      onFormula formula = onFormula' formula) :
    expression.mapParts onTerm onFormula =
      expression.mapParts onTerm' onFormula' := by
  cases expression with
  | formula f =>
      rw [mapParts, mapParts]
      rw [terms] at onTerms
      rw [formulas] at onFormulas
      cases shapeEq : f.shape with
      | quantified _ _ _ restriction =>
          cases restriction <;>
            simp_all [FormulaShape.mapParts, Restriction.mapParts,
              FormulaShape.terms, FormulaShape.formulas, Restriction.terms,
              Restriction.formulas]
      | _ =>
          simp_all [FormulaShape.mapParts, FormulaShape.terms,
            FormulaShape.formulas]
  | term t =>
      rw [mapParts, mapParts]
      rw [terms] at onTerms
      cases shapeEq : t.shape <;> simp_all [TermShape.mapParts, TermShape.children]

/-- A change that leaves all parts as they are leaves a plain node as it is. -/
theorem mapParts_eq_self
    (plain : expression.transform? = none)
    (onTerms : ∀ term ∈ expression.terms, onTerm term = term)
    (onFormulas : ∀ formula ∈ expression.formulas, onFormula formula = formula) :
    expression.mapParts onTerm onFormula = expression := by
  rw [mapParts_congr onTerms onFormulas]
  match expression with
  | .formula (.plain shape) =>
      cases shape with
      | quantified _ _ _ restriction => cases restriction <;> rfl
      | _ => simp [mapParts, FormulaShape.mapParts]
  | .term (.plain shape) => cases shape <;> simp [mapParts, TermShape.mapParts]
  | .formula (.transformed ..) | .term (.transformed ..) => cases plain

end Expression
end SymbolicLogic
