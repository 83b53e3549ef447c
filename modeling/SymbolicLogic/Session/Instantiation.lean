import SymbolicLogic.Session.Reading

/-!
# Instantiation

Instantiating a schema puts the values of its metavariables in their places and
leaves substitutions pending. Resolving does the same and carries out the
substitutions, those of the values included. Parameters of a complex
metavariable are instantiated to find its value, in both cases.
-/

namespace SymbolicLogic

/-- Metavariables stand for their values; substitutions stay pending. -/
def Reading.instantiate (session : Session) : Reading where
  meaning := fun family symbol _ read => session.value? ⟨family, symbol, read⟩
  attachTerm := Term.withTransform
  attachFormula := Formula.withTransform

namespace Session

def instantiateTerm (session : Session) (term : Term) : Term :=
  term.readBy (.instantiate session)

def instantiateFormula (session : Session) (formula : Formula) : Formula :=
  formula.readBy (.instantiate session)

/-- The key of a metavariable: its parameters are instantiated. -/
def key
    (session : Session)
    (family : MetaFamily)
    (symbol : Symbol)
    (params : List Term) : Metavariable :=
  ⟨family, symbol, Term.readAllBy params (.instantiate session)⟩

end Session

/-- Metavariables stand for their values with substitutions carried out. -/
def Reading.resolve (session : Session) : Reading where
  meaning := fun family symbol written _ =>
    (session.value? (session.key family symbol written)).map
      Expression.carryOut
  attachTerm := Term.settle
  attachFormula := Formula.settle

namespace Session

def resolveTerm (session : Session) (term : Term) : Term :=
  term.readBy (.resolve session)

def resolveFormula (session : Session) (formula : Formula) : Formula :=
  formula.readBy (.resolve session)

/-- Instantiate an expression. An any-expression metavariable on its own
becomes its value, be that a formula or a term. -/
def instantiate (session : Session) (expression : Expression) : Expression :=
  let any? :=
    match expression with
    | .formula (.plain (.leaf .anyMeta symbol)) => some symbol
    | .term (.plain (.leaf .anyMeta symbol)) => some symbol
    | _ => none
  match any?.bind fun symbol => session.value? ⟨.anyExpression, symbol, []⟩ with
  | some value => value
  | none => expression.readBy (.instantiate session)

end Session

mutual

/-- The first metavariable of a term without a value. -/
def Term.unbound? (term : Term) (session : Session) : Option Symbol :=
  match term with
  | .plain shape => shape.unbound? session
  | .transformed shape target replacement _ =>
      shape.unbound? session <|> target.unbound? session <|>
        replacement.unbound? session
termination_by structural term

def TermShape.unbound? (shape : TermShape) (session : Session) : Option Symbol :=
  match shape with
  | .leaf kind symbol =>
      kind.family?.bind fun family =>
        if (session.value? ⟨family, symbol, []⟩).isSome then none
        else some symbol
  | .apply .function _ args _ => Term.unboundAmong? args session
  | .apply .complexMeta symbol args _ =>
      Term.unboundAmong? args session <|>
        if (session.value? (session.key .complexTerm symbol args)).isSome then
          none
        else some symbol
  | .operation _ left right _ =>
      left.unbound? session <|> right.unbound? session
termination_by structural shape

/-- The first metavariable of a list of terms without a value. -/
def Term.unboundAmong? (terms : List Term) (session : Session) : Option Symbol :=
  match terms with
  | [] => none
  | term :: terms =>
      term.unbound? session <|> Term.unboundAmong? terms session
termination_by structural terms

end

/-- The metavariables of a list of terms are looked through from the front. -/
theorem Term.unboundAmong?_eq_findSome?
    (terms : List Term)
    (session : Session) :
    Term.unboundAmong? terms session =
      terms.findSome? fun term => term.unbound? session := by
  induction terms with
  | nil => rfl
  | cons term terms ih =>
      rw [Term.unboundAmong?, ih, List.findSome?_cons]
      cases term.unbound? session <;> rfl

/-- The first metavariable of a pending substitution without a value. -/
def Transform.unbound? (transform : Transform) (session : Session) : Option Symbol :=
  transform.target.unbound? session <|> transform.replacement.unbound? session

mutual

/-- The first metavariable of a formula without a value. -/
def Formula.unbound? (formula : Formula) (session : Session) : Option Symbol :=
  match formula with
  | .plain shape => shape.unbound? session
  | .transformed shape transform =>
      shape.unbound? session <|> transform.unbound? session
termination_by structural formula

def FormulaShape.unbound?
    (shape : FormulaShape)
    (session : Session) : Option Symbol :=
  match shape with
  | .leaf kind symbol =>
      kind.family?.bind fun family =>
        if (session.value? ⟨family, symbol, []⟩).isSome then none
        else some symbol
  | .relation _ args => Term.unboundAmong? args session
  | .comparison _ left right _ =>
      left.unbound? session <|> right.unbound? session
  | .complexMeta symbol params _ =>
      Term.unboundAmong? params session <|>
        if (session.value? (session.key .complexFormula symbol params)).isSome
        then none
        else some symbol
  | .negation _ operand => operand.unbound? session
  | .binary _ _ left right _ =>
      left.unbound? session <|> right.unbound? session
  | .quantified _ _ boundVariable restriction scope =>
      boundVariable.unbound? session <|> restriction.unbound? session <|>
        scope.unbound? session
termination_by structural shape

def Restriction.unbound?
    (restriction : Restriction)
    (session : Session) : Option Symbol :=
  match restriction with
  | .unrestricted => none
  | .bounded _ bound _ => bound.unbound? session
  | .restricted _ formula _ => formula.unbound? session
termination_by structural restriction

end
end SymbolicLogic
