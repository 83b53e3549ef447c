import SymbolicLogic.Expression.Equality

/-!
# Metavariables and their bindings

A metavariable is told by its family, its symbol and its parameters. A session
is the list of metavariables met so far, in the order in which they were met,
each with the expression it is bound to, if any. Keys are compared by
sameness, so it does not matter how a parameter was written.
-/

namespace SymbolicLogic

/-- What a metavariable ranges over. -/
inductive MetaFamily
  | formula
  | term
  /-- Object-language variables only. -/
  | objectVariable
  | anyExpression
  | complexFormula
  | complexTerm
  deriving DecidableEq, Repr

namespace MetaFamily

/-- The name of a family in messages. -/
def name : MetaFamily -> String
  | .formula => "formula"
  | .term => "term"
  | .objectVariable => "variable"
  | .anyExpression => "formula or term"
  | .complexFormula => "complex formula"
  | .complexTerm => "complex term"

/-- The expressions a metavariable of the family may stand for. -/
def accepts : MetaFamily -> Expression -> Bool
  | .formula, .formula _ | .complexFormula, .formula _ => true
  | .term, .term _ | .complexTerm, .term _ => true
  | .objectVariable, .term t => t.isVariable
  | .anyExpression, _ => true
  | _, _ => false

end MetaFamily

/-- The family a leaf of a term belongs to, if it is a metavariable. -/
def TermLeaf.family? : TermLeaf -> Option MetaFamily
  | .constant | .objectVariable => none
  | .termMeta => some .term
  | .variableMeta => some .objectVariable
  | .anyMeta => some .anyExpression

/-- The family a leaf of a formula belongs to, if it is a metavariable. -/
def FormulaLeaf.family? : FormulaLeaf -> Option MetaFamily
  | .letter => none
  | .formulaMeta => some .formula
  | .anyMeta => some .anyExpression

/-- A metavariable: parameters are present for the complex families only. -/
structure Metavariable where
  family : MetaFamily
  symbol : Symbol
  params : List Term

namespace Metavariable

/-- Metavariables are the same when all three parts are. -/
def same (left right : Metavariable) : Bool :=
  left.family = right.family && left.symbol.same right.symbol &&
    Term.sameAll left.params right.params

/-- The metavariable as it would be written in a schema. -/
def toExpression (metavariable : Metavariable) : Expression :=
  let s := metavariable.symbol
  match metavariable.family with
  | .formula => .formula (.leaf .formulaMeta s)
  | .term => .term (.leaf .termMeta s)
  | .objectVariable => .term (.leaf .variableMeta s)
  | .anyExpression => .formula (.leaf .anyMeta s)
  | .complexFormula =>
      .formula (.plain (.complexMeta s metavariable.params .round))
  | .complexTerm =>
      .term (.plain (.apply .complexMeta s metavariable.params .round))

end Metavariable

/-- A metavariable that was met, and its value once it has one. -/
structure Binding where
  key : Metavariable
  value : Option Expression

/-- The metavariables of one run of matching. -/
structure Session where
  bindings : List Binding

namespace Session

/-- The session in which nothing was met. -/
def empty : Session := ⟨[]⟩

/-- The binding of a key. -/
def find? (session : Session) (key : Metavariable) : Option Binding :=
  session.bindings.find? fun binding => binding.key.same key

/-- The value of a key, if it is bound. -/
def value? (session : Session) (key : Metavariable) : Option Expression :=
  (session.find? key).bind Binding.value

/-- Enter a key without a value, unless it is there already. -/
def register (session : Session) (key : Metavariable) : Session :=
  if (session.find? key).isSome then session
  else ⟨session.bindings ++ [⟨key, none⟩]⟩

/-- Give a value to a key that is there. -/
def assign
    (session : Session)
    (key : Metavariable)
    (value : Expression) : Session :=
  ⟨session.bindings.map fun binding =>
    if binding.key.same key then { binding with value := some value }
    else binding⟩

/-- Number of metavariables met. -/
def size (session : Session) : Nat :=
  session.bindings.length

/-- Number of metavariables with a value. -/
def boundCount (session : Session) : Nat :=
  session.bindings.countP fun binding => binding.value.isSome

@[simp] theorem find?_empty (key : Metavariable) :
    empty.find? key = none := rfl

@[simp] theorem value?_empty (key : Metavariable) :
    empty.value? key = none := rfl

@[simp] theorem size_empty : empty.size = 0 := rfl

/-- Assigning a value adds no entry. -/
@[simp] theorem size_assign
    (session : Session)
    (key : Metavariable)
    (value : Expression) :
    (session.assign key value).size = session.size := by
  simp [assign, size]

end Session
end SymbolicLogic
