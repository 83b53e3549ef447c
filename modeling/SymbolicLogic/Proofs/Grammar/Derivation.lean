import SymbolicLogic.Grammar.Formula
import SymbolicLogic.Proofs.Grammar.Sequence

/-!
# The grammar

The notation as a system of productions, with no order among them: `D tokens x`
says that `tokens` is a phrase for `x`. A formula that carries a substitution is
written by a phrase for the formula without it and a phrase for the
substitution. Since a negation or a quantified formula ends with another
formula, `~A[t/x]` is a phrase for two trees; `AttachesInnermost` tells the tree
that is meant.
-/

namespace SymbolicLogic
namespace Grammar

/-- The token of a term without parts. -/
def leafToken : TermLeaf -> Symbol -> Token
  | .constant, symbol => .constant symbol
  | .objectVariable, symbol => .objectVariable symbol
  | .termMeta, symbol => .termMeta symbol
  | .variableMeta, symbol => .variableMeta symbol
  | .anyMeta, symbol => .anyMeta symbol

/-- The token of a symbol that is applied to terms in brackets. -/
def headToken : TermHead -> Symbol -> Token
  | .function, symbol => .function symbol
  | .complexMeta, symbol => .termMeta symbol

mutual

/-- A term that carries no substitution. -/
inductive TermDerivation : List Token -> Term -> Prop
  | leaf (kind : TermLeaf) (symbol : Symbol) :
      TermDerivation [leafToken kind symbol] (.leaf kind symbol)
  | apply
      (head : TermHead)
      (symbol : Symbol)
      (brackets : Brackets)
      (args : ArgumentsDerivation argumentTokens values) :
      TermDerivation
        (headToken head symbol :: .opening brackets ::
          (argumentTokens ++ [.closing brackets]))
        (.plain (.apply head symbol values brackets))
  | operation
      (symbol : Symbol)
      (brackets : Brackets)
      (left : OperandDerivation leftTokens leftTerm)
      (right : OperandDerivation rightTokens rightTerm) :
      TermDerivation
        (.opening brackets ::
          (leftTokens ++ .infixFunction symbol ::
            (rightTokens ++ [.closing brackets])))
        (.plain (.operation symbol leftTerm rightTerm brackets))

/-- A term that may carry a substitution. -/
inductive OperandDerivation : List Token -> Term -> Prop
  | bare (carrier : TermDerivation tokens value) : OperandDerivation tokens value
  | transformed
      (carrier : TermDerivation tokens value)
      (pending : TransformDerivation pendingTokens substitution) :
      OperandDerivation (tokens ++ pendingTokens)
        (value.withTransform substitution)

/-- One term or more, with commas between them. -/
inductive ArgumentsDerivation : List Token -> List Term -> Prop
  | single (only : OperandDerivation tokens value) :
      ArgumentsDerivation tokens [value]
  | cons
      (first : OperandDerivation tokens value)
      (others : ArgumentsDerivation rest values) :
      ArgumentsDerivation (tokens ++ .comma :: rest) (value :: values)

/-- A substitution, `[t/x]` in any brackets or `^x_t`. -/
inductive TransformDerivation : List Token -> Transform -> Prop
  | inline
      (brackets : Brackets)
      (replacement : TermDerivation replacementTokens replacementTerm)
      (target : TermDerivation targetTokens targetTerm) :
      TransformDerivation
        (.opening brackets ::
          (replacementTokens ++ .slash ::
            (targetTokens ++ [.closing brackets])))
        ⟨targetTerm, replacementTerm, false⟩
  | stacked
      (target : TermDerivation targetTokens targetTerm)
      (replacement : TermDerivation replacementTokens replacementTerm) :
      TransformDerivation
        (.caret :: (targetTokens ++ .underscore :: replacementTokens))
        ⟨targetTerm, replacementTerm, true⟩

end

/-- Nothing is pending on a bare term. -/
theorem TermDerivation.transform?_eq_none
    (derivation : TermDerivation tokens value) :
    value.transform? = none := by
  cases derivation <;> rfl

/-- A variable that a quantifier can bind. -/
inductive BoundVariable : Token -> Term -> Prop
  | objectVariable (symbol : Symbol) :
      BoundVariable (.objectVariable symbol) (.leaf .objectVariable symbol)
  | variableMeta (symbol : Symbol) :
      BoundVariable (.variableMeta symbol) (.leaf .variableMeta symbol)

/-- The token of a formula without parts. -/
def formulaLeafToken : FormulaLeaf -> Symbol -> Token
  | .letter, symbol => .letter symbol
  | .formulaMeta, symbol => .formulaMeta symbol
  | .anyMeta, symbol => .anyMeta symbol

section

variable (negationSymbol : Symbol)

mutual

/-- A formula with all its brackets, which may carry a substitution. -/
inductive FormulaDerivation : List Token -> Formula -> Prop
  | bare (carrier : UnitDerivation tokens shape) :
      FormulaDerivation tokens (.plain shape)
  | transformed
      (carrier : UnitDerivation tokens shape)
      (pending : TransformDerivation pendingTokens substitution) :
      FormulaDerivation (tokens ++ pendingTokens)
        (.transformed shape substitution)

/-- A formula that carries no substitution. A complement glyph writes a
negation, by `negationSymbol`. -/
inductive UnitDerivation : List Token -> FormulaShape -> Prop
  | leaf (kind : FormulaLeaf) (symbol : Symbol) :
      UnitDerivation [formulaLeafToken kind symbol] (.leaf kind symbol)
  | relation
      (symbol : Symbol)
      (args : Juxtaposed TermDerivation tokens values)
      (nonempty : values ≠ []) :
      UnitDerivation (.letter symbol :: tokens)
        (.relation (symbol.withRole .relation) values)
  | comparison
      (symbol : Symbol)
      (left : TermDerivation leftTokens leftTerm)
      (right : TermDerivation rightTokens rightTerm) :
      UnitDerivation (leftTokens ++ .infixRelation symbol :: rightTokens)
        (.comparison symbol leftTerm rightTerm none)
  | complemented
      (relation complement : Symbol)
      (left : TermDerivation leftTokens leftTerm)
      (right : TermDerivation rightTokens rightTerm) :
      UnitDerivation
        (leftTokens ++ .complement relation complement :: rightTokens)
        (.negation negationSymbol
          (.plain (.comparison relation leftTerm rightTerm (some complement))))
  | complexMeta
      (symbol : Symbol)
      (brackets : Brackets)
      (params : Separated TermDerivation parameterTokens values) :
      UnitDerivation
        (.formulaMeta symbol :: .opening brackets ::
          (parameterTokens ++ [.closing brackets]))
        (.complexMeta symbol values brackets)
  | negation
      (symbol : Symbol)
      (operand : FormulaDerivation tokens body) :
      UnitDerivation (.negation symbol :: tokens) (.negation symbol body)
  | binary
      (symbol : Symbol)
      (connective : Connective)
      (brackets : Brackets)
      (left : FormulaDerivation leftTokens leftFormula)
      (right : FormulaDerivation rightTokens rightFormula) :
      UnitDerivation
        (.opening brackets ::
          (leftTokens ++ .connective symbol connective ::
            (rightTokens ++ [.closing brackets])))
        (.binary symbol connective leftFormula rightFormula (some brackets))
  | quantified
      (quantifiers : PrefixDerivation prefixTokens symbol kind boundVariable
        restriction)
      (scope : FormulaDerivation tokens body) :
      UnitDerivation (prefixTokens ++ tokens)
        (.quantified symbol kind boundVariable restriction body)

/-- A quantifier, the variable it binds, and what restricts it. -/
inductive PrefixDerivation :
    List Token -> Symbol -> Quantifier -> Term -> Restriction -> Prop
  | unrestricted
      (symbol : Symbol)
      (kind : Quantifier)
      (binds : BoundVariable token boundVariable) :
      PrefixDerivation [.quantifier symbol kind, token]
        symbol kind boundVariable .unrestricted
  | bounded
      (symbol : Symbol)
      (kind : Quantifier)
      (binds : BoundVariable token boundVariable)
      (relation : Symbol)
      (brackets : Brackets)
      (bound : TermDerivation tokens value) :
      PrefixDerivation
        (.opening brackets :: .quantifier symbol kind :: token ::
          .infixRelation relation :: (tokens ++ [.closing brackets]))
        symbol kind boundVariable (.bounded relation value brackets)
  | restricted
      (symbol : Symbol)
      (kind : Quantifier)
      (binds : BoundVariable token boundVariable)
      (divider : Symbol)
      (brackets : Brackets)
      (inner : FormulaDerivation tokens body) :
      PrefixDerivation
        (.opening brackets :: .quantifier symbol kind :: token ::
          .divider divider :: (tokens ++ [.closing brackets]))
        symbol kind boundVariable (.restricted divider body brackets)

end

/-- A formula, where an outermost binary formula may do without brackets. -/
inductive SentenceDerivation : List Token -> Formula -> Prop
  | bracketed (only : FormulaDerivation negationSymbol tokens whole) :
      SentenceDerivation tokens whole
  | binary
      (symbol : Symbol)
      (connective : Connective)
      (left : FormulaDerivation negationSymbol leftTokens leftFormula)
      (right : FormulaDerivation negationSymbol rightTokens rightFormula) :
      SentenceDerivation
        (leftTokens ++ .connective symbol connective :: rightTokens)
        (.plain (.binary symbol connective leftFormula rightFormula none))

end

end Grammar

/-- The formula that ends where a formula of the given shape ends, and that
could carry a substitution written there. A comparison under its complement
glyph cannot: the glyph stands for the negation as a whole. -/
def FormulaShape.tail? : FormulaShape -> Option Formula
  | .negation _ (.plain (.comparison _ _ _ (some _))) => none
  | .negation _ operand => some operand
  | .quantified _ _ _ _ scope => some scope
  | _ => none

/-- The formula of a shape with a substitution written behind it. It is attached to the
innermost formula that ends there and can carry it and does not carry one already. -/
def FormulaShape.attached
    (shape : FormulaShape)
    (substitution : Transform) : Formula :=
  match shape with
  | .negation _ (.plain (.comparison _ _ _ (some _))) =>
      .transformed shape substitution
  | .negation symbol (.plain operand) =>
      .plain (.negation symbol (operand.attached substitution))
  | .quantified symbol quantifier boundVariable restriction (.plain scope) =>
      .plain
        (.quantified symbol quantifier boundVariable restriction
          (scope.attached substitution))
  | _ => .transformed shape substitution
termination_by structural shape

section

variable {shape : FormulaShape}

/-- Where the formula at the end carries a substitution already, the whole carries the
new one. -/
theorem FormulaShape.attached_eq
    (substitution : Transform)
    (carries : ∀ tail, shape.tail? = some tail -> tail.transform?.isSome) :
    shape.attached substitution = .transformed shape substitution := by
  cases shape with
  | negation symbol operand =>
      rcases operand with (_ | _ | ⟨_, _, _, _ | _⟩ | _ | _ | _ | _) | _ <;>
        first | rfl | cases carries _ rfl
  | quantified symbol quantifier boundVariable restriction scope =>
      rcases scope with _ | _
      · cases carries _ rfl
      · rfl
  | leaf | relation | comparison | complexMeta | binary => rfl

/-- Otherwise it is carried by a part of the formula. -/
theorem FormulaShape.transform?_attached
    (substitution : Transform)
    {tail : Formula}
    (ends : shape.tail? = some tail)
    (bare : tail.transform? = none) :
    (shape.attached substitution).transform? = none := by
  cases shape with
  | negation symbol operand =>
      rcases operand with (_ | _ | ⟨_, _, _, _ | _⟩ | _ | _ | _ | _) | _ <;>
        cases ends <;> first | rfl | cases bare
  | quantified symbol quantifier boundVariable restriction scope =>
      cases ends
      cases tail with
      | plain => rfl
      | transformed => cases bare
  | leaf | relation | comparison | complexMeta | binary => cases ends

theorem FormulaShape.attached_negation
    (substitution : Transform)
    {symbol : Symbol}
    {tail : Formula}
    (ends : (FormulaShape.negation symbol (.plain shape)).tail? = some tail) :
    (FormulaShape.negation symbol (.plain shape)).attached substitution =
      .plain (.negation symbol (shape.attached substitution)) := by
  rcases shape with _ | _ | ⟨_, _, _, _ | _⟩ | _ | _ | _ | _ <;>
    first | rfl | cases ends

end

mutual

/-- Every substitution is attached to the innermost formula that can carry it
and does not carry one already: where a formula carries one, so does the formula
it ends with. -/
def Formula.AttachesInnermost : Formula -> Prop
  | .plain shape => shape.AttachesInnermost
  | .transformed shape _ =>
      (∀ tail, shape.tail? = some tail -> tail.transform?.isSome) ∧
        shape.AttachesInnermost

def FormulaShape.AttachesInnermost : FormulaShape -> Prop
  | .negation _ operand => operand.AttachesInnermost
  | .binary _ _ left right _ =>
      left.AttachesInnermost ∧ right.AttachesInnermost
  | .quantified _ _ _ restriction scope =>
      restriction.AttachesInnermost ∧ scope.AttachesInnermost
  | _ => True

def Restriction.AttachesInnermost : Restriction -> Prop
  | .restricted _ formula _ => formula.AttachesInnermost
  | _ => True

end

end SymbolicLogic
