import SymbolicLogic.Grammar.Term

/-!
# Reading formulas

A formula is a comparison, a letter or relation, a metavariable, a negation, a
quantified formula or a bracketed binary formula; each may carry a pending
substitution. At the outermost level a binary formula may drop its brackets.
The alternatives are tried in the order of `unitOver`.
-/

namespace SymbolicLogic
namespace Grammar

/-- A comparison of two terms; the complement glyph writes a negation, with the
given negation symbol. -/
def comparison (negation : Symbol) : Rule Formula :=
  (do
    let left <- term
    let symbol <- Rule.token fun
      | .infixRelation symbol => some symbol
      | _ => none
    let right <- term
    return .plain (.comparison symbol left right none)) <|>
  (do
    let left <- term
    let (relation, complement) <- Rule.token fun
      | .complement relation complement => some (relation, complement)
      | _ => none
    let right <- term
    return .complemented negation relation complement left right)

/-- A formula metavariable, with or without parameters. -/
def formulaMeta : Rule Formula := do
  let symbol <- Rule.token fun
    | .formulaMeta symbol => some symbol
    | _ => none
  match <- optional
      (Rule.bracketed (term.separatedBy (Rule.exactly .comma))) with
  | some (params, brackets) =>
      return .plain (.complexMeta symbol params brackets)
  | none => return .leaf .formulaMeta symbol

/-- An any-expression metavariable where a formula stands. -/
def anyMeta : Rule Formula :=
  Rule.token fun
    | .anyMeta symbol => some (.leaf .anyMeta symbol)
    | _ => none

/-- A sentence letter, or a relation when terms follow. -/
def atomic : Rule Formula := do
  let symbol <- Rule.token fun
    | .letter symbol => some symbol
    | _ => none
  match <- term.many with
  | [] => return .leaf .letter symbol
  | args => return .plain (.relation (symbol.withRole .relation) args)

/-- A negation, over a rule for its operand. -/
def negation (formula : Rule Formula) : Rule Formula := do
  let symbol <- Rule.token fun
    | .negation symbol => some symbol
    | _ => none
  let operand <- formula
  return .plain (.negation symbol operand)

/-- A quantifier and the variable it binds. -/
def quantifier : Rule (Symbol × Quantifier × Term) := do
  let (symbol, quantifier) <- Rule.token fun
    | .quantifier symbol quantifier => some (symbol, quantifier)
    | _ => none
  let boundVariable <- Rule.token fun
    | .objectVariable symbol => some (Term.leaf .objectVariable symbol)
    | .variableMeta symbol => some (Term.leaf .variableMeta symbol)
    | _ => none
  return (symbol, quantifier, boundVariable)

/-- A quantifier with what restricts it: nothing, a bound, or a formula. -/
def quantification
    (formula : Rule Formula) :
    Rule ((Symbol × Quantifier × Term) × Restriction) :=
  (do
    let quantifier <- quantifier
    return (quantifier, .unrestricted)) <|>
  (do
    let ((quantifier, relation, bound), brackets) <- Rule.bracketed do
      let quantifier <- quantifier
      let relation <- Rule.token fun
        | .infixRelation symbol => some symbol
        | _ => none
      let bound <- term
      return (quantifier, relation, bound)
    return (quantifier, .bounded relation bound brackets)) <|>
  (do
    let ((quantifier, divider, restriction), brackets) <- Rule.bracketed do
      let quantifier <- quantifier
      let divider <- Rule.token fun
        | .divider symbol => some symbol
        | _ => none
      let restriction <- formula
      return (quantifier, divider, restriction)
    return (quantifier, .restricted divider restriction brackets))

/-- A quantified formula, over a rule for the formulas inside it. -/
def quantified (formula : Rule Formula) : Rule Formula := do
  let ((symbol, quantifier, boundVariable), restriction) <-
    quantification formula
  let scope <- formula
  return .plain
    (.quantified symbol quantifier boundVariable restriction scope)

/-- A binary connective. -/
def connective : Rule (Symbol × Connective) :=
  Rule.token fun
    | .connective symbol connective => some (symbol, connective)
    | _ => none

/-- A bracketed binary formula, over a rule for its operands. -/
def binary (formula : Rule Formula) : Rule Formula := do
  let ((left, (symbol, connective), right), brackets) <- Rule.bracketed do
    let left <- formula
    let operator <- connective
    let right <- formula
    return (left, operator, right)
  return .plain (.binary symbol connective left right (some brackets))

/-- A formula without a substitution of its own, over a rule for the formulas
inside it. -/
def unitOver (negationSymbol : Symbol) (formula : Rule Formula) :
    Rule Formula :=
  comparison negationSymbol <|> formulaMeta <|> anyMeta <|> atomic <|>
    negation formula <|> quantified formula <|> binary formula

/-- A formula, over a rule for the formulas inside it. -/
def formulaOver (negationSymbol : Symbol) (formula : Rule Formula) :
    Rule Formula := do
  let carrier <- unitOver negationSymbol formula
  match <- optional (transform term) with
  | some pending => return carrier.withTransform pending
  | none => return carrier

/-- A formula with all its brackets. -/
def formula (negationSymbol : Symbol) : Rule Formula :=
  Rule.recursive (formulaOver negationSymbol)

/-- A formula that may be an unbracketed binary formula. -/
def outermost (negationSymbol : Symbol) : Rule Formula := do
  let left <- formula negationSymbol
  match <- optional (do
      let operator <- connective
      let right <- formula negationSymbol
      return (operator, right)) with
  | some ((symbol, connective), right) =>
      return .plain (.binary symbol connective left right none)
  | none => return left

end Grammar
end SymbolicLogic
