import SymbolicLogic.Expression.Basic
import SymbolicLogic.Grammar.Rule

/-!
# Reading terms

A term is a function applied to bracketed arguments, a complex metavariable, a
bracketed operation, or a single symbol. Arguments and sides of operations may
carry a pending substitution, written `[t/x]` in any pair of brackets or `^x_t`.
-/

namespace SymbolicLogic
namespace Grammar

/-- A pending substitution over a rule for its terms. -/
def transform (term : Rule Term) : Rule Transform :=
  (do
    let ((replacement, target), _) <- Rule.bracketed do
      let replacement <- term
      Rule.exactly .slash
      let target <- term
      return (replacement, target)
    return ⟨target, replacement, false⟩) <|>
  (do
    Rule.exactly .caret
    let target <- term
    Rule.exactly .underscore
    let replacement <- term
    return ⟨target, replacement, true⟩)

/-- A term and the pending substitution after it, if there is one. -/
def transformable (term : Rule Term) : Rule Term := do
  let carrier <- term
  match <- optional (transform term) with
  | some pending => return carrier.withTransform pending
  | none => return carrier

/-- A bracketed list of terms that may carry substitutions. -/
def arguments (term : Rule Term) : Rule (List Term × Brackets) :=
  Rule.bracketed ((transformable term).separatedBy (Rule.exactly .comma))

/-- A function or a complex metavariable with its arguments. -/
def application (term : Rule Term) : Rule Term :=
  (do
    let symbol <- Rule.token fun
      | .function symbol => some symbol
      | _ => none
    let (args, brackets) <- arguments term
    return .plain (.apply .function symbol args brackets)) <|>
  (do
    let symbol <- Rule.token fun
      | .termMeta symbol => some symbol
      | _ => none
    let (args, brackets) <- arguments term
    return .plain (.apply .complexMeta symbol args brackets))

/-- A bracketed operation. -/
def operation (term : Rule Term) : Rule Term := do
  let ((left, symbol, right), brackets) <- Rule.bracketed do
    let left <- transformable term
    let symbol <- Rule.token fun
      | .infixFunction symbol => some symbol
      | _ => none
    let right <- transformable term
    return (left, symbol, right)
  return .plain (.operation symbol left right brackets)

/-- A term of one symbol. -/
def termLeaf : Rule Term :=
  Rule.token fun
    | .constant symbol => some (.leaf .constant symbol)
    | .objectVariable symbol => some (.leaf .objectVariable symbol)
    | .termMeta symbol => some (.leaf .termMeta symbol)
    | .variableMeta symbol => some (.leaf .variableMeta symbol)
    | .anyMeta symbol => some (.leaf .anyMeta symbol)
    | _ => none

/-- A term without a pending substitution of its own, over a rule for the terms
inside it. -/
def termOver (term : Rule Term) : Rule Term :=
  application term <|> operation term <|> termLeaf

/-- A term without a pending substitution of its own. -/
def term : Rule Term :=
  Rule.recursive termOver

end Grammar
end SymbolicLogic
