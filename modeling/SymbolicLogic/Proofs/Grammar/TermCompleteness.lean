import SymbolicLogic.Proofs.Grammar.Derivation
import SymbolicLogic.Proofs.Grammar.Recursion

/-!
# Derivable terms are read

A phrase for a term is read back to its tree, whatever stands behind it, unless
that could be taken for an argument list of the term's last symbol. An operation,
an argument list and a substitution may all begin with the same bracket; they are
told apart by the sign after the first term inside.
-/

namespace SymbolicLogic
namespace Grammar

open Rule

section

variable {rest tokens after last : List Token} {value : Term}

/-- A term can begin with the token. -/
def beginsTerm : Token -> Bool
  | .opening _ | .function _ | .termMeta _ | .constant _ | .objectVariable _
  | .variableMeta _ | .anyMeta _ => true
  | _ => false

/-- A substitution or an argument list can begin with the token. -/
def beginsSuffix : Token -> Bool
  | .opening _ | .caret => true
  | _ => false

theorem term_of_not_beginsTerm
    {token : Token}
    (other : beginsTerm token = false) :
    term (token :: rest) = none := by
  rw [term_eq]
  cases token <;> first | rfl | cases other

theorem transform_of_not_beginsSuffix
    {token : Token}
    (other : beginsSuffix token = false) :
    transform term (token :: rest) = none := by
  cases token <;> first | rfl | cases other

/-- A leaf is read where no argument list follows. -/
theorem term_of_leaf
    (kind : TermLeaf)
    (symbol : Symbol)
    (ends : arguments term rest = none) :
    term (leafToken kind symbol :: rest) =
      some (.leaf kind symbol, rest) := by
  have notApplied :
      application term (leafToken kind symbol :: rest) = none := by
    cases kind
    case termMeta =>
      refine (orElse_of_eq_none rfl).trans
        ((token_bind_of_eq_some (?_ : _ = some symbol)).trans (bind_of_eq_none ends))
      rfl
    all_goals rfl
  have notOperation : operation term (leafToken kind symbol :: rest) = none := by
    cases kind <;> rfl
  rw [term_eq, termOver, orElse_of_eq_none notApplied,
    orElse_of_eq_none notOperation]
  cases kind <;> rfl

/-- A head and an argument list are read as an application. -/
theorem term_of_arguments
    (head : TermHead)
    (symbol : Symbol)
    {values : List Term}
    {brackets : Brackets}
    (found : arguments term tokens = some ((values, brackets), rest)) :
    term (headToken head symbol :: tokens) =
      some (.plain (.apply head symbol values brackets), rest) := by
  rw [term_eq, termOver]
  apply orElse_of_eq_some
  cases head with
  | function =>
      refine orElse_of_eq_some
        ((token_bind_of_eq_some (?_ : _ = some symbol)).trans (bind_of_eq_some found))
      rfl
  | complexMeta =>
      refine (orElse_of_eq_none rfl).trans
        ((token_bind_of_eq_some (?_ : _ = some symbol)).trans (bind_of_eq_some found))
      rfl

/-- An opening bracket begins an operation or no term at all. -/
theorem term_opening (brackets : Brackets) :
    term (.opening brackets :: tokens) =
      operation term (.opening brackets :: tokens) := by
  conv => lhs; rw [term_eq, termOver, orElse_of_eq_none rfl, orElse_apply]
  cases operation term (.opening brackets :: tokens) <;> rfl

theorem transformable_of_bare
    (found : term tokens = some (value, rest))
    (stops : transform term rest = none) :
    transformable term tokens = some (value, rest) := by
  rw [transformable, bind_of_eq_some found, bind_apply, optional_apply, stops]
  rfl

/-- A substitution behind a term is attached to it. -/
theorem transformable_of_transform
    {substitution : Transform}
    (found : term tokens = some (value, rest))
    (pending : transform term rest = some (substitution, last)) :
    transformable term tokens =
      some (value.withTransform substitution, last) := by
  rw [transformable, bind_of_eq_some found, bind_apply, optional_apply, pending]
  rfl

/-- Two sides with a sign between them are read as an operation. -/
theorem operation_of_sides
    {left right : Term}
    {symbol : Symbol}
    (brackets : Brackets)
    (readLeft : transformable term tokens =
      some (left, .infixFunction symbol :: after))
    (readRight : transformable term after =
      some (right, .closing brackets :: rest)) :
    operation term (.opening brackets :: tokens) =
      some (.plain (.operation symbol left right brackets), rest) := by
  refine bind_of_eq_some (bracketed_of_eq_some brackets ?_ :
    _ = some (((left, symbol, right), brackets), rest))
  refine (bind_of_eq_some readLeft).trans
    ((token_bind_of_eq_some (?_ : _ = some symbol)).trans
      (bind_of_eq_some readRight))
  rfl

/-- A bracket does not begin an operation when the sign after the first term is
that of something else. -/
theorem operation_of_other_sign
    (brackets : Brackets)
    (openEnded : ∀ value symbol after, transformable term tokens ≠
      some (value, .infixFunction symbol :: after)) :
    operation term (.opening brackets :: tokens) = none := by
  refine bind_of_eq_none (bracketed_of_not_closing brackets ?_)
  intro triple remaining closed found
  obtain ⟨left, middle, first, found⟩ := bind_eq_some found
  obtain ⟨symbol, afterSymbol, selects, found⟩ := bind_eq_some found
  obtain ⟨token, rfl, selected⟩ := token_eq_some selects
  cases token <;> simp at selected
  exact openEnded _ _ _ first

theorem transform_of_inline
    {replacement target : Term}
    (brackets : Brackets)
    (readReplacement : term tokens = some (replacement, .slash :: after))
    (readTarget : term after = some (target, .closing brackets :: rest)) :
    transform term (.opening brackets :: tokens) =
      some (⟨target, replacement, false⟩, rest) := by
  refine orElse_of_eq_some (bind_of_eq_some (bracketed_of_eq_some brackets ?_ :
    _ = some (((replacement, target), brackets), rest)))
  exact (bind_of_eq_some readReplacement).trans
    ((bind_of_eq_some (exactly_of_eq ..)).trans (bind_of_eq_some readTarget))

/-- What is inside is no list when the sign after its first member does not
belong to a list. -/
theorem list_of_other_sign
    {α : Type}
    {rule : Rule α}
    {member : α}
    {sign : Token}
    (brackets : Brackets)
    (found : rule tokens = some (member, sign :: after))
    (notComma : sign ≠ .comma)
    (notClosing : ∀ closed, sign ≠ .closing closed) :
    Rule.bracketed (rule.separatedBy (.exactly .comma))
      (.opening brackets :: tokens) = none := by
  have listed : rule.separatedBy (.exactly .comma) tokens =
      some ([member], sign :: after) :=
    separatedBy_of_single found (exactly_of_ne notComma _)
  refine bracketed_of_not_closing brackets fun members remaining closed other => ?_
  rw [listed, Option.some.injEq, Prod.mk.injEq, List.cons.injEq] at other
  exact notClosing closed other.2.1

theorem transform_of_stacked
    {target replacement : Term}
    (readTarget : term tokens = some (target, .underscore :: after))
    (readReplacement : term after = some (replacement, rest)) :
    transform term (.caret :: tokens) =
      some (⟨target, replacement, true⟩, rest) := by
  refine (orElse_of_eq_none rfl).trans
    ((bind_of_eq_some (exactly_of_eq ..)).trans ?_)
  exact (bind_of_eq_some readTarget).trans
    ((bind_of_eq_some (exactly_of_eq ..)).trans (bind_of_eq_some readReplacement))

end

mutual

/-- A phrase for a term is read back, unless the term's last symbol could take
what stands behind it for its arguments. -/
theorem term_append
    {tokens : List Token}
    {value : Term}
    (derivation : TermDerivation tokens value)
    (rest : List Token)
    (ends : arguments term rest = none) :
    term (tokens ++ rest) = some (value, rest) := by
  match derivation with
  | .leaf kind symbol => exact term_of_leaf kind symbol ends
  | .apply head symbol brackets args =>
      refine term_of_arguments head symbol ?_
      change arguments term (_ :: (_ ++ [_]) ++ rest) = _
      rw [List.cons_append, List.append_assoc]
      exact bracketed_of_eq_some brackets (arguments_append args brackets rest)
  | .operation symbol brackets left right =>
      simp only [List.cons_append, List.append_assoc, List.nil_append]
      rw [term_opening]
      exact operation_of_sides brackets
        (transformable_append left _ rfl fun _ => rfl)
        (transformable_append right _ rfl fun _ => rfl)

/-- A phrase for an operand is read back, unless a substitution behind it could
still be attached to it. -/
theorem transformable_append
    {tokens : List Token}
    {value : Term}
    (derivation : OperandDerivation tokens value)
    (rest : List Token)
    (ends : arguments term rest = none)
    (stops : value.transform? = none -> transform term rest = none) :
    transformable term (tokens ++ rest) = some (value, rest) := by
  match derivation with
  | .bare carrier =>
      exact transformable_of_bare (term_append carrier rest ends)
        (stops carrier.transform?_eq_none)
  | .transformed carrier pending =>
      rw [List.append_assoc]
      exact transformable_of_transform
        (term_append carrier _
          (arguments_transform_append pending rest))
        (transform_append pending rest ends)

theorem arguments_append
    {tokens : List Token}
    {values : List Term}
    (derivation : ArgumentsDerivation tokens values)
    (brackets : Brackets)
    (rest : List Token) :
    (transformable term).separatedBy (.exactly .comma)
      (tokens ++ .closing brackets :: rest) =
        some (values, .closing brackets :: rest) := by
  match derivation with
  | .single only =>
      exact separatedBy_of_single
        (transformable_append only _ rfl fun _ => rfl) rfl
  | .cons first others =>
      rw [List.append_assoc, List.cons_append]
      exact separatedBy_of_cons consumes_transformable
        (transformable_append first _ rfl fun _ => rfl)
        (arguments_append others brackets rest)

/-- A substitution is read back, unless the term it ends with could go on. -/
theorem transform_append
    {tokens : List Token}
    {substitution : Transform}
    (derivation : TransformDerivation tokens substitution)
    (rest : List Token)
    (ends : arguments term rest = none) :
    transform term (tokens ++ rest) = some (substitution, rest) := by
  match derivation with
  | .inline brackets replacement target =>
      simp only [List.cons_append, List.append_assoc, List.nil_append]
      exact transform_of_inline brackets
        (term_append replacement _ rfl)
        (term_append target _ rfl)
  | .stacked target replacement =>
      simp only [List.cons_append, List.append_assoc]
      exact transform_of_stacked (term_append target _ rfl)
        (term_append replacement rest ends)

/-- A substitution is not an argument list: its first term is followed by a
slash. -/
theorem arguments_transform_append
    {tokens : List Token}
    {substitution : Transform}
    (derivation : TransformDerivation tokens substitution)
    (rest : List Token) :
    arguments term (tokens ++ rest) = none := by
  match derivation with
  | .inline brackets replacement target =>
      simp only [List.cons_append, List.append_assoc, List.nil_append]
      exact list_of_other_sign brackets
        (transformable_of_bare (term_append replacement _ rfl) rfl)
        (fun equal => by cases equal) (fun _ equal => by cases equal)
  | .stacked _ _ => rfl

end

section

variable {tokens : List Token} {value : Term}

/-- A term is not an argument list: an operation has a sign after its first
term. -/
theorem arguments_term_append
    (derivation : TermDerivation tokens value)
    (rest : List Token) :
    arguments term (tokens ++ rest) = none := by
  cases derivation with
  | leaf kind symbol => cases kind <;> rfl
  | apply head symbol brackets args => cases head <;> rfl
  | operation symbol brackets left right =>
      simp only [List.cons_append, List.append_assoc]
      exact list_of_other_sign brackets
        (transformable_append left _ rfl fun _ => rfl)
        (fun equal => by cases equal) (fun _ equal => by cases equal)

/-- A substitution is not a term. -/
theorem term_transform_append
    {substitution : Transform}
    (derivation : TransformDerivation tokens substitution)
    (rest : List Token) :
    term (tokens ++ rest) = none := by
  cases derivation with
  | inline brackets replacement target =>
      simp only [List.cons_append, List.append_assoc]
      rw [term_opening]
      refine operation_of_other_sign brackets fun first symbol after other => ?_
      rw [transformable_of_bare (term_append replacement _ rfl) rfl] at other
      cases other
  | stacked target replacement => exact term_of_not_beginsTerm rfl

/-- Terms one after the other are all read, if what stands behind them is
neither a term nor an argument list. -/
theorem many_term_append
    {values : List Term}
    (derivations : Juxtaposed TermDerivation tokens values)
    (rest : List Token)
    (ends : arguments term rest = none)
    (stops : term rest = none) :
    term.many (tokens ++ rest) = some (values, rest) := by
  refine @many_append _ _ _ rest consumes_term
    (fun tokens => arguments term tokens = none) _
    (derivations.imp fun used value derivation => ?_) ends stops
  exact ⟨arguments_term_append derivation,
    fun after ends => term_append derivation after ends⟩

/-- Terms with commas between them are all read. -/
theorem params_append
    {values : List Term}
    (derivations : Separated TermDerivation tokens values)
    (brackets : Brackets)
    (rest : List Token) :
    Rule.bracketed (term.separatedBy (.exactly .comma))
      (.opening brackets :: (tokens ++ .closing brackets :: rest)) =
        some ((values, brackets), rest) := by
  refine bracketed_of_eq_some brackets ?_
  exact separatedBy_append consumes_term (fun _ => rfl)
    (derivations.imp fun used value derivation after ends =>
      term_append derivation after ends) rfl rfl

end

end Grammar
end SymbolicLogic
