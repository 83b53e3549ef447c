import SymbolicLogic.Proofs.Grammar.TermCompleteness

/-!
# Derivable formulas are read

The alternatives of the formula rule are ordered, and several of them begin with
the same token. A bracket begins an operation, a binary formula or a restricted
quantifier; a metavariable of any kind begins a comparison or stands for a
formula. An alternative that is tried too early fails on the sign after the
first term inside, so the one that the derivation has is reached.
-/

namespace SymbolicLogic
namespace Grammar

open Rule

/-- What can stand behind a formula. -/
inductive FollowsFormula : List Token -> Prop
  | nil : FollowsFormula []
  | connective (symbol : Symbol) (kind : Connective) (rest : List Token) :
      FollowsFormula (.connective symbol kind :: rest)
  | closing (brackets : Brackets) (rest : List Token) :
      FollowsFormula (.closing brackets :: rest)
  | transform
      (pending : TransformDerivation tokens substitution)
      (rest : List Token) :
      FollowsFormula (tokens ++ rest)

/-- The token stands between the sides of a comparison. -/
def comparesTerms : Token -> Bool
  | .infixRelation _ | .complement _ _ => true
  | _ => false

section

variable {tokens rest after last : List Token}

namespace FollowsFormula

/-- What follows a formula begins no term. -/
theorem term_eq_none (follows : FollowsFormula rest) : term rest = none := by
  cases follows with
  | nil => exact consumes_term.eq_none_of_nil
  | connective | closing => exact term_of_not_beginsTerm rfl
  | transform pending rest => exact term_transform_append pending rest

theorem arguments_eq_none (follows : FollowsFormula rest) :
    arguments term rest = none := by
  cases follows with
  | nil | connective | closing => rfl
  | transform pending rest => exact arguments_transform_append pending rest

theorem params_eq_none (follows : FollowsFormula rest) :
    Rule.bracketed (term.separatedBy (.exactly .comma)) rest = none := by
  cases follows with
  | nil | connective | closing => rfl
  | transform pending rest =>
      cases pending with
      | stacked => rfl
      | inline brackets replacement target =>
          simp only [List.cons_append, List.append_assoc]
          exact list_of_other_sign brackets (term_append replacement _ rfl)
            (fun equal => by cases equal) (fun _ equal => by cases equal)

theorem comparesTerms_eq_false
    {token : Token}
    (follows : FollowsFormula (token :: after)) :
    comparesTerms token = false := by
  generalize whole_eq : token :: after = whole at follows
  cases follows with
  | nil => cases whole_eq
  | connective | closing =>
      cases whole_eq
      rfl
  | transform pending rest => cases pending <;> cases whole_eq <;> rfl

end FollowsFormula

/-! ## One alternative at a time -/

section

variable {negationSymbol : Symbol} {left right : Term}

theorem comparison_of_relation
    {symbol : Symbol}
    (readLeft : term tokens = some (left, .infixRelation symbol :: after))
    (readRight : term after = some (right, rest)) :
    comparison negationSymbol tokens =
      some (.plain (.comparison symbol left right none), rest) := by
  refine orElse_of_eq_some ((bind_of_eq_some readLeft).trans
    ((token_bind_of_eq_some (?_ : _ = some symbol)).trans
      (bind_of_eq_some readRight)))
  rfl

theorem comparison_of_complement
    {relation complement : Symbol}
    (readLeft : term tokens =
      some (left, .complement relation complement :: after))
    (readRight : term after = some (right, rest)) :
    comparison negationSymbol tokens =
      some (.complemented negationSymbol relation complement left right,
        rest) := by
  refine (orElse_of_eq_none ((bind_of_eq_some readLeft).trans rfl)).trans
    ((bind_of_eq_some readLeft).trans
      ((token_bind_of_eq_some (?_ : _ = some (relation, complement))).trans
        (bind_of_eq_some readRight)))
  rfl

/-- There is no comparison when no sign of one stands after the first term. -/
theorem comparison_of_other_sign
    (other : ∀ value sign after, term tokens = some (value, sign :: after) ->
      comparesTerms sign = false) :
    comparison negationSymbol tokens = none := by
  cases found : comparison negationSymbol tokens with
  | none => rfl
  | some result =>
      rcases orElse_eq_some found with found | ⟨-, found⟩
      · obtain ⟨value, middle, first, found⟩ := bind_eq_some found
        obtain ⟨symbol, afterSymbol, selects, -⟩ := bind_eq_some found
        obtain ⟨token, rfl, selected⟩ := token_eq_some selects
        have plain := other _ _ _ first
        cases token <;> simp [comparesTerms] at selected plain
      · obtain ⟨value, middle, first, found⟩ := bind_eq_some found
        obtain ⟨symbols, afterSymbol, selects, -⟩ := bind_eq_some found
        obtain ⟨token, rfl, selected⟩ := token_eq_some selects
        have plain := other _ _ _ first
        cases token <;> simp [comparesTerms] at selected plain

theorem comparison_of_term_eq_none (missing : term tokens = none) :
    comparison negationSymbol tokens = none := by
  refine comparison_of_other_sign fun value sign after found => ?_
  rw [missing] at found
  cases found

/-- A formula without a substitution, where none can be read behind it. -/
theorem formula_of_bare
    {whole : Formula}
    (found : unitOver negationSymbol (formula negationSymbol) tokens =
      some (whole, rest))
    (stops : transform term rest = none) :
    formula negationSymbol tokens = some (whole, rest) := by
  rw [formula_eq, formulaOver, bind_of_eq_some found, bind_apply,
    optional_apply, stops]
  rfl

/-- A substitution behind a formula is attached to it. -/
theorem formula_of_transform
    {whole : Formula}
    {substitution : Transform}
    (found : unitOver negationSymbol (formula negationSymbol) tokens =
      some (whole, rest))
    (pending : transform term rest = some (substitution, last)) :
    formula negationSymbol tokens =
      some (whole.withTransform substitution, last) := by
  rw [formula_eq, formulaOver, bind_of_eq_some found, bind_apply,
    optional_apply, pending]
  rfl

end

/-! ## A formula that begins as a term does -/

theorem transform_of_comparesTerms
    {sign : Token}
    (rest : List Token)
    (compares : comparesTerms sign = true) :
    transform term (sign :: rest) = none := by
  apply transform_of_not_beginsSuffix
  cases sign <;> first | rfl | cases compares

/-- A term was read off a formula with `rest` behind it, and left `after`: the
sign of a comparison stands there, unless the formula is a metavariable for both
sorts, which is a term as a whole. -/
def LeavesSign
    (shape : FormulaShape)
    (value : Term)
    (rest after : List Token) : Prop :=
  (∃ symbol, shape = .leaf .anyMeta symbol ∧
    value.shape = .leaf .anyMeta symbol ∧ after = rest) ∨
    ∃ sign last, after = sign :: last ∧ comparesTerms sign = true

/-- A bracket before a formula and a connective does not begin an operation. -/
theorem term_of_connective
    {shape : FormulaShape}
    {symbol : Symbol}
    {kind : Connective}
    (brackets : Brackets)
    (leaves : ∀ value after,
      transformable term (tokens ++ .connective symbol kind :: rest) =
          some (value, after) ->
        LeavesSign shape value (.connective symbol kind :: rest) after) :
    term (.opening brackets :: (tokens ++ .connective symbol kind :: rest)) =
      none := by
  rw [term_opening]
  refine operation_of_other_sign brackets fun value function after found => ?_
  rcases leaves _ _ found with ⟨-, -, -, equal⟩ | ⟨sign, last, equal, compares⟩
  · cases equal
  · cases equal
    cases compares

variable {negationSymbol symbol : Symbol} {kind : Quantifier}
variable {boundVariable : Term} {restriction : Restriction}

/-- A quantifier is not a term, nor is one in brackets. -/
theorem term_prefix_append
    (derivation : PrefixDerivation negationSymbol tokens symbol kind
      boundVariable restriction)
    (rest : List Token) :
    term (tokens ++ rest) = none := by
  have notOperand (after : List Token) :
      transformable term (.quantifier symbol kind :: after) = none :=
    bind_of_eq_none (term_of_not_beginsTerm rfl)
  cases derivation with
  | unrestricted => exact term_of_not_beginsTerm rfl
  | bounded | restricted =>
      simp only [List.cons_append]
      rw [term_opening]
      refine operation_of_other_sign _ fun value function after found => ?_
      rw [notOperand] at found
      cases found

end

mutual

/-- A formula without a substitution is no term, and one that begins with a term
is a comparison or a metavariable for both sorts. -/
theorem term_unit_append
    {negationSymbol : Symbol}
    {tokens : List Token}
    {shape : FormulaShape}
    (derivation : UnitDerivation negationSymbol tokens shape)
    (rest : List Token)
    (ends : arguments term rest = none)
    (value : Term)
    (after : List Token)
    (found : term (tokens ++ rest) = some (value, after)) :
    LeavesSign shape value rest after := by
  match derivation with
  | .leaf .letter symbol | .leaf .formulaMeta symbol =>
      cases (term_of_not_beginsTerm rfl).symm.trans found
  | .leaf .anyMeta symbol =>
      have read := term_of_leaf .anyMeta symbol ends
      obtain ⟨rfl, rfl⟩ := Prod.mk.inj (Option.some.inj (read.symm.trans found))
      exact .inl ⟨symbol, rfl, rfl, rfl⟩
  | .relation symbol args nonempty =>
      cases (term_of_not_beginsTerm rfl).symm.trans found
  | .comparison symbol left right =>
      rw [List.append_assoc, term_append left _ rfl] at found
      cases found
      exact .inr ⟨_, _, rfl, rfl⟩
  | .complemented relation complement left right =>
      rw [List.append_assoc, term_append left _ rfl] at found
      cases found
      exact .inr ⟨_, _, rfl, rfl⟩
  | .complexMeta symbol brackets params =>
      cases (term_of_not_beginsTerm rfl).symm.trans found
  | .negation symbol operand =>
      cases (term_of_not_beginsTerm rfl).symm.trans found
  | .binary symbol connective brackets left right =>
      simp only [List.cons_append, List.append_assoc] at found
      rw [term_of_connective brackets (transformable_formula_append left
        (.connective symbol connective :: _) rfl fun _ => rfl)] at found
      cases found
  | .quantified quantifiers scope =>
      rw [List.append_assoc, term_prefix_append quantifiers] at found
      cases found

/-- The same for an operand that a formula begins with. -/
theorem transformable_formula_append
    {negationSymbol : Symbol}
    {tokens : List Token}
    {whole : Formula}
    (derivation : FormulaDerivation negationSymbol tokens whole)
    (rest : List Token)
    (ends : arguments term rest = none)
    (stops : whole.transform? = none -> transform term rest = none)
    (value : Term)
    (after : List Token)
    (found : transformable term (tokens ++ rest) = some (value, after)) :
    LeavesSign whole.shape value rest after := by
  match derivation with
  | .bare carrier =>
      obtain ⟨bare, middle, first, -⟩ := bind_eq_some found
      rcases term_unit_append carrier rest ends bare middle first with
        ⟨symbol, rfl, same, rfl⟩ | ⟨sign, last, rfl, compares⟩
      · cases (transformable_of_bare first (stops rfl)).symm.trans found
        exact .inl ⟨symbol, rfl, same, rfl⟩
      · have missing := transform_of_comparesTerms last compares
        cases (transformable_of_bare first missing).symm.trans found
        exact .inr ⟨sign, last, rfl, compares⟩
  | .transformed carrier pending =>
      rw [List.append_assoc] at found
      obtain ⟨bare, middle, first, -⟩ := bind_eq_some found
      rcases term_unit_append carrier _ (arguments_transform_append pending rest)
        bare middle first with
        ⟨symbol, rfl, same, rfl⟩ | ⟨sign, last, rfl, compares⟩
      · have read := transform_append pending rest ends
        cases (transformable_of_transform first read).symm.trans found
        exact .inl ⟨symbol, rfl, same, rfl⟩
      · have missing := transform_of_comparesTerms last compares
        cases (transformable_of_bare first missing).symm.trans found
        exact .inr ⟨sign, last, rfl, compares⟩

end

/-! ## Formulas -/

section

variable {negationSymbol : Symbol} {tokens rest after : List Token}

theorem quantifier_of_binds
    {token : Token}
    {boundVariable : Term}
    (symbol : Symbol)
    (kind : Quantifier)
    (binds : BoundVariable token boundVariable)
    (rest : List Token) :
    quantifier (.quantifier symbol kind :: token :: rest) =
      some ((symbol, kind, boundVariable), rest) := by
  cases binds <;> rfl

theorem quantification_of_bound
    {rule : Rule Formula}
    {token : Token}
    {boundVariable bound : Term}
    {brackets : Brackets}
    (symbol : Symbol)
    (kind : Quantifier)
    (binds : BoundVariable token boundVariable)
    (relation : Symbol)
    (found : term tokens = some (bound, .closing brackets :: rest)) :
    quantification rule
      (.opening brackets :: .quantifier symbol kind :: token ::
        .infixRelation relation :: tokens) =
      some (((symbol, kind, boundVariable),
        .bounded relation bound brackets), rest) := by
  refine (orElse_of_eq_none rfl).trans (orElse_of_eq_some (bind_of_eq_some
    (bracketed_of_eq_some brackets ?_ :
      _ = some ((((symbol, kind, boundVariable), relation, bound), brackets),
        rest))))
  refine (bind_of_eq_some (quantifier_of_binds symbol kind binds _)).trans
    ((token_bind_of_eq_some (?_ : _ = some relation)).trans
      (bind_of_eq_some found))
  rfl

theorem quantification_of_divider
    {rule : Rule Formula}
    {token : Token}
    {boundVariable : Term}
    {body : Formula}
    {brackets : Brackets}
    (symbol : Symbol)
    (kind : Quantifier)
    (binds : BoundVariable token boundVariable)
    (divider : Symbol)
    (found : rule tokens = some (body, .closing brackets :: rest)) :
    quantification rule
      (.opening brackets :: .quantifier symbol kind :: token ::
        .divider divider :: tokens) =
      some (((symbol, kind, boundVariable),
        .restricted divider body brackets), rest) := by
  refine (orElse_of_eq_none rfl).trans ((orElse_of_eq_none (bind_of_eq_none
    (bracketed_of_not_closing brackets ?_))).trans (bind_of_eq_some
      (bracketed_of_eq_some brackets ?_ :
        _ = some ((((symbol, kind, boundVariable), divider, body), brackets),
          rest))))
  · intro value remaining closed
    rw [bind_of_eq_some (quantifier_of_binds symbol kind binds _)]
    exact fun impossible => by cases impossible
  · refine (bind_of_eq_some (quantifier_of_binds symbol kind binds _)).trans
      ((token_bind_of_eq_some (?_ : _ = some divider)).trans
        (bind_of_eq_some found))
    rfl

/-- Past the alternatives that begin with a term, a letter or a metavariable. -/
theorem unitOver_of_others_eq_none
    {rule : Rule Formula}
    (notComparison : comparison negationSymbol tokens = none)
    (notMeta : formulaMeta tokens = none)
    (notAny : anyMeta tokens = none)
    (notAtomic : atomic tokens = none) :
    unitOver negationSymbol rule tokens =
      (negation rule <|> quantified rule <|> binary rule) tokens := by
  rw [unitOver, orElse_of_eq_none notComparison, orElse_of_eq_none notMeta,
    orElse_of_eq_none notAny, orElse_of_eq_none notAtomic]

/-- A quantifier prefix and a formula are read as a quantified formula. -/
theorem unitOver_of_prefix
    {rule : Rule Formula}
    {symbol : Symbol}
    {kind : Quantifier}
    {boundVariable : Term}
    {restriction : Restriction}
    {scope : Formula}
    {prefixTokens : List Token}
    (derivation : PrefixDerivation negationSymbol prefixTokens symbol kind
      boundVariable restriction)
    (readPrefix : quantification rule (prefixTokens ++ tokens) =
      some (((symbol, kind, boundVariable), restriction), tokens))
    (readScope : rule tokens = some (scope, rest)) :
    unitOver negationSymbol rule (prefixTokens ++ tokens) =
      some (.plain (.quantified symbol kind boundVariable restriction scope),
        rest) := by
  have notTerm := term_prefix_append derivation tokens
  have notComparison : comparison negationSymbol (prefixTokens ++ tokens) =
      none := comparison_of_term_eq_none notTerm
  have notOthers : formulaMeta (prefixTokens ++ tokens) = none ∧
      anyMeta (prefixTokens ++ tokens) = none ∧
        atomic (prefixTokens ++ tokens) = none ∧
          negation rule (prefixTokens ++ tokens) = none := by
    cases derivation <;> exact ⟨rfl, rfl, rfl, rfl⟩
  obtain ⟨notMeta, notAny, notAtomic, notNegation⟩ := notOthers
  rw [unitOver_of_others_eq_none notComparison notMeta notAny notAtomic,
    orElse_of_eq_none notNegation]
  exact orElse_of_eq_some
    ((bind_of_eq_some readPrefix).trans (bind_of_eq_some readScope))

/-- The token stands between a bound variable and what restricts it. -/
def restricts : Token -> Bool
  | .infixRelation _ | .divider _ => true
  | _ => false

/-- In a bracket that begins neither an operation nor a restricted quantifier
stands a binary formula. -/
theorem unitOver_of_sides
    {rule : Rule Formula}
    {left right : Formula}
    {symbol : Symbol}
    {kind : Connective}
    (brackets : Brackets)
    (notTerm : term (.opening brackets :: tokens) = none)
    (notRestricted : ∀ head sign last,
      quantifier tokens = some (head, sign :: last) -> restricts sign = false)
    (readLeft : rule tokens = some (left, .connective symbol kind :: after))
    (readRight : rule after = some (right, .closing brackets :: rest)) :
    unitOver negationSymbol rule (.opening brackets :: tokens) =
      some (.plain (.binary symbol kind left right (some brackets)), rest) := by
  have notPrefix : quantified rule (.opening brackets :: tokens) = none := by
    refine bind_of_eq_none ((orElse_of_eq_none rfl).trans
      ((orElse_of_eq_none (bind_of_eq_none ?_)).trans (bind_of_eq_none ?_)))
    all_goals
      refine bracketed_of_not_closing brackets
        fun value remaining closed found => ?_
      obtain ⟨head, middle, heads, found⟩ := bind_eq_some found
      obtain ⟨sign, last, selects, -⟩ := bind_eq_some found
      obtain ⟨token, rfl, selected⟩ := token_eq_some selects
      have unrestricted := notRestricted _ _ _ heads
      cases token <;> simp [restricts] at selected unrestricted
  rw [unitOver_of_others_eq_none (comparison_of_term_eq_none notTerm) rfl rfl
    rfl, orElse_of_eq_none rfl, orElse_of_eq_none notPrefix]
  refine bind_of_eq_some (bracketed_of_eq_some brackets ?_ :
    _ = some (((left, (symbol, kind), right), brackets), rest))
  refine (bind_of_eq_some readLeft).trans
    ((token_bind_of_eq_some (?_ : _ = some (symbol, kind))).trans
      (bind_of_eq_some readRight))
  rfl

theorem TermDerivation.begins
    {value : Term}
    (derivation : TermDerivation tokens value) :
    ∃ token last, tokens = token :: last ∧ beginsTerm token = true := by
  cases derivation with
  | leaf kind symbol => exact ⟨_, _, rfl, by cases kind <;> rfl⟩
  | apply head => exact ⟨_, _, rfl, by cases head <;> rfl⟩
  | operation => exact ⟨_, _, rfl, rfl⟩

/-- No formula begins with a sign that stands after a bound variable. -/
theorem FormulaDerivation.begins
    {whole : Formula}
    (derivation : FormulaDerivation negationSymbol tokens whole) :
    ∃ token last, tokens = token :: last ∧ restricts token = false := by
  have unit_begins {tokens : List Token} {shape : FormulaShape}
      (carrier : UnitDerivation negationSymbol tokens shape) :
      ∃ token last, tokens = token :: last ∧ restricts token = false := by
    cases carrier with
    | leaf kind => exact ⟨_, _, rfl, by cases kind <;> rfl⟩
    | comparison symbol left | complemented relation complement left =>
        obtain ⟨token, last, rfl, begins⟩ := left.begins
        exact ⟨token, _, rfl, by cases token <;> first | rfl | cases begins⟩
    | quantified quantifiers =>
        cases quantifiers <;> exact ⟨_, _, rfl, rfl⟩
    | relation | complexMeta | negation | binary => exact ⟨_, _, rfl, rfl⟩
  cases derivation with
  | bare carrier => exact unit_begins carrier
  | transformed carrier pending =>
      obtain ⟨token, last, rfl, begins⟩ := unit_begins carrier
      exact ⟨token, _, rfl, begins⟩

/-- A quantifier that a formula begins with is not restricted by what comes after
its variable. -/
theorem FormulaDerivation.not_restricted
    {whole : Formula}
    (derivation : FormulaDerivation negationSymbol tokens whole)
    (rest : List Token)
    (head : Symbol × Quantifier × Term)
    (sign : Token)
    (last : List Token)
    (found : quantifier (tokens ++ rest) = some (head, sign :: last)) :
    restricts sign = false := by
  have unit_not_restricted {tokens rest : List Token} {shape : FormulaShape}
      (carrier : UnitDerivation negationSymbol tokens shape)
      (found : quantifier (tokens ++ rest) = some (head, sign :: last)) :
      restricts sign = false := by
    cases carrier with
    | leaf kind => cases kind <;> cases found
    | comparison symbol left | complemented relation complement left =>
        obtain ⟨token, last, rfl, begins⟩ := left.begins
        cases token <;> first | cases found | cases begins
    | quantified quantifiers scope =>
        cases quantifiers with
        | bounded | restricted => cases found
        | unrestricted _ _ binds =>
            obtain ⟨token, after, rfl, begins⟩ := scope.begins
            cases (quantifier_of_binds _ _ binds _).symm.trans found
            exact begins
    | relation | complexMeta | negation | binary => cases found
  cases derivation with
  | bare carrier => exact unit_not_restricted carrier found
  | transformed carrier pending =>
      rw [List.append_assoc] at found
      exact unit_not_restricted carrier found

/-- A letter with the terms after it. -/
theorem unitOver_of_letter
    {rule : Rule Formula}
    {values : List Term}
    (symbol : Symbol)
    (args : Juxtaposed TermDerivation tokens values)
    (follows : FollowsFormula rest) :
    unitOver negationSymbol rule (.letter symbol :: (tokens ++ rest)) =
      some
        (match values with
          | [] => .leaf .letter symbol
          | _ => .plain (.relation (symbol.withRole .relation) values),
        rest) := by
  have readArgs := many_term_append args rest follows.arguments_eq_none
    follows.term_eq_none
  rw [unitOver, orElse_of_eq_none
    (comparison_of_term_eq_none (term_of_not_beginsTerm rfl)),
    orElse_of_eq_none rfl, orElse_of_eq_none rfl]
  refine orElse_of_eq_some
    ((token_bind_of_eq_some (?_ : _ = some symbol)).trans
      ((bind_of_eq_some readArgs).trans ?_))
  · rfl
  · cases values <;> rfl

/-- A formula metavariable with the parameters after it, if there are any. -/
theorem unitOver_of_formulaMeta
    {rule : Rule Formula}
    {params? : Option (List Term × Brackets)}
    (symbol : Symbol)
    (found : optional (Rule.bracketed (term.separatedBy (.exactly .comma)))
      tokens = some (params?, rest)) :
    unitOver negationSymbol rule (.formulaMeta symbol :: tokens) =
      some
        (match params? with
          | some (params, brackets) =>
              .plain (.complexMeta symbol params brackets)
          | none => .leaf .formulaMeta symbol,
        rest) := by
  rw [unitOver, orElse_of_eq_none
    (comparison_of_term_eq_none (term_of_not_beginsTerm rfl))]
  refine orElse_of_eq_some
    ((token_bind_of_eq_some (?_ : _ = some symbol)).trans
      ((bind_of_eq_some found).trans ?_))
  · rfl
  · cases params? <;> rfl

theorem unitOver_of_anyMeta
    {rule : Rule Formula}
    (symbol : Symbol)
    (follows : FollowsFormula rest) :
    unitOver negationSymbol rule (.anyMeta symbol :: rest) =
      some (.leaf .anyMeta symbol, rest) := by
  have notComparison :
      comparison negationSymbol (.anyMeta symbol :: rest) = none := by
    refine comparison_of_other_sign fun value sign after found => ?_
    have read := term_of_leaf .anyMeta symbol follows.arguments_eq_none
    cases read.symm.trans found
    exact follows.comparesTerms_eq_false
  rw [unitOver, orElse_of_eq_none notComparison, orElse_of_eq_none rfl]
  exact orElse_of_eq_some rfl

/-- A negation symbol and a formula are read as a negation. -/
theorem unitOver_of_negation
    {rule : Rule Formula}
    {operand : Formula}
    (symbol : Symbol)
    (found : rule tokens = some (operand, rest)) :
    unitOver negationSymbol rule (.negation symbol :: tokens) =
      some (.plain (.negation symbol operand), rest) := by
  rw [unitOver_of_others_eq_none
    (comparison_of_term_eq_none (term_of_not_beginsTerm rfl)) rfl rfl rfl]
  refine orElse_of_eq_some
    ((token_bind_of_eq_some (?_ : _ = some symbol)).trans
      (bind_of_eq_some found))
  rfl

/-- A negation that is written with its own glyph ends with its operand. -/
theorem FormulaDerivation.tail?_negation
    {operand : Formula}
    (derivation : FormulaDerivation negationSymbol tokens operand)
    (symbol : Symbol) :
    (FormulaShape.negation symbol operand).tail? = some operand := by
  cases derivation with
  | bare carrier => cases carrier <;> rfl
  | transformed => rfl

end

/-! ## Every phrase is read -/

mutual

/-- A phrase for a formula without a substitution is read back, if none can be
read behind it that the formula it ends with could still carry. -/
theorem unitOver_append
    {negationSymbol : Symbol}
    {tokens : List Token}
    {shape : FormulaShape}
    (derivation : UnitDerivation negationSymbol tokens shape)
    (innermost : shape.AttachesInnermost)
    (rest : List Token)
    (follows : FollowsFormula rest)
    (stops : ∀ tail, shape.tail? = some tail ->
      tail.transform? = none -> transform term rest = none) :
    unitOver negationSymbol (formula negationSymbol) (tokens ++ rest) =
      some (.plain shape, rest) := by
  match derivation with
  | .leaf .letter symbol => exact unitOver_of_letter symbol .nil follows
  | .leaf .formulaMeta symbol =>
      have noParams : optional
          (Rule.bracketed (term.separatedBy (.exactly .comma))) rest =
            some (none, rest) := by
        rw [optional_apply, follows.params_eq_none]
      exact unitOver_of_formulaMeta symbol noParams
  | .leaf .anyMeta symbol => exact unitOver_of_anyMeta symbol follows
  | .relation symbol args nonempty =>
      rw [List.cons_append, unitOver_of_letter symbol args follows]
      cases args with
      | nil => exact absurd rfl nonempty
      | cons => rfl
  | .comparison symbol left right =>
      rw [List.append_assoc]
      exact orElse_of_eq_some (comparison_of_relation (term_append left _ rfl)
        (term_append right rest follows.arguments_eq_none))
  | .complemented relation complement left right =>
      rw [List.append_assoc]
      exact orElse_of_eq_some
        (comparison_of_complement (term_append left _ rfl)
          (term_append right rest follows.arguments_eq_none))
  | .complexMeta symbol brackets params =>
      simp only [List.cons_append, List.append_assoc, List.nil_append]
      have found : optional
          (Rule.bracketed (term.separatedBy (.exactly .comma))) _ = _ :=
        (optional_apply _ _).trans
          (by rw [params_append params brackets rest])
      exact unitOver_of_formulaMeta symbol found
  | .negation symbol operand =>
      refine unitOver_of_negation symbol
        (formula_append operand innermost rest follows ?_)
      exact stops _ (operand.tail?_negation symbol)
  | .binary symbol kind brackets left right =>
      simp only [List.cons_append, List.append_assoc, List.nil_append]
      exact unitOver_of_sides brackets
        (term_of_connective brackets
          (transformable_formula_append left _ rfl fun _ => rfl))
        (left.not_restricted _)
        (formula_append left innermost.1 _ (.connective ..) fun _ => rfl)
        (formula_append right innermost.2 _ (.closing ..) fun _ => rfl)
  | .quantified quantifiers scope =>
      rw [List.append_assoc]
      refine unitOver_of_prefix quantifiers
        (quantification_append quantifiers innermost.1 _)
        (formula_append scope innermost.2 rest follows ?_)
      exact stops _ rfl

/-- A phrase for a formula is read back, if its substitutions are attached
innermost and none can be read behind it that it could still carry. -/
theorem formula_append
    {negationSymbol : Symbol}
    {tokens : List Token}
    {whole : Formula}
    (derivation : FormulaDerivation negationSymbol tokens whole)
    (innermost : whole.AttachesInnermost)
    (rest : List Token)
    (follows : FollowsFormula rest)
    (stops : whole.transform? = none -> transform term rest = none) :
    formula negationSymbol (tokens ++ rest) = some (whole, rest) := by
  match derivation with
  | .bare carrier =>
      have stopsCarrier := stops rfl
      exact formula_of_bare (unitOver_append carrier innermost rest follows
        fun _ _ _ => stopsCarrier) stopsCarrier
  | .transformed carrier pending =>
      rw [List.append_assoc]
      refine formula_of_transform
        (unitOver_append carrier innermost.2 _ (.transform pending rest) ?_)
        (transform_append pending rest follows.arguments_eq_none)
      intro tail ends bare
      have carries := innermost.1 tail ends
      rw [bare] at carries
      cases carries

/-- A quantifier with what restricts it is read back. -/
theorem quantification_append
    {negationSymbol : Symbol}
    {tokens : List Token}
    {symbol : Symbol}
    {kind : Quantifier}
    {boundVariable : Term}
    {restriction : Restriction}
    (derivation : PrefixDerivation negationSymbol tokens symbol kind
      boundVariable restriction)
    (innermost : restriction.AttachesInnermost)
    (rest : List Token) :
    quantification (formula negationSymbol) (tokens ++ rest) =
      some (((symbol, kind, boundVariable), restriction), rest) := by
  match derivation with
  | .unrestricted symbol kind binds =>
      exact orElse_of_eq_some
        (bind_of_eq_some (quantifier_of_binds symbol kind binds rest))
  | .bounded symbol kind binds relation brackets bound =>
      simp only [List.cons_append, List.append_assoc, List.nil_append]
      exact quantification_of_bound symbol kind binds relation
        (term_append bound _ rfl)
  | .restricted symbol kind binds divider brackets body =>
      simp only [List.cons_append, List.append_assoc, List.nil_append]
      exact quantification_of_divider symbol kind binds divider
        (formula_append body innermost _ (.closing ..) fun _ => rfl)

end

end Grammar
end SymbolicLogic
