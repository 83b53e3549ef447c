import SymbolicLogic.Proofs.Grammar.Derivation
import SymbolicLogic.Proofs.Grammar.Recursion

/-!
# What is read is derivable

Each rule returns a tree only for tokens that the grammar derives it from. The
tree attaches its substitutions innermost: a formula that carries none was left
where no substitution can be read, so a formula around it has none to carry
there.
-/

namespace SymbolicLogic
namespace Rule

variable {α : Type} {tokens rest : List Token}
variable {meaning : List Token -> α -> Prop}

theorem Reads.orElse
    {first second : Rule α}
    (readsFirst : first.Reads meaning)
    (readsSecond : second.Reads meaning) :
    (first <|> second : Rule α).Reads meaning := by
  intro tokens value rest found
  rcases orElse_eq_some found with found | ⟨-, found⟩
  · exact readsFirst found
  · exact readsSecond found

theorem Reads.bracketed {rule : Rule α} (reads : rule.Reads meaning) :
    rule.bracketed.Reads fun used result => ∃ inner,
      used = .opening result.2 :: (inner ++ [.closing result.2]) ∧
        meaning inner result.1 := by
  intro tokens result rest found
  obtain ⟨inner, rfl, inside⟩ := bracketed_eq_some found
  obtain ⟨used, rfl, meant⟩ := reads inside
  exact ⟨.opening result.2 :: (used ++ [.closing result.2]), by simp, used,
    rfl, meant⟩

end Rule

namespace Grammar

open Rule

section

variable {rule : Rule Term} (reads : rule.Reads TermDerivation)

include reads

/-- Substitutions that are read have a derivation. -/
theorem reads_transform : (transform rule).Reads TransformDerivation := by
  refine .orElse ?_ ?_
  · intro tokens pending rest found
    obtain ⟨⟨⟨replacement, target⟩, brackets⟩, after, group, found⟩ :=
      bind_eq_some found
    obtain ⟨rfl, rfl⟩ := pure_eq_some found
    obtain ⟨inner, rfl, inside⟩ := bracketed_eq_some group
    obtain ⟨replacement', middle, first, inside⟩ := bind_eq_some inside
    obtain ⟨_, afterSlash, slash, inside⟩ := bind_eq_some inside
    obtain ⟨target', last, second, inside⟩ := bind_eq_some inside
    obtain ⟨pair_eq, rfl⟩ := pure_eq_some inside
    cases pair_eq
    obtain ⟨used, rfl, meant⟩ := reads first
    obtain rfl := exactly_eq_some slash
    obtain ⟨used', rfl, meant'⟩ := reads second
    exact ⟨_, by simp, .inline brackets meant meant'⟩
  · intro tokens pending rest found
    obtain ⟨_, afterCaret, caret, found⟩ := bind_eq_some found
    obtain ⟨target, middle, first, found⟩ := bind_eq_some found
    obtain ⟨_, afterUnderscore, underscore, found⟩ := bind_eq_some found
    obtain ⟨replacement, last, second, found⟩ := bind_eq_some found
    obtain ⟨rfl, rfl⟩ := pure_eq_some found
    obtain rfl := exactly_eq_some caret
    obtain ⟨used, rfl, meant⟩ := reads first
    obtain rfl := exactly_eq_some underscore
    obtain ⟨used', rfl, meant'⟩ := reads second
    exact ⟨_, by simp, .stacked meant meant'⟩

/-- Operands that are read have a derivation. -/
theorem reads_transformable :
    (transformable rule).Reads OperandDerivation := by
  intro tokens value rest found
  obtain ⟨carrier, middle, first, found⟩ := bind_eq_some found
  obtain ⟨pending?, after, more, finished⟩ := bind_eq_some found
  obtain ⟨used, rfl, meant⟩ := reads first
  rcases optional_eq_some more with
    ⟨pending, rfl, second⟩ | ⟨rfl, -, rfl⟩
  · obtain ⟨rfl, rfl⟩ := pure_eq_some finished
    obtain ⟨usedPending, rfl, meantPending⟩ := reads_transform reads second
    exact ⟨used ++ usedPending, (List.append_assoc ..).symm,
      .transformed meant meantPending⟩
  · obtain ⟨rfl, rfl⟩ := pure_eq_some finished
    exact ⟨used, rfl, .bare meant⟩

omit reads in
theorem ArgumentsDerivation.of_separated
    {values : List Term}
    (phrases : Separated OperandDerivation tokens values) :
    ArgumentsDerivation tokens values := by
  induction phrases with
  | single only => exact .single only
  | cons first _ inductionHypothesis => exact .cons first inductionHypothesis

theorem reads_arguments :
    (arguments rule).Reads fun used result => ∃ inner,
      used = .opening result.2 :: (inner ++ [.closing result.2]) ∧
        ArgumentsDerivation inner result.1 := by
  intro tokens result rest found
  obtain ⟨used, rfl, inner, rfl, phrases⟩ :=
    (reads_transformable reads).separatedBy.bracketed found
  exact ⟨_, rfl, inner, rfl, .of_separated phrases⟩

theorem reads_application : (application rule).Reads TermDerivation := by
  refine .orElse ?_ ?_
  · intro tokens value rest found
    obtain ⟨symbol, middle, first, found⟩ := bind_eq_some found
    obtain ⟨⟨args, brackets⟩, after, second, found⟩ := bind_eq_some found
    obtain ⟨rfl, rfl⟩ := pure_eq_some found
    obtain ⟨token, rfl, selected⟩ := token_eq_some first
    obtain ⟨used, rfl, inner, rfl, meant⟩ := reads_arguments reads second
    cases token <;> simp at selected
    subst selected
    exact ⟨_, rfl, .apply .function _ brackets meant⟩
  · intro tokens value rest found
    obtain ⟨symbol, middle, first, found⟩ := bind_eq_some found
    obtain ⟨⟨args, brackets⟩, after, second, found⟩ := bind_eq_some found
    obtain ⟨rfl, rfl⟩ := pure_eq_some found
    obtain ⟨token, rfl, selected⟩ := token_eq_some first
    obtain ⟨used, rfl, inner, rfl, meant⟩ := reads_arguments reads second
    cases token <;> simp at selected
    subst selected
    exact ⟨_, rfl, .apply .complexMeta _ brackets meant⟩

theorem reads_operation : (operation rule).Reads TermDerivation := by
  intro tokens value rest found
  obtain ⟨⟨⟨left, symbol, right⟩, brackets⟩, after, group, found⟩ :=
    bind_eq_some found
  obtain ⟨rfl, rfl⟩ := pure_eq_some found
  obtain ⟨inner, rfl, inside⟩ := bracketed_eq_some group
  obtain ⟨left', middle, first, inside⟩ := bind_eq_some inside
  obtain ⟨symbol', afterSymbol, selects, inside⟩ := bind_eq_some inside
  obtain ⟨right', last, second, inside⟩ := bind_eq_some inside
  obtain ⟨triple_eq, rfl⟩ := pure_eq_some inside
  cases triple_eq
  obtain ⟨used, rfl, meant⟩ := reads_transformable reads first
  obtain ⟨token, rfl, selected⟩ := token_eq_some selects
  obtain ⟨used', rfl, meant'⟩ := reads_transformable reads second
  cases token <;> simp at selected
  subst selected
  exact ⟨_, by simp, .operation _ brackets meant meant'⟩

omit reads in
theorem reads_termLeaf : termLeaf.Reads TermDerivation := by
  intro tokens value rest found
  obtain ⟨token, rfl, selected⟩ := token_eq_some found
  cases token <;> simp at selected <;> subst selected
  case constant symbol => exact ⟨_, rfl, .leaf .constant symbol⟩
  case objectVariable symbol => exact ⟨_, rfl, .leaf .objectVariable symbol⟩
  case termMeta symbol => exact ⟨_, rfl, .leaf .termMeta symbol⟩
  case variableMeta symbol => exact ⟨_, rfl, .leaf .variableMeta symbol⟩
  case anyMeta symbol => exact ⟨_, rfl, .leaf .anyMeta symbol⟩

/-- Terms that are read have a derivation. -/
theorem reads_termOver : (termOver rule).Reads TermDerivation :=
  (reads_application reads).orElse ((reads_operation reads).orElse reads_termLeaf)

end

/-- A term is read only from tokens that the grammar derives it from. -/
theorem reads_term : term.Reads TermDerivation := by
  have reads_nested (depth : Nat) :
      (nested termOver depth).Reads TermDerivation := by
    induction depth with
    | zero =>
        intro tokens value rest found
        cases found
    | succ depth inductionHypothesis => exact reads_termOver inductionHypothesis
  exact fun _ _ _ found => reads_nested _ found

/-- The formula was read off the front of the tokens as the grammar has it, with
its substitutions attached innermost. If it carries none then none can be read
behind it. -/
def FormulaRead
    (negationSymbol : Symbol)
    (tokens : List Token)
    (whole : Formula)
    (rest : List Token) : Prop :=
  ∃ used, tokens = used ++ rest ∧
    FormulaDerivation negationSymbol used whole ∧ whole.AttachesInnermost ∧
      (whole.transform? = none -> transform term rest = none)

/-- The same for a formula before its own substitution is read: none can be read
behind it unless the formula it ends with carries one. -/
def UnitRead
    (negationSymbol : Symbol)
    (tokens : List Token)
    (carrier : Formula)
    (rest : List Token) : Prop :=
  ∃ used shape, tokens = used ++ rest ∧ carrier = .plain shape ∧
    UnitDerivation negationSymbol used shape ∧ shape.AttachesInnermost ∧
      ∀ tail, shape.tail? = some tail ->
        tail.transform? = none -> transform term rest = none

section

variable {negationSymbol : Symbol} {tokens rest : List Token}
variable {whole : Formula}

/-- A comparison that is read has a derivation. -/
theorem read_comparison
    (found : comparison negationSymbol tokens = some (whole, rest)) :
    UnitRead negationSymbol tokens whole rest := by
  rcases orElse_eq_some found with found | ⟨-, found⟩
  · obtain ⟨left, middle, first, found⟩ := bind_eq_some found
    obtain ⟨symbol, after, selects, found⟩ := bind_eq_some found
    obtain ⟨right, last, second, found⟩ := bind_eq_some found
    obtain ⟨rfl, rfl⟩ := pure_eq_some found
    obtain ⟨used, rfl, meant⟩ := reads_term first
    obtain ⟨token, rfl, selected⟩ := token_eq_some selects
    obtain ⟨used', rfl, meant'⟩ := reads_term second
    cases token <;> simp at selected
    subst selected
    exact ⟨_, _, by simp, rfl, .comparison _ meant meant', trivial,
      by simp [FormulaShape.tail?]⟩
  · obtain ⟨left, middle, first, found⟩ := bind_eq_some found
    obtain ⟨⟨relation, complement⟩, after, selects, found⟩ := bind_eq_some found
    obtain ⟨right, last, second, found⟩ := bind_eq_some found
    obtain ⟨rfl, rfl⟩ := pure_eq_some found
    obtain ⟨used, rfl, meant⟩ := reads_term first
    obtain ⟨token, rfl, selected⟩ := token_eq_some selects
    obtain ⟨used', rfl, meant'⟩ := reads_term second
    cases token <;> simp at selected
    obtain ⟨rfl, rfl⟩ := selected
    exact ⟨_, _, by simp, rfl, .complemented _ _ meant meant', trivial,
      by simp [FormulaShape.tail?]⟩

theorem read_formulaMeta
    (found : formulaMeta tokens = some (whole, rest)) :
    UnitRead negationSymbol tokens whole rest := by
  obtain ⟨symbol, middle, selects, found⟩ := bind_eq_some found
  obtain ⟨params?, after, more, finished⟩ := bind_eq_some found
  obtain ⟨token, rfl, selected⟩ := token_eq_some selects
  cases token <;> simp at selected
  subst selected
  rcases optional_eq_some more with
    ⟨⟨params, brackets⟩, rfl, group⟩ | ⟨rfl, -, rfl⟩
  · obtain ⟨rfl, rfl⟩ := pure_eq_some finished
    obtain ⟨used, rfl, inner, rfl, meant⟩ :=
      reads_term.separatedBy.bracketed group
    exact ⟨_, _, by simp, rfl, .complexMeta _ brackets meant, trivial,
      by simp [FormulaShape.tail?]⟩
  · obtain ⟨rfl, rfl⟩ := pure_eq_some finished
    exact ⟨_, _, rfl, rfl, .leaf .formulaMeta _, trivial,
      by simp [FormulaShape.tail?]⟩

theorem read_anyMeta
    (found : anyMeta tokens = some (whole, rest)) :
    UnitRead negationSymbol tokens whole rest := by
  obtain ⟨token, rfl, selected⟩ := token_eq_some found
  cases token <;> simp at selected
  subst selected
  exact ⟨_, _, rfl, rfl, .leaf .anyMeta _, trivial,
    by simp [FormulaShape.tail?]⟩

theorem read_atomic
    (found : atomic tokens = some (whole, rest)) :
    UnitRead negationSymbol tokens whole rest := by
  obtain ⟨symbol, middle, selects, found⟩ := bind_eq_some found
  obtain ⟨args, after, more, finished⟩ := bind_eq_some found
  obtain ⟨token, rfl, selected⟩ := token_eq_some selects
  obtain ⟨used, rfl, meant⟩ := reads_term.many more
  cases token <;> simp at selected
  subst selected
  cases args with
  | nil =>
      obtain ⟨rfl, rfl⟩ := pure_eq_some finished
      cases meant
      exact ⟨_, _, rfl, rfl, .leaf .letter _, trivial,
        by simp [FormulaShape.tail?]⟩
  | cons arg args =>
      obtain ⟨rfl, rfl⟩ := pure_eq_some finished
      exact ⟨_, _, rfl, rfl, .relation _ meant (by simp), trivial,
        by simp [FormulaShape.tail?]⟩

theorem read_quantifier
    {symbol : Symbol}
    {kind : Quantifier}
    {boundVariable : Term}
    (found : quantifier tokens =
      some ((symbol, kind, boundVariable), rest)) :
    ∃ token, tokens = .quantifier symbol kind :: token :: rest ∧
      BoundVariable token boundVariable := by
  obtain ⟨⟨symbol', kind'⟩, middle, selects, found⟩ := bind_eq_some found
  obtain ⟨boundVariable', after, binds, found⟩ := bind_eq_some found
  obtain ⟨triple_eq, rfl⟩ := pure_eq_some found
  cases triple_eq
  obtain ⟨first, rfl, selected⟩ := token_eq_some selects
  obtain ⟨second, rfl, bound⟩ := token_eq_some binds
  cases first <;> simp at selected
  obtain ⟨rfl, rfl⟩ := selected
  cases second <;> simp at bound <;> subst bound
  · exact ⟨_, rfl, .objectVariable _⟩
  · exact ⟨_, rfl, .variableMeta _⟩

/-- The operand of a negation ends where the negation does. -/
theorem eq_operand_of_tail?
    {symbol : Symbol}
    {operand tail : Formula}
    (ends : (FormulaShape.negation symbol operand).tail? = some tail) :
    tail = operand := by
  unfold FormulaShape.tail? at ends
  split at ends <;> simp_all

section

variable {rule : Rule Formula}
variable (reads : ∀ tokens whole rest, rule tokens = some (whole, rest) ->
  FormulaRead negationSymbol tokens whole rest)

include reads

theorem read_negation
    (found : negation rule tokens = some (whole, rest)) :
    UnitRead negationSymbol tokens whole rest := by
  obtain ⟨symbol, middle, selects, found⟩ := bind_eq_some found
  obtain ⟨operand, after, first, found⟩ := bind_eq_some found
  obtain ⟨rfl, rfl⟩ := pure_eq_some found
  obtain ⟨token, rfl, selected⟩ := token_eq_some selects
  obtain ⟨used, rfl, meant, innermost, stops⟩ := reads _ _ _ first
  cases token <;> simp at selected
  subst selected
  refine ⟨_, _, rfl, rfl, .negation _ meant, innermost, fun tail ends => ?_⟩
  rw [eq_operand_of_tail? ends]
  exact stops

/-- The quantifier, its variable and what restricts it were read. -/
theorem read_quantification
    {symbol : Symbol}
    {kind : Quantifier}
    {boundVariable : Term}
    {restriction : Restriction}
    (found : quantification rule tokens =
      some (((symbol, kind, boundVariable), restriction), rest)) :
    ∃ used, tokens = used ++ rest ∧
      PrefixDerivation negationSymbol used symbol kind boundVariable
        restriction ∧ restriction.AttachesInnermost := by
  rcases orElse_eq_some found with found | ⟨-, found⟩
  · obtain ⟨head, middle, heads, found⟩ := bind_eq_some found
    obtain ⟨head_eq, rfl⟩ := pure_eq_some found
    cases head_eq
    obtain ⟨variableToken, rfl, binds⟩ := read_quantifier heads
    exact ⟨_, rfl, .unrestricted _ _ binds, trivial⟩
  rcases orElse_eq_some found with found | ⟨-, found⟩
  · obtain ⟨⟨⟨head, relation, bound⟩, brackets⟩, middle, group, found⟩ :=
      bind_eq_some found
    obtain ⟨result_eq, rfl⟩ := pure_eq_some found
    cases result_eq
    obtain ⟨inner, rfl, inside⟩ := bracketed_eq_some group
    obtain ⟨head, middle, heads, inside⟩ := bind_eq_some inside
    obtain ⟨symbol', after, selects, inside⟩ := bind_eq_some inside
    obtain ⟨bound', last, second, inside⟩ := bind_eq_some inside
    obtain ⟨triple_eq, rfl⟩ := pure_eq_some inside
    cases triple_eq
    obtain ⟨token, rfl, selected⟩ := token_eq_some selects
    obtain ⟨variableToken, rfl, binds⟩ := read_quantifier heads
    obtain ⟨used, rfl, meant⟩ := reads_term second
    cases token <;> simp at selected
    subst selected
    exact ⟨_, by simp, .bounded _ _ binds _ brackets meant, trivial⟩
  · obtain ⟨⟨⟨head, divider, body⟩, brackets⟩, middle, group, found⟩ :=
      bind_eq_some found
    obtain ⟨result_eq, rfl⟩ := pure_eq_some found
    cases result_eq
    obtain ⟨inner, rfl, inside⟩ := bracketed_eq_some group
    obtain ⟨head, middle, heads, inside⟩ := bind_eq_some inside
    obtain ⟨symbol', after, selects, inside⟩ := bind_eq_some inside
    obtain ⟨body', last, second, inside⟩ := bind_eq_some inside
    obtain ⟨triple_eq, rfl⟩ := pure_eq_some inside
    cases triple_eq
    obtain ⟨token, rfl, selected⟩ := token_eq_some selects
    obtain ⟨variableToken, rfl, binds⟩ := read_quantifier heads
    obtain ⟨used, rfl, meant, innermost, -⟩ := reads _ _ _ second
    cases token <;> simp at selected
    subst selected
    exact ⟨_, by simp, .restricted _ _ binds _ brackets meant, innermost⟩

/-- A quantified formula that is read has a derivation. -/
theorem read_quantified
    (found : quantified rule tokens = some (whole, rest)) :
    UnitRead negationSymbol tokens whole rest := by
  obtain ⟨⟨⟨symbol, kind, boundVariable⟩, restriction⟩, middle, first, found⟩ :=
    bind_eq_some found
  obtain ⟨scope, after, second, found⟩ := bind_eq_some found
  obtain ⟨rfl, rfl⟩ := pure_eq_some found
  obtain ⟨used, rfl, quantifiers, restrictionInnermost⟩ :=
    read_quantification reads first
  obtain ⟨usedScope, rfl, meant, innermost, stops⟩ := reads _ _ _ second
  refine ⟨_, _, (List.append_assoc ..).symm, rfl, .quantified quantifiers meant,
    ⟨restrictionInnermost, innermost⟩, fun tail ends => ?_⟩
  cases ends
  exact stops

/-- A binary formula that is read has a derivation. -/
theorem read_binary
    (found : binary rule tokens = some (whole, rest)) :
    UnitRead negationSymbol tokens whole rest := by
  obtain ⟨⟨⟨left, ⟨symbol, kind⟩, right⟩, brackets⟩, middle, group, found⟩ :=
    bind_eq_some found
  obtain ⟨rfl, rfl⟩ := pure_eq_some found
  obtain ⟨inner, rfl, inside⟩ := bracketed_eq_some group
  obtain ⟨left', middle, first, inside⟩ := bind_eq_some inside
  obtain ⟨operator, after, selects, inside⟩ := bind_eq_some inside
  obtain ⟨right', last, second, inside⟩ := bind_eq_some inside
  obtain ⟨triple_eq, rfl⟩ := pure_eq_some inside
  cases triple_eq
  obtain ⟨used, rfl, meant, innermost, -⟩ := reads _ _ _ first
  obtain ⟨token, rfl, selected⟩ := token_eq_some selects
  obtain ⟨used', rfl, meant', innermost', -⟩ := reads _ _ _ second
  cases token <;> simp at selected
  obtain ⟨rfl, rfl⟩ := selected
  exact ⟨_, _, by simp, rfl, .binary _ _ brackets meant meant',
    ⟨innermost, innermost'⟩, by simp [FormulaShape.tail?]⟩

/-- A substitution that is read behind a formula could not have been read behind
the formula it ends with, so that one carries a substitution already. -/
theorem read_formulaOver
    (found : formulaOver negationSymbol rule tokens = some (whole, rest)) :
    FormulaRead negationSymbol tokens whole rest := by
  obtain ⟨carrier, middle, first, found⟩ := bind_eq_some found
  obtain ⟨pending?, after, more, finished⟩ := bind_eq_some found
  have unit : UnitRead negationSymbol tokens carrier middle := by
    rcases orElse_eq_some first with first | ⟨-, first⟩
    · exact read_comparison first
    rcases orElse_eq_some first with first | ⟨-, first⟩
    · exact read_formulaMeta first
    rcases orElse_eq_some first with first | ⟨-, first⟩
    · exact read_anyMeta first
    rcases orElse_eq_some first with first | ⟨-, first⟩
    · exact read_atomic first
    rcases orElse_eq_some first with first | ⟨-, first⟩
    · exact read_negation reads first
    rcases orElse_eq_some first with first | ⟨-, first⟩
    · exact read_quantified reads first
    · exact read_binary reads first
  obtain ⟨used, shape, rfl, rfl, meant, innermost, stops⟩ := unit
  rcases optional_eq_some more with
    ⟨pending, rfl, pendingFound⟩ | ⟨rfl, missing, rfl⟩
  · obtain ⟨rfl, rfl⟩ := pure_eq_some finished
    have carries : ∀ tail, shape.tail? = some tail ->
        tail.transform?.isSome := by
      intro tail ends
      cases bare : tail.transform? with
      | some _ => rfl
      | none =>
          rw [stops tail ends bare] at pendingFound
          cases pendingFound
    obtain ⟨usedPending, rfl, meantPending⟩ :=
      reads_transform reads_term pendingFound
    exact ⟨used ++ usedPending, (List.append_assoc ..).symm,
      .transformed meant meantPending, ⟨carries, innermost⟩,
      fun bare => by cases bare⟩
  · obtain ⟨rfl, rfl⟩ := pure_eq_some finished
    exact ⟨used, rfl, .bare meant, innermost, fun _ => missing⟩

end

/-- A formula is read only from tokens that the grammar derives it from, with
its substitutions attached innermost. -/
theorem read_formula
    (found : formula negationSymbol tokens = some (whole, rest)) :
    FormulaRead negationSymbol tokens whole rest := by
  have read_nested (depth : Nat) : ∀ tokens whole rest,
      nested (formulaOver negationSymbol) depth tokens = some (whole, rest) ->
        FormulaRead negationSymbol tokens whole rest := by
    induction depth with
    | zero =>
        intro tokens whole rest found
        cases found
    | succ depth inductionHypothesis =>
        exact fun _ _ _ found => read_formulaOver inductionHypothesis found
  exact read_nested _ _ _ _ found

/-- So is a formula that may be an unbracketed binary formula. -/
theorem read_outermost
    (found : outermost negationSymbol tokens = some (whole, rest)) :
    ∃ used, tokens = used ++ rest ∧
      SentenceDerivation negationSymbol used whole ∧
        whole.AttachesInnermost := by
  obtain ⟨left, middle, first, found⟩ := bind_eq_some found
  obtain ⟨pair?, after, more, finished⟩ := bind_eq_some found
  obtain ⟨used, rfl, meant, innermost, -⟩ := read_formula first
  rcases optional_eq_some more with ⟨pair, rfl, found⟩ | ⟨rfl, -, rfl⟩
  · obtain ⟨operator, afterOperator, selects, found⟩ := bind_eq_some found
    obtain ⟨right, last, second, found⟩ := bind_eq_some found
    obtain ⟨rfl, rfl⟩ := pure_eq_some found
    obtain ⟨rfl, rfl⟩ := pure_eq_some finished
    obtain ⟨token, rfl, selected⟩ := token_eq_some selects
    obtain ⟨used', rfl, meant', innermost', -⟩ := read_formula second
    cases token <;> simp at selected
    subst selected
    exact ⟨_, by simp, .binary _ _ meant meant', ⟨innermost, innermost'⟩⟩
  · obtain ⟨rfl, rfl⟩ := pure_eq_some finished
    exact ⟨used, rfl, .bracketed meant, innermost⟩

end
end Grammar
end SymbolicLogic
