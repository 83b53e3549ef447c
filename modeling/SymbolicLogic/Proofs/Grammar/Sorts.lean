import SymbolicLogic.Proofs.Grammar.Exactness

/-!
# Formulas and terms

Formulas begin with terms and share brackets, metavariables and substitutions with them.
All the same a formula is told from a term by its tokens: only a metavariable for both
sorts, with a substitution or without, is a phrase for a formula and for a term. Where
a text is read as an expression, such a metavariable is a formula.
-/

namespace SymbolicLogic

namespace Grammar

variable {negationSymbol : Symbol} {tokens : List Token}
variable {whole other : Formula} {value : Term} {symbol : Symbol}

/-- What is a phrase for a formula and for a term is a metavariable for both
sorts. -/
theorem SentenceDerivation.shape_of_operand
    (derivation : SentenceDerivation negationSymbol tokens whole)
    (operand : OperandDerivation tokens value) :
    ∃ symbol, value.shape = .leaf .anyMeta symbol := by
  have read := transformable_append operand [] rfl fun _ => rfl
  rw [List.append_nil] at read
  cases derivation with
  | bracketed only =>
      rw [← List.append_nil tokens] at read
      rcases transformable_formula_append only [] rfl (fun _ => rfl) value []
        read with ⟨symbol, -, same, -⟩ | ⟨sign, last, impossible, -⟩
      · exact ⟨symbol, same⟩
      · cases impossible
  | binary symbol kind left right =>
      rcases transformable_formula_append left _ rfl (fun _ => rfl) value []
        read with ⟨-, -, -, impossible⟩ | ⟨sign, last, impossible, -⟩
      · cases impossible
      · cases impossible

/-- Such a metavariable, with or without a substitution, is a phrase for a formula that
carries the same substitution. -/
theorem OperandDerivation.exists_formula
    (operand : OperandDerivation tokens value)
    (shape_eq : value.shape = .leaf .anyMeta symbol) :
    ∃ whole, SentenceDerivation negationSymbol tokens whole ∧
      whole.AttachesInnermost ∧ whole.shape = .leaf .anyMeta symbol ∧
      whole.transform? = value.transform? := by
  cases operand with
  | bare carrier =>
      cases carrier with
      | leaf kind =>
          cases shape_eq
          exact ⟨_, .bracketed (.bare (.leaf .anyMeta symbol)), trivial, rfl, rfl⟩
      | apply | operation => cases shape_eq
  | transformed carrier pending =>
      cases carrier with
      | leaf kind =>
          cases shape_eq
          exact ⟨_, .bracketed (.transformed (.leaf .anyMeta symbol) pending),
            ⟨nofun, trivial⟩, rfl, rfl⟩
      | apply | operation => cases shape_eq

/-- A list of tokens is a phrase for one formula that attaches its substitutions
innermost. -/
theorem SentenceDerivation.unique
    (derivation : SentenceDerivation negationSymbol tokens whole)
    (innermost : whole.AttachesInnermost)
    (derivation' : SentenceDerivation negationSymbol tokens other)
    (innermost' : other.AttachesInnermost) :
    whole = other := by
  have read := outermost_of_derivation derivation innermost
  rw [outermost_of_derivation derivation' innermost'] at read
  cases read
  rfl

end Grammar

namespace Language

variable {language : Language} {text : String} {whole : Formula} {value : Term}
  {symbol : Symbol}

/-- A text that is a formula and a term is the same metavariable in both. -/
theorem anyMeta_of_both
    (readFormula : language.parseFormula text = .ok whole)
    (readTerm : language.parseTerm text = .ok value) :
    ∃ symbol, whole.shape = .leaf .anyMeta symbol ∧
      value.shape = .leaf .anyMeta symbol ∧
      whole.transform? = value.transform? := by
  obtain ⟨tokens, lexes⟩ := exists_tokens_of_parseBy readTerm
  obtain ⟨derivation, innermost⟩ := (parseFormula_eq_ok_iff lexes).mp readFormula
  have operand := (parseTerm_eq_ok_iff lexes).mp readTerm
  obtain ⟨symbol, shape_eq⟩ := derivation.shape_of_operand operand
  obtain ⟨other, derivation', innermost', otherShape, pending⟩ :=
    operand.exists_formula shape_eq
  obtain rfl := derivation.unique innermost derivation' innermost'
  exact ⟨symbol, otherShape, shape_eq, pending⟩

/-- A metavariable for both sorts that is read as a term is a formula, too. -/
theorem exists_parseFormula_of_anyMeta
    (readTerm : language.parseTerm text = .ok value)
    (shape_eq : value.shape = .leaf .anyMeta symbol) :
    ∃ whole, language.parseFormula text = .ok whole := by
  obtain ⟨tokens, lexes⟩ := exists_tokens_of_parseBy readTerm
  obtain ⟨whole, derivation, innermost, -⟩ :=
    ((parseTerm_eq_ok_iff lexes).mp readTerm).exists_formula shape_eq
  exact ⟨whole, (parseFormula_eq_ok_iff lexes).mpr ⟨derivation, innermost⟩⟩

/-- A text is read as a term exactly if it is a term and no formula. -/
theorem parseExpression_eq_term_iff :
    language.parseExpression text = .ok (.term value) ↔
      language.parseTerm text = .ok value ∧
        ∀ whole, language.parseFormula text ≠ .ok whole := by
  rw [parseExpression]
  cases language.parseFormula text with
  | ok whole => simp
  | error failure => cases language.parseTerm text <;> simp

/-- Only a metavariable for both sorts is read as a formula and as a term. It carries
the same substitution in both. So the texts that are read as terms where expressions
are read are all other texts of terms. -/
theorem only_anyMeta_has_both_sorts (language : Language) (text : String) :
    (∀ whole value, language.parseFormula text = .ok whole ->
      language.parseTerm text = .ok value ->
      ∃ symbol, whole.shape = .leaf .anyMeta symbol ∧
        value.shape = .leaf .anyMeta symbol ∧
        whole.transform? = value.transform?) ∧
      ∀ value, language.parseExpression text = .ok (.term value) ↔
        language.parseTerm text = .ok value ∧
          ∀ symbol, value.shape ≠ .leaf .anyMeta symbol := by
  refine ⟨fun whole value => anyMeta_of_both, fun value => ?_⟩
  rw [parseExpression_eq_term_iff]
  refine and_congr_right fun readTerm => ⟨?_, ?_⟩
  · intro notFormula symbol shape_eq
    obtain ⟨whole, readFormula⟩ := exists_parseFormula_of_anyMeta readTerm shape_eq
    exact notFormula whole readFormula
  · intro other whole readFormula
    obtain ⟨symbol, -, shape_eq, -⟩ := anyMeta_of_both readFormula readTerm
    exact other symbol shape_eq

/-- The metavariable of `Γ[a/x]` is read as a formula and as a term, with the same
substitution, while `f(Γ)` is a term only. -/
theorem only_anyMeta_has_both_sorts_substitution :
    ∃ whole value application,
      predicate.parseFormula "Γ[a/x]" = .ok whole ∧
        predicate.parseTerm "Γ[a/x]" = .ok value ∧
        (∃ symbol, whole.shape = .leaf .anyMeta symbol ∧
          value.shape = .leaf .anyMeta symbol ∧
          whole.transform? = value.transform?) ∧
        predicate.parseTerm "f(Γ)" = .ok application ∧
        predicate.parseExpression "f(Γ)" = .ok (.term application) := by
  have readFormula : predicate.parseFormula "Γ[a/x]" =
      .ok (.transformed (.leaf .anyMeta ⟨"Γ", .anyMeta⟩)
        ⟨.leaf .objectVariable ⟨"x", .objectVariable⟩,
          .leaf .constant ⟨"a", .constant⟩, false⟩) := rfl
  have readTerm : predicate.parseTerm "Γ[a/x]" =
      .ok (.transformed (.leaf .anyMeta ⟨"Γ", .anyMeta⟩)
        (.leaf .objectVariable ⟨"x", .objectVariable⟩)
        (.leaf .constant ⟨"a", .constant⟩) false) := rfl
  have readOther : predicate.parseTerm "f(Γ)" =
      .ok (.plain (.apply .function ⟨"f", .function⟩
        [.leaf .anyMeta ⟨"Γ", .anyMeta⟩] .round)) := rfl
  exact ⟨_, _, _, readFormula, readTerm,
    (only_anyMeta_has_both_sorts _ _).1 _ _ readFormula readTerm, readOther,
    ((only_anyMeta_has_both_sorts _ _).2 _).mpr ⟨readOther, nofun⟩⟩

end Language
end SymbolicLogic
