import SymbolicLogic.Grammar.Parse
import SymbolicLogic.Proofs.Grammar.Completeness
import SymbolicLogic.Proofs.Grammar.Soundness
import SymbolicLogic.Proofs.Token.Spelling

/-!
# The grammar is what is read

A text is a formula exactly when the grammar derives its tokens, and it is read
as the tree that attaches its substitutions innermost. Each derivable list of
tokens has such a tree: a substitution can be moved inwards to the end of the
formula that carries it.
-/

namespace SymbolicLogic
namespace Grammar

open Rule

section

variable {negationSymbol : Symbol} {pendingTokens : List Token}
variable {substitution : Transform}

/-- A substitution behind a formula can be attached innermost. -/
theorem UnitDerivation.attached
    {tokens : List Token}
    {shape : FormulaShape}
    (carrier : UnitDerivation negationSymbol tokens shape)
    (innermost : shape.AttachesInnermost)
    (pending : TransformDerivation pendingTokens substitution) :
    FormulaDerivation negationSymbol (tokens ++ pendingTokens)
        (shape.attached substitution) ∧
      (shape.attached substitution).AttachesInnermost := by
  by_cases here : ∀ tail, shape.tail? = some tail -> tail.transform?.isSome
  · rw [FormulaShape.attached_eq substitution here]
    exact ⟨.transformed carrier pending, here, innermost⟩
  · obtain ⟨tail, ends⟩ := Classical.not_forall.mp here
    obtain ⟨ends, bare⟩ := Classical.not_imp.mp ends
    match carrier with
    | .negation symbol (.bare inner) =>
        obtain ⟨derivation, attached⟩ :=
          UnitDerivation.attached inner innermost pending
        rw [FormulaShape.attached_negation substitution ends]
        exact ⟨.bare (.negation symbol derivation), attached⟩
    | .quantified quantifiers (.bare inner) =>
        obtain ⟨derivation, attached⟩ :=
          UnitDerivation.attached inner innermost.2 pending
        rw [FormulaShape.attached, List.append_assoc]
        exact ⟨.bare (.quantified quantifiers derivation), innermost.1, attached⟩
    | .negation symbol (.transformed ..) =>
        rw [eq_operand_of_tail? ends] at bare
        exact absurd rfl bare
    | .quantified quantifiers (.transformed ..) =>
        cases ends
        exact absurd rfl bare
    | .leaf .. | .relation .. | .comparison .. | .complemented ..
    | .complexMeta .. | .binary .. => cases ends

end

mutual

/-- A unit has a phrase of the same tokens whose substitutions are attached innermost. -/
theorem UnitDerivation.exists_innermost
    {negationSymbol : Symbol}
    {tokens : List Token}
    {shape : FormulaShape}
    (carrier : UnitDerivation negationSymbol tokens shape) :
    ∃ shape, UnitDerivation negationSymbol tokens shape ∧
      shape.AttachesInnermost := by
  match carrier with
  | .leaf kind symbol => exact ⟨_, .leaf kind symbol, trivial⟩
  | .relation symbol args nonempty =>
      exact ⟨_, .relation symbol args nonempty, trivial⟩
  | .comparison symbol left right =>
      exact ⟨_, .comparison symbol left right, trivial⟩
  | .complemented relation complement left right =>
      exact ⟨_, .complemented relation complement left right, trivial⟩
  | .complexMeta symbol brackets params =>
      exact ⟨_, .complexMeta symbol brackets params, trivial⟩
  | .negation symbol operand =>
      obtain ⟨_, derivation, attached⟩ :=
        FormulaDerivation.exists_innermost operand
      exact ⟨_, .negation symbol derivation, attached⟩
  | .binary symbol kind brackets left right =>
      obtain ⟨_, leftDerivation, leftAttached⟩ :=
        FormulaDerivation.exists_innermost left
      obtain ⟨_, rightDerivation, rightAttached⟩ :=
        FormulaDerivation.exists_innermost right
      exact ⟨_, .binary symbol kind brackets leftDerivation rightDerivation,
        leftAttached, rightAttached⟩
  | .quantified quantifiers scope =>
      obtain ⟨_, prefixDerivation, prefixAttached⟩ :=
        PrefixDerivation.exists_innermost quantifiers
      obtain ⟨_, derivation, attached⟩ :=
        FormulaDerivation.exists_innermost scope
      exact ⟨_, .quantified prefixDerivation derivation, prefixAttached,
        attached⟩

/-- What is derivable is derivable with its substitutions attached innermost. -/
theorem FormulaDerivation.exists_innermost
    {negationSymbol : Symbol}
    {tokens : List Token}
    {whole : Formula}
    (derivation : FormulaDerivation negationSymbol tokens whole) :
    ∃ whole, FormulaDerivation negationSymbol tokens whole ∧
      whole.AttachesInnermost := by
  match derivation with
  | .bare carrier =>
      obtain ⟨_, derivation, attached⟩ :=
        UnitDerivation.exists_innermost carrier
      exact ⟨_, .bare derivation, attached⟩
  | .transformed carrier pending =>
      obtain ⟨_, derivation, attached⟩ :=
        UnitDerivation.exists_innermost carrier
      exact ⟨_, derivation.attached attached pending⟩

theorem PrefixDerivation.exists_innermost
    {negationSymbol : Symbol}
    {tokens : List Token}
    {symbol : Symbol}
    {kind : Quantifier}
    {boundVariable : Term}
    {restriction : Restriction}
    (derivation : PrefixDerivation negationSymbol tokens symbol kind
      boundVariable restriction) :
    ∃ restriction, PrefixDerivation negationSymbol tokens symbol kind
      boundVariable restriction ∧ restriction.AttachesInnermost := by
  match derivation with
  | .unrestricted symbol kind binds =>
      exact ⟨_, .unrestricted symbol kind binds, trivial⟩
  | .bounded symbol kind binds relation brackets bound =>
      exact ⟨_, .bounded symbol kind binds relation brackets bound, trivial⟩
  | .restricted symbol kind binds divider brackets inner =>
      obtain ⟨_, innerDerivation, attached⟩ :=
        FormulaDerivation.exists_innermost inner
      exact ⟨_, .restricted symbol kind binds divider brackets innerDerivation,
        attached⟩

end

section

variable {negationSymbol : Symbol} {tokens : List Token} {whole : Formula}

/-- So has a sentence. -/
theorem SentenceDerivation.exists_innermost
    (derivation : SentenceDerivation negationSymbol tokens whole) :
    ∃ whole, SentenceDerivation negationSymbol tokens whole ∧
      whole.AttachesInnermost := by
  cases derivation with
  | bracketed only =>
      obtain ⟨_, derivation, attached⟩ := only.exists_innermost
      exact ⟨_, .bracketed derivation, attached⟩
  | binary symbol kind left right =>
      obtain ⟨_, leftDerivation, leftAttached⟩ := left.exists_innermost
      obtain ⟨_, rightDerivation, rightAttached⟩ := right.exists_innermost
      exact ⟨_, .binary symbol kind leftDerivation rightDerivation,
        leftAttached, rightAttached⟩

/-- A derivable list of tokens is read as a whole. -/
theorem outermost_of_derivation
    (derivation : SentenceDerivation negationSymbol tokens whole)
    (innermost : whole.AttachesInnermost) :
    outermost negationSymbol tokens = some (whole, []) := by
  cases derivation with
  | bracketed only =>
      have read := formula_append only innermost [] .nil fun _ => rfl
      rw [List.append_nil] at read
      exact (bind_of_eq_some read).trans rfl
  | @binary _ left rightTokens right symbol kind leftRead rightRead =>
      have read := formula_append rightRead innermost.2 [] .nil fun _ => rfl
      rw [List.append_nil] at read
      have readPair : (do
          let operator <- connective
          let right <- formula negationSymbol
          return (operator, right) : Rule _)
            (.connective symbol kind :: rightTokens) =
              some (((symbol, kind), right), []) := by
        refine (token_bind_of_eq_some (?_ : _ = some (symbol, kind))).trans
          (bind_of_eq_some read)
        rfl
      rw [outermost, bind_of_eq_some (formula_append leftRead innermost.1
        (.connective symbol kind :: rightTokens) (.connective ..)
        fun _ => rfl), bind_apply, optional_apply, readPair]
      rfl

end

end Grammar

namespace Language

open Grammar Rule

variable {language : Language} {text : String} {tokens : List Token}

/-- A text is read by a rule if its tokens are, to the end. -/
theorem parseBy_eq_ok_iff
    {α : Type}
    {rule : Rule α}
    {value : α}
    (lexes : language.tokens text = .ok tokens) :
    language.parseBy rule text = .ok value ↔
      rule tokens = some (value, []) := by
  rw [parseBy, lexes]
  simp only [Rule.whole?]
  cases found : rule tokens with
  | none => simp
  | some result =>
      obtain ⟨read, last⟩ := result
      cases last <;> simp

/-- What was read has been cut into tokens. -/
theorem exists_tokens_of_parseBy
    {α : Type}
    {rule : Rule α}
    {value : α}
    (read : language.parseBy rule text = .ok value) :
    ∃ tokens, language.tokens text = .ok tokens := by
  rw [parseBy] at read
  split at read
  · cases read
  · exact ⟨_, by assumption⟩

/-- A text is a formula when its tokens are a phrase for one, and is read as the
tree that attaches its substitutions innermost. -/
theorem parseFormula_eq_ok_iff
    {whole : Formula}
    (lexes : language.tokens text = .ok tokens) :
    language.parseFormula text = .ok whole ↔
      SentenceDerivation language.negationSymbol tokens whole ∧
        whole.AttachesInnermost := by
  rw [parseFormula, parseBy_eq_ok_iff lexes]
  constructor
  · intro read
    obtain ⟨used, split, derivation, innermost⟩ := read_outermost read
    rw [List.append_nil] at split
    subst split
    exact ⟨derivation, innermost⟩
  · rintro ⟨derivation, innermost⟩
    exact outermost_of_derivation derivation innermost

/-- A text is a term when its tokens are a phrase for one. -/
theorem parseTerm_eq_ok_iff
    {value : Term}
    (lexes : language.tokens text = .ok tokens) :
    language.parseTerm text = .ok value ↔ OperandDerivation tokens value := by
  rw [parseTerm, parseBy_eq_ok_iff lexes]
  constructor
  · intro read
    obtain ⟨used, split, derivation⟩ := reads_transformable reads_term read
    rw [List.append_nil] at split
    subst split
    exact derivation
  · intro derivation
    have read := transformable_append derivation [] rfl fun _ => rfl
    rwa [List.append_nil] at read

/-- What was read as a formula has a phrase of tokens of the language. -/
theorem exists_phrase_of_parseFormula
    {whole : Formula}
    (read : language.parseFormula text = .ok whole) :
    ∃ tokens, SentenceDerivation language.negationSymbol tokens whole ∧
      whole.AttachesInnermost ∧ ∀ token ∈ tokens, language.HasToken token := by
  obtain ⟨tokens, lexes⟩ := exists_tokens_of_parseBy read
  obtain ⟨derivation, innermost⟩ := (parseFormula_eq_ok_iff lexes).mp read
  exact ⟨tokens, derivation, innermost, fun _ member =>
    hasToken_of_mem_tokens lexes member⟩

/-- What was read as a term has a phrase of tokens of the language. -/
theorem exists_phrase_of_parseTerm
    {value : Term}
    (read : language.parseTerm text = .ok value) :
    ∃ tokens, OperandDerivation tokens value ∧
      ∀ token ∈ tokens, language.HasToken token := by
  obtain ⟨tokens, lexes⟩ := exists_tokens_of_parseBy read
  exact ⟨tokens, (parseTerm_eq_ok_iff lexes).mp read, fun _ member =>
    hasToken_of_mem_tokens lexes member⟩

/-- The ordered alternatives lose nothing of the grammar: exactly the derivable
texts are formulas or terms, each with the one tree that is meant. -/
theorem parse_eq_ok_iff_derivable
    (language : Language)
    (text : String)
    (tokens : List Token)
    (lexes : language.tokens text = .ok tokens) :
    ((∃ whole, language.parseFormula text = .ok whole) ↔
        ∃ whole, SentenceDerivation language.negationSymbol tokens whole) ∧
      (∀ whole, language.parseFormula text = .ok whole ↔
        SentenceDerivation language.negationSymbol tokens whole ∧
          whole.AttachesInnermost) ∧
      ∀ value, language.parseTerm text = .ok value ↔
        OperandDerivation tokens value := by
  refine ⟨⟨?_, ?_⟩, fun _ => parseFormula_eq_ok_iff lexes,
    fun _ => parseTerm_eq_ok_iff lexes⟩
  · rintro ⟨whole, read⟩
    exact ⟨whole, ((parseFormula_eq_ok_iff lexes).mp read).1⟩
  · rintro ⟨whole, derivation⟩
    obtain ⟨meant, derivation, innermost⟩ := derivation.exists_innermost
    exact ⟨meant, (parseFormula_eq_ok_iff lexes).mpr ⟨derivation, innermost⟩⟩

/-- In `~A[b/a]` the substitution is attached to the letter. -/
theorem parse_negated_substitution :
    predicate.tokens "~A[b/a]" =
        .ok [.negation ⟨"~", .connective⟩, .letter ⟨"A", .sentenceLetter⟩,
          .opening .square, .constant ⟨"b", .constant⟩, .slash,
          .constant ⟨"a", .constant⟩, .closing .square] ∧
      predicate.parseFormula "~A[b/a]" =
        .ok (.plain (.negation ⟨"~", .connective⟩
          (.transformed (.leaf .letter ⟨"A", .sentenceLetter⟩)
            ⟨.leaf .constant ⟨"a", .constant⟩,
              .leaf .constant ⟨"b", .constant⟩, false⟩))) := by
  have lexes : predicate.tokens "~A[b/a]" =
      .ok [.negation ⟨"~", .connective⟩, .letter ⟨"A", .sentenceLetter⟩,
        .opening .square, .constant ⟨"b", .constant⟩, .slash,
        .constant ⟨"a", .constant⟩, .closing .square] := by rfl
  refine ⟨lexes, ((parse_eq_ok_iff_derivable _ _ _ lexes).2.1 _).mpr
    ⟨.bracketed (.bare (.negation _ ?_)), ?_, trivial⟩⟩
  · exact .transformed (.leaf .letter _) (.inline .square (.leaf .constant _)
      (.leaf .constant _))
  · intro tail ends
    cases ends

end Language
end SymbolicLogic
