import SymbolicLogic.Expression.Equality
import SymbolicLogic.Proofs.Grammar.Sorts
import SymbolicLogic.Proofs.Rendering.Lexing

/-!
# Reading renderings

An expression that was read is written as a phrase for the same tree, so reading
the rendering gives the tree back. A text that is read as a term because it is no
formula is written as such a text again: only a metavariable for both sorts
stands for a formula and for a term.
-/

namespace SymbolicLogic

open Grammar

namespace Language

section

variable {language : Language} {text : String}
variable (valid : language.validate = .ok ())
variable (plain : language.IndexFree)
variable (square : Brackets.square ∈ language.brackets)

include valid plain square

/-- A text that lays tokens of the language out, with substitutions in square brackets,
has these tokens. -/
theorem tokens_of_squared
    {rendered : String}
    {tokens tokens' : List Token}
    (known : ∀ token ∈ tokens, language.HasToken token)
    (squared : Squared tokens tokens')
    (written : rendered.toList = tokens'.flatMap Token.layout)
    (nonempty : tokens' ≠ []) :
    language.tokens rendered = .ok tokens' := by
  have known' : ∀ token ∈ tokens', language.HasToken token :=
    squared.forall_mem (fun _ => hasBrackets_of_mem valid square) known
  exact (tokens_layout_iff valid written known' nonempty).mpr
    (isChain_apart plain known')

/-- A formula that has a phrase of tokens of the language is read from its
rendering. -/
theorem parseFormula_text_of_phrase
    {tokens : List Token}
    {whole : Formula}
    (derivation : SentenceDerivation language.negationSymbol tokens whole)
    (known : ∀ token ∈ tokens, language.HasToken token)
    (innermost : whole.AttachesInnermost) :
    language.parseFormula whole.text = .ok whole := by
  obtain ⟨tokens', phrase, squared, writes⟩ := rewritten_sentence derivation
  have lexes : language.tokens whole.text = .ok tokens' :=
    tokens_of_squared valid plain square known squared (writes 0) phrase.ne_nil
  exact (parseFormula_eq_ok_iff lexes).mpr ⟨phrase, innermost⟩

/-- The rendering of a formula that was read is read as the formula. -/
theorem parseFormula_text
    {whole : Formula}
    (read : language.parseFormula text = .ok whole) :
    language.parseFormula whole.text = .ok whole := by
  obtain ⟨tokens, derivation, innermost, known⟩ := exists_phrase_of_parseFormula read
  exact parseFormula_text_of_phrase valid plain square derivation known innermost

/-- The tokens of a term's rendering are a phrase for it. -/
theorem exists_tokens_text
    {value : Term}
    (read : language.parseTerm text = .ok value) :
    ∃ tokens, language.tokens value.text = .ok tokens ∧
      OperandDerivation tokens value := by
  obtain ⟨tokens, derivation, known⟩ := exists_phrase_of_parseTerm read
  obtain ⟨tokens', phrase, squared, writes⟩ := rewritten_operand derivation
  exact ⟨tokens', tokens_of_squared valid plain square known squared (writes 0)
    phrase.ne_nil, phrase⟩

/-- The rendering of a term that was read is read as the term. -/
theorem parseTerm_text
    {value : Term}
    (read : language.parseTerm text = .ok value) :
    language.parseTerm value.text = .ok value := by
  obtain ⟨tokens, lexes, phrase⟩ := exists_tokens_text valid plain square read
  exact (parseTerm_eq_ok_iff lexes).mpr phrase

/-- A term that was not read as a formula is not written as one. -/
theorem parseFormula_text_of_error
    {value : Term}
    {failure : ParseError}
    (notFormula : language.parseFormula text = .error failure)
    (read : language.parseTerm text = .ok value)
    (whole : Formula) :
    language.parseFormula value.text ≠ .ok whole := by
  intro readAgain
  obtain ⟨symbol, -, shape_eq, -⟩ :=
    anyMeta_of_both readAgain (parseTerm_text valid plain square read)
  obtain ⟨_, readFormula⟩ := exists_parseFormula_of_anyMeta read shape_eq
  rw [notFormula] at readFormula
  cases readFormula

/-- The rendering of an expression that was read is read as the expression. -/
theorem parseExpression_text
    {expression : Expression}
    (read : language.parseExpression text = .ok expression) :
    language.parseExpression expression.text = .ok expression := by
  rw [parseExpression] at read
  split at read
  · next whole found =>
      cases read
      have again := parseFormula_text valid plain square found
      change language.parseExpression whole.text = _
      rw [parseExpression, again]
  · next failure notFormula =>
      split at read
      · next value found =>
          cases read
          have again := parseTerm_text valid plain square found
          have notAgain :=
            parseFormula_text_of_error valid plain square notFormula found
          change language.parseExpression value.text = _
          rw [parseExpression]
          split
          · next whole foundAgain => exact absurd foundAgain (notAgain whole)
          · rw [again]
      · cases read

end

/-- Reading the rendering of what was read gives the same expression, which has
the same rendering. -/
theorem parse_rendering
    (language : Language)
    (valid : language.validate = .ok ())
    (plain : language.IndexFree)
    (square : Brackets.square ∈ language.brackets)
    (text : String) :
    (∀ whole, language.parseFormula text = .ok whole ->
        ∃ again, language.parseFormula whole.text = .ok again ∧
          again.same whole = true ∧ again.text = whole.text) ∧
      (∀ value, language.parseTerm text = .ok value ->
        ∃ again, language.parseTerm value.text = .ok again ∧
          again.same value = true ∧ again.text = value.text) ∧
      ∀ expression, language.parseExpression text = .ok expression ->
        ∃ again, language.parseExpression expression.text = .ok again ∧
          again.same expression = true ∧ again.text = expression.text := by
  refine ⟨fun whole read => ?_, fun value read => ?_, fun expression read => ?_⟩
  · exact ⟨whole, parseFormula_text valid plain square read, whole.same_refl,
      rfl⟩
  · exact ⟨value, parseTerm_text valid plain square read, value.same_refl, rfl⟩
  · exact ⟨expression, parseExpression_text valid plain square read,
      expression.same_refl, rfl⟩

/-- The substitution in `~A(b/a)` is written in square brackets, and the
rendering is read back. -/
theorem parse_rendering_substitution :
    predicate.validate = .ok () ∧ predicate.IndexFree ∧
      Brackets.square ∈ predicate.brackets ∧
      ∃ whole, predicate.parseFormula "~A(b/a)" = .ok whole ∧
        whole.text = "~A[b/a]" ∧
        ∃ again, predicate.parseFormula whole.text = .ok again ∧
          again.same whole = true ∧ again.text = whole.text := by
  have builtin : predicate ∈ Registry.builtin.languages := by decide
  have valid := validate_of_mem_builtin builtin
  have plain := indexFree_of_mem_builtin builtin
  have square : Brackets.square ∈ predicate.brackets := by decide
  have lexes : predicate.tokens "~A(b/a)" =
      .ok [.negation ⟨"~", .connective⟩, .letter ⟨"A", .sentenceLetter⟩,
        .opening .round, .constant ⟨"b", .constant⟩, .slash,
        .constant ⟨"a", .constant⟩, .closing .round] := by rfl
  have read : predicate.parseFormula "~A(b/a)" =
      .ok (.plain (.negation ⟨"~", .connective⟩
        (.transformed (.leaf .letter ⟨"A", .sentenceLetter⟩)
          ⟨.leaf .constant ⟨"a", .constant⟩, .leaf .constant ⟨"b", .constant⟩,
            false⟩))) := by
    refine (parseFormula_eq_ok_iff lexes).mpr
      ⟨.bracketed (.bare (.negation _ (.transformed (.leaf .letter _)
        (.inline .round (.leaf .constant _) (.leaf .constant _))))), ?_,
        trivial⟩
    intro tail ends
    cases ends
  exact ⟨valid, plain, square, _, read, by rfl,
    (parse_rendering predicate valid plain square "~A(b/a)").1 _ read⟩

end Language
end SymbolicLogic
