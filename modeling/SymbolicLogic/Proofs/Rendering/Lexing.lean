import SymbolicLogic.Proofs.Grammar.Exactness
import SymbolicLogic.Proofs.Rendering.Writing

/-!
# The tokens of renderings

The rendering of what was read from a text is the layout of the tokens of the text,
with substitutions in square brackets. So a valid language may be unable to read what
it writes in two ways only: it has no square brackets for a substitution, or a glyph
that is an index character is taken up by the token in front of it.
-/

namespace SymbolicLogic

namespace Grammar

variable {negationSymbol : Symbol} {tokens : List Token}
variable {whole : Formula} {value : Term}

theorem SentenceDerivation.ne_nil
    (derivation : SentenceDerivation negationSymbol tokens whole) :
    tokens ≠ [] := by
  cases derivation with
  | bracketed only =>
      obtain ⟨token, last, rfl, -⟩ := only.begins
      exact List.cons_ne_nil _ _
  | binary symbol kind left right => simp

theorem OperandDerivation.ne_nil
    (derivation : OperandDerivation tokens value) : tokens ≠ [] := by
  cases derivation with
  | bare carrier | transformed carrier =>
      obtain ⟨token, last, rfl, -⟩ := carrier.begins
      exact List.cons_ne_nil _ _

end Grammar

open Grammar

namespace Language

variable {language : Language} {text rendered : String}
  {tokens tokens' : List Token}

theorem mem_brackets_of_hasToken
    {brackets : Brackets}
    (known : language.HasToken (.opening brackets)) :
    brackets ∈ language.brackets := by
  obtain ⟨lexeme, -, found⟩ := known
  exact mem_brackets_of_classify found

/-- The tokens of one text that are laid out in another, with substitutions in square
brackets, are the tokens of the other if the language has square brackets where they
are needed and every token is apart from the one in front of it. -/
theorem tokens_squared_iff
    (valid : language.validate = .ok ())
    (lexes : language.tokens text = .ok tokens)
    (squared : Squared tokens tokens')
    (written : rendered.toList = tokens'.flatMap Token.layout)
    (nonempty : tokens' ≠ []) :
    language.tokens rendered = .ok tokens' ↔
      (.slash ∈ tokens -> Brackets.square ∈ language.brackets) ∧
        tokens'.IsChain Token.Apart := by
  constructor
  · intro lexes'
    have known : ∀ token ∈ tokens', language.HasToken token :=
      fun _ member => hasToken_of_mem_tokens lexes' member
    exact ⟨fun slash => mem_brackets_of_hasToken
        (known _ (squared.opening_mem_of_slash_mem slash)),
      (tokens_layout_iff valid written known nonempty).mp lexes'⟩
  · rintro ⟨square, chain⟩
    have known : ∀ token ∈ tokens', language.HasToken token :=
      squared.forall_mem (fun slash => hasBrackets_of_mem valid (square slash))
        fun _ member => hasToken_of_mem_tokens lexes member
    exact (tokens_layout_iff valid written known nonempty).mpr chain

/-- The rendering lays the tokens of the text out again, with substitutions in square
brackets, and they are the tokens of the rendering too, provided that there are square
brackets for the substitutions and that no token is taken for a part of the one in
front of it. -/
def LaysOut (language : Language) (text rendered : String) : Prop :=
  ∃ tokens tokens',
    language.tokens text = .ok tokens ∧
    Squared tokens tokens' ∧
    rendered.toList = tokens'.flatMap Token.layout ∧
    (language.tokens rendered = .ok tokens' ↔
      (.slash ∈ tokens -> Brackets.square ∈ language.brackets) ∧
        tokens'.IsChain Token.Apart)

/-- What a valid language reads is rendered with the tokens that it was read from. -/
theorem rendering_laysOut
    (language : Language)
    (valid : language.validate = .ok ())
    (text : String) :
    (∀ whole, language.parseFormula text = .ok whole ->
        language.LaysOut text whole.text) ∧
      ∀ value, language.parseTerm text = .ok value ->
        language.LaysOut text value.text := by
  constructor
  · intro whole read
    obtain ⟨tokens, lexes⟩ := exists_tokens_of_parseBy read
    obtain ⟨derivation, -⟩ := (parseFormula_eq_ok_iff lexes).mp read
    obtain ⟨tokens', phrase, squared, writes⟩ := rewritten_sentence derivation
    exact ⟨tokens, tokens', lexes, squared, writes 0,
      tokens_squared_iff valid lexes squared (writes 0) phrase.ne_nil⟩
  · intro value read
    obtain ⟨tokens, lexes⟩ := exists_tokens_of_parseBy read
    have derivation := (parseTerm_eq_ok_iff lexes).mp read
    obtain ⟨tokens', phrase, squared, writes⟩ := rewritten_operand derivation
    exact ⟨tokens, tokens', lexes, squared, writes 0,
      tokens_squared_iff valid lexes squared (writes 0) phrase.ne_nil⟩

/-- The tokens of `P(b/a)`. -/
def substitutionTokens (brackets : Brackets) : List Token :=
  [.letter ⟨"P", .sentenceLetter⟩, .opening brackets, .constant ⟨"b", .constant⟩,
    .slash, .constant ⟨"a", .constant⟩, .closing brackets]

/-- A letter with a pending substitution of `b` for `a`. -/
def substitutionFormula : Formula :=
  .transformed (.leaf .letter ⟨"P", .sentenceLetter⟩)
    ⟨.leaf .constant ⟨"a", .constant⟩, .leaf .constant ⟨"b", .constant⟩, false⟩

theorem parseFormula_substitution
    {language : Language}
    (lexes : language.tokens "P(b/a)" = .ok (substitutionTokens .round)) :
    language.parseFormula "P(b/a)" = .ok substitutionFormula := by
  refine (parseFormula_eq_ok_iff lexes).mpr
    ⟨.bracketed (.transformed (.leaf .letter _)
      (.inline .round (.leaf .constant _) (.leaf .constant _))), ?_, trivial⟩
  intro tail ends
  cases ends

/-- `P(b/a)` is rendered as `P[b/a]`, which has the same tokens. -/
theorem rendering_laysOut_substitution :
    predicate.validate = .ok () ∧
      predicate.parseFormula "P(b/a)" = .ok substitutionFormula ∧
      predicate.LaysOut "P(b/a)" "P[b/a]" := by
  have valid := validate_of_mem_builtin
    (by decide : predicate ∈ Registry.builtin.languages)
  have read := parseFormula_substitution
    (by rfl : predicate.tokens "P(b/a)" = .ok (substitutionTokens .round))
  exact ⟨valid, read, (rendering_laysOut predicate valid "P(b/a)").1 _ read⟩

/-- A language without square brackets cannot read how it writes `P(b/a)`. -/
theorem rendering_without_square_brackets :
    let language : Language := { predicate with brackets := [.round] }
    language.validate = .ok () ∧
      language.parseFormula "P(b/a)" = .ok substitutionFormula ∧
      language.tokens substitutionFormula.text =
        .error (.unrecognized "[" "Predicate") := by
  intro language
  have valid : language.validate = .ok () := by
    rw [validate_eq_ok_iff]
    decide +kernel
  have read := parseFormula_substitution
    (by rfl : language.tokens "P(b/a)" = .ok (substitutionTokens .round))
  exact ⟨valid, read, by rfl⟩

end Language
end SymbolicLogic
