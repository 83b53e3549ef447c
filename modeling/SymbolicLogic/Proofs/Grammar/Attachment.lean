import SymbolicLogic.Proofs.Grammar.RoundTrip

/-!
# Reading an attached substitution back

A substitution that was attached to a formula is written behind it. When the
rendering is read, the substitution goes to the innermost formula that ends there
and does not carry one already. A binary formula is given brackets to keep the
substitution outside; a negation or a quantified formula is not, and loses it to its
operand or scope.
-/

namespace SymbolicLogic

open Grammar

/-- The shape as it is written where it may not stand without brackets. -/
def FormulaShape.bracketed : FormulaShape -> FormulaShape
  | .binary symbol connective left right none =>
      .binary symbol connective left right (some .round)
  | shape => shape

namespace FormulaShape

variable (shape : FormulaShape)

theorem pieces_bracketed (depth : Nat) :
    shape.bracketed.pieces depth false = shape.pieces depth false := by
  rcases shape with _ | _ | _ | _ | _ | ⟨_, _, _, _, _ | _⟩ | _ <;> rfl

theorem tail?_bracketed : shape.bracketed.tail? = shape.tail? := by
  rcases shape with _ | _ | _ | _ | _ | ⟨_, _, _, _, _ | _⟩ | _ <;> rfl

/-- Brackets do not tell formulas apart. -/
theorem same_bracketed : shape.bracketed.same shape = true := by
  rcases shape with _ | _ | _ | _ | _ | ⟨_, _, _, _, _ | _⟩ | _ <;>
    first
    | exact FormulaShape.same_refl _
    | simp [bracketed, FormulaShape.same]

end FormulaShape

namespace Grammar

variable {negationSymbol : Symbol} {tokens : List Token}

/-- A unit has its brackets already. -/
theorem UnitDerivation.bracketed_eq
    {shape : FormulaShape}
    (derivation : UnitDerivation negationSymbol tokens shape) :
    shape.bracketed = shape := by
  cases derivation <;> rfl

/-- Without its substitution and with its brackets, a formula has a phrase of tokens of
its own phrase and round brackets. -/
theorem SentenceDerivation.exists_unit
    {whole : Formula}
    (derivation : SentenceDerivation negationSymbol tokens whole)
    {holds : Token -> Prop}
    (known : ∀ token ∈ tokens, holds token)
    (round : holds (.opening .round) ∧ holds (.closing .round)) :
    ∃ unitTokens,
      UnitDerivation negationSymbol unitTokens whole.shape.bracketed ∧
        ∀ token ∈ unitTokens, holds token := by
  cases derivation with
  | bracketed only =>
      cases only with
      | bare carrier =>
          rw [Formula.shape, carrier.bracketed_eq]
          exact ⟨_, carrier, known⟩
      | transformed carrier pending =>
          rw [Formula.shape, carrier.bracketed_eq]
          exact ⟨_, carrier, (List.forall_mem_append.mp known).1⟩
  | binary symbol connective left right =>
      refine ⟨_, .binary symbol connective .round left right, ?_⟩
      simp only [List.forall_mem_cons, List.forall_mem_append] at known ⊢
      exact ⟨round.1, known.1, known.2.1, known.2.2, round.2, List.forall_mem_nil _⟩

theorem OperandDerivation.term
    {value : Term}
    (derivation : OperandDerivation tokens value)
    (bare : value.transform? = none) : TermDerivation tokens value := by
  cases derivation with
  | bare carrier => exact carrier
  | transformed => cases bare

end Grammar

theorem Formula.AttachesInnermost.bracketed
    {whole : Formula}
    (innermost : whole.AttachesInnermost) :
    whole.shape.bracketed.AttachesInnermost := by
  have shape : whole.shape.AttachesInnermost := by
    cases whole with
    | plain => exact innermost
    | transformed => exact innermost.2
  revert shape
  rcases whole.shape with _ | _ | _ | _ | _ | ⟨_, _, _, _, _ | _⟩ | _ <;> exact id

/-- Only where the formula at the end carries a substitution already is the new one read
on the whole. -/
theorem FormulaShape.same_attached_iff
    (shape : FormulaShape)
    (substitution : Transform) :
    (shape.bracketed.attached substitution).same
        (.transformed shape substitution) = true ↔
      ∀ tail, shape.tail? = some tail -> tail.transform?.isSome := by
  rw [← shape.tail?_bracketed]
  constructor
  · intro same tail ends
    by_contra bare
    have other := FormulaShape.transform?_attached substitution ends (by simpa using bare)
    cases attachedEq : shape.bracketed.attached substitution with
    | plain => rw [attachedEq] at same; cases same
    | transformed => rw [attachedEq] at other; cases other
  · intro carries
    rw [FormulaShape.attached_eq substitution carries]
    simp [Formula.same, shape.same_bracketed, Transform.same]

namespace Language

section

variable {language : Language} (valid : language.validate = .ok ())
  (square : Brackets.square ∈ language.brackets)
  {target replacement : Term} {targetText replacementText : String}

include valid square

/-- A substitution of terms that were read has a phrase. -/
theorem exists_substitution_phrase
    (readTarget : language.parseTerm targetText = .ok target)
    (readReplacement : language.parseTerm replacementText = .ok replacement)
    (bareTarget : target.transform? = none)
    (bareReplacement : replacement.transform? = none)
    (stacked : Bool) :
    ∃ tokens, TransformDerivation tokens ⟨target, replacement, stacked⟩ ∧
      ∀ token ∈ tokens, language.HasToken token := by
  obtain ⟨targetTokens, targetOperand, knownTarget⟩ :=
    exists_phrase_of_parseTerm readTarget
  obtain ⟨replacementTokens, replacementOperand, knownReplacement⟩ :=
    exists_phrase_of_parseTerm readReplacement
  have targetPhrase := targetOperand.term bareTarget
  have replacementPhrase := replacementOperand.term bareReplacement
  cases stacked with
  | true =>
      refine ⟨_, .stacked targetPhrase replacementPhrase, ?_⟩
      simp only [List.forall_mem_cons, List.forall_mem_append]
      exact ⟨hasToken_of_mark valid rfl, knownTarget, hasToken_of_mark valid rfl,
        knownReplacement⟩
  | false =>
      obtain ⟨opening, closing⟩ := hasBrackets_of_mem valid square
      refine ⟨_, .inline .square replacementPhrase targetPhrase, ?_⟩
      simp only [List.forall_mem_cons, List.forall_mem_append]
      exact ⟨opening, knownReplacement, hasToken_of_mark valid rfl, knownTarget,
        closing, List.forall_mem_nil _⟩

end

/-- A substitution that is attached to a formula that was read is read back. It is read
on the innermost formula that ends there and carries none, and so on the whole
formula just if the formula at the end of it carries one already. -/
theorem parseFormula_withTransform
    (language : Language)
    (valid : language.validate = .ok ())
    (plain : language.IndexFree)
    (round : Brackets.round ∈ language.brackets)
    (square : Brackets.square ∈ language.brackets)
    {text targetText replacementText : String}
    {whole : Formula}
    {target replacement : Term}
    (read : language.parseFormula text = .ok whole)
    (readTarget : language.parseTerm targetText = .ok target)
    (readReplacement : language.parseTerm replacementText = .ok replacement)
    (bareTarget : target.transform? = none)
    (bareReplacement : replacement.transform? = none)
    (stacked : Bool) :
    let substitution : Transform := ⟨target, replacement, stacked⟩
    let carrying := whole.withTransform substitution
    let again := whole.shape.bracketed.attached substitution
    language.parseFormula carrying.text = .ok again ∧
      (again.same carrying = true ↔
        ∀ tail, whole.shape.tail? = some tail -> tail.transform?.isSome) := by
  intro substitution carrying again
  refine ⟨?_, whole.shape.same_attached_iff substitution⟩
  obtain ⟨tokens, sentence, innermost, known⟩ := exists_phrase_of_parseFormula read
  obtain ⟨unitTokens, unit, knownUnit⟩ := sentence.exists_unit known
    (hasBrackets_of_mem valid round)
  obtain ⟨pendingTokens, pending, knownPending⟩ := exists_substitution_phrase valid
    square readTarget readReplacement bareTarget bareReplacement stacked
  obtain ⟨tokens', unit', squared, writes⟩ := rewritten_unit unit
  obtain ⟨pendingTokens', pending', squared', writes'⟩ := rewritten_transform pending
  have written : carrying.text.toList =
      (tokens' ++ pendingTokens').flatMap Token.layout := by
    have both : Writes (whole.shape.bracketed.pieces 0 false ++ substitution.pieces)
        (tokens' ++ pendingTokens') := (writes 0).append (writes' 0)
    rw [FormulaShape.pieces_bracketed] at both
    exact both
  have lexes' : language.tokens carrying.text = .ok (tokens' ++ pendingTokens') :=
    tokens_of_squared valid plain square
      (List.forall_mem_append.mpr ⟨knownUnit, knownPending⟩)
      (squared.append squared') written
      (SentenceDerivation.ne_nil (.bracketed (.transformed unit' pending')))
  obtain ⟨derivation, attached⟩ := unit'.attached innermost.bracketed pending'
  exact (parseFormula_eq_ok_iff lexes').mpr ⟨.bracketed derivation, attached⟩

/-- The formula `Fx`, for a letter `F`. -/
def letterOf (letter : String) (argument : Term) : Formula :=
  .plain (.relation ⟨letter, .relation⟩ [argument])

/-- Substituting `a` for `x` in `Fx ∧ Gx` is written `(Fx ∧ Gx)[a/x]` and read back. -/
theorem parseFormula_withTransform_conjunction :
    let x : Term := .leaf .objectVariable ⟨"x", .objectVariable⟩
    let a : Term := .leaf .constant ⟨"a", .constant⟩
    let whole : Formula := .plain (.binary ⟨"∧", .connective⟩ .conjunction
      (letterOf "F" x) (letterOf "G" x) none)
    let carrying := whole.withTransform ⟨x, a, false⟩
    predicate.parseFormula "Fx ∧ Gx" = .ok whole ∧
      carrying.text = "(Fx ∧ Gx)[a/x]" ∧
      ∃ again, predicate.parseFormula carrying.text = .ok again ∧
        again.same carrying = true := by
  intro x a whole carrying
  have builtin : predicate ∈ Registry.builtin.languages := by decide
  have lexes : predicate.tokens "Fx ∧ Gx" =
      .ok [.letter ⟨"F", .sentenceLetter⟩, .objectVariable ⟨"x", .objectVariable⟩,
        .connective ⟨"∧", .connective⟩ .conjunction, .letter ⟨"G", .sentenceLetter⟩,
        .objectVariable ⟨"x", .objectVariable⟩] := by rfl
  have variableRead : TermDerivation [.objectVariable ⟨"x", .objectVariable⟩] x :=
    .leaf .objectVariable _
  have read : predicate.parseFormula "Fx ∧ Gx" = .ok whole :=
    (parseFormula_eq_ok_iff lexes).mpr ⟨.binary _ _
      (.bare (.relation ⟨"F", .sentenceLetter⟩ (.cons variableRead .nil) nofun))
      (.bare (.relation ⟨"G", .sentenceLetter⟩ (.cons variableRead .nil) nofun)),
      trivial, trivial⟩
  have readTarget : predicate.parseTerm "x" = .ok x :=
    (parseTerm_eq_ok_iff (by rfl)).mpr (.bare variableRead)
  have readReplacement : predicate.parseTerm "a" = .ok a :=
    (parseTerm_eq_ok_iff (by rfl)).mpr (.bare (.leaf .constant _))
  obtain ⟨again, same⟩ := parseFormula_withTransform predicate
    (validate_of_mem_builtin builtin) (indexFree_of_mem_builtin builtin) (by decide)
    (by decide) read readTarget readReplacement rfl rfl false
  exact ⟨read, by rfl, _, again, same.mpr nofun⟩

/-- Substituting `a` for `x` in `~Fx` is written `~Fx[a/x]`, which is read as the
negation of a formula with a substitution. -/
theorem parseFormula_withTransform_negation :
    let x : Term := .leaf .objectVariable ⟨"x", .objectVariable⟩
    let a : Term := .leaf .constant ⟨"a", .constant⟩
    let whole : Formula := .plain (.negation ⟨"~", .connective⟩ (letterOf "F" x))
    let carrying := whole.withTransform ⟨x, a, false⟩
    predicate.parseFormula "~Fx" = .ok whole ∧
      carrying.text = "~Fx[a/x]" ∧
      ∃ again, predicate.parseFormula carrying.text = .ok again ∧
        again.same carrying = false := by
  intro x a whole carrying
  have variableRead : TermDerivation [.objectVariable ⟨"x", .objectVariable⟩] x :=
    .leaf .objectVariable _
  have args := Juxtaposed.cons variableRead .nil
  have relation : UnitDerivation predicate.negationSymbol
      [.letter ⟨"F", .sentenceLetter⟩, .objectVariable ⟨"x", .objectVariable⟩]
      (.relation ⟨"F", .relation⟩ [x]) :=
    .relation ⟨"F", .sentenceLetter⟩ args nofun
  have lexes : predicate.tokens "~Fx" =
      .ok [.negation ⟨"~", .connective⟩, .letter ⟨"F", .sentenceLetter⟩,
        .objectVariable ⟨"x", .objectVariable⟩] := by rfl
  have written : carrying.text = "~Fx[a/x]" := by rfl
  have lexes' : predicate.tokens "~Fx[a/x]" =
      .ok [.negation ⟨"~", .connective⟩, .letter ⟨"F", .sentenceLetter⟩,
        .objectVariable ⟨"x", .objectVariable⟩, .opening .square,
        .constant ⟨"a", .constant⟩, .slash, .objectVariable ⟨"x", .objectVariable⟩,
        .closing .square] := by rfl
  refine ⟨(parseFormula_eq_ok_iff lexes).mpr
      ⟨.bracketed (.bare (.negation _ (.bare relation))), trivial⟩, written,
    .plain (.negation ⟨"~", .connective⟩
      ((letterOf "F" x).withTransform ⟨x, a, false⟩)), ?_, rfl⟩
  rw [written]
  refine (parseFormula_eq_ok_iff lexes').mpr ⟨.bracketed (.bare (.negation _
    (.transformed relation (.inline .square (.leaf .constant _) variableRead)))),
      ?_, trivial⟩
  intro tail ends
  cases ends

end Language
end SymbolicLogic
