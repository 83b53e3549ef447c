import SymbolicLogic.Proofs.Grammar.Derivation
import SymbolicLogic.Proofs.Token.Spelling
import SymbolicLogic.Rendering.Expression

/-!
# Renderings write phrases

The pieces of an expression write the tokens of a phrase for it. These are the tokens
that the expression was read from, but for the brackets of substitutions: a
substitution is always written in square brackets, whatever brackets it was read in.
-/

namespace SymbolicLogic

open Grammar Rendering

/-- The second list of tokens is the first one with every inline substitution in
square brackets. -/
inductive Squared : List Token -> List Token -> Prop
  | nil : Squared [] []
  | token
      {token : Token}
      {tokens tokens' : List Token}
      (noSlash : token ≠ .slash)
      (others : Squared tokens tokens') :
      Squared (token :: tokens) (token :: tokens')
  | inline
      {replacementTokens replacementTokens' : List Token}
      {targetTokens targetTokens' rest rest' : List Token}
      {replacementTerm targetTerm : Term}
      (brackets : Brackets)
      (replacement : TermDerivation replacementTokens replacementTerm)
      (target : TermDerivation targetTokens targetTerm)
      (replacementSquared : Squared replacementTokens replacementTokens')
      (targetSquared : Squared targetTokens targetTokens')
      (others : Squared rest rest') :
      Squared
        (.opening brackets ::
          (replacementTokens ++ .slash ::
            (targetTokens ++ .closing brackets :: rest)))
        (.opening .square ::
          (replacementTokens' ++ .slash ::
            (targetTokens' ++ .closing .square :: rest')))

namespace Squared

variable {tokens tokens' others others' : List Token}

theorem append
    (squared : Squared tokens tokens')
    (squared' : Squared others others') :
    Squared (tokens ++ others) (tokens' ++ others') := by
  induction squared with
  | nil => exact squared'
  | token noSlash _ inductionHypothesis => exact .token noSlash inductionHypothesis
  | inline brackets replacement target first second _ _ _ inductionHypothesis =>
      simpa using .inline brackets replacement target first second
        inductionHypothesis

theorem single {token : Token} (noSlash : token ≠ .slash) :
    Squared [token] [token] :=
  .token noSlash .nil

theorem enclosed (squared : Squared tokens tokens') (brackets : Brackets) :
    Squared (.opening brackets :: (tokens ++ [.closing brackets]))
      (.opening brackets :: (tokens' ++ [.closing brackets])) :=
  .token nofun (squared.append (.single nofun))

/-- A token stands between two phrases. -/
theorem between
    {token : Token}
    (squared : Squared tokens tokens')
    (noSlash : token ≠ .slash)
    (squared' : Squared others others') :
    Squared (tokens ++ token :: others) (tokens' ++ token :: others') :=
  squared.append (.token noSlash squared')

/-- A property of the tokens holds of the new ones too, if it holds of square brackets
where there is a substitution. -/
theorem forall_mem
    {holds : Token -> Prop}
    (squared : Squared tokens tokens')
    (square : .slash ∈ tokens ->
      holds (.opening .square) ∧ holds (.closing .square))
    (kept : ∀ token ∈ tokens, holds token) : ∀ token ∈ tokens', holds token := by
  induction squared with
  | nil => exact kept
  | token noSlash _ inductionHypothesis =>
      obtain ⟨first, others⟩ := List.forall_mem_cons.mp kept
      exact List.forall_mem_cons.mpr ⟨first, inductionHypothesis
        (fun slash => square (List.mem_cons_of_mem _ slash)) others⟩
  | inline _ _ _ _ _ _ keptReplacement keptTarget keptOthers =>
      obtain ⟨opening, closing⟩ := square (by simp)
      simp only [List.forall_mem_cons, List.forall_mem_append] at kept ⊢
      obtain ⟨-, replacement, slash, target, -, others⟩ := kept
      exact ⟨opening, keptReplacement (fun _ => ⟨opening, closing⟩) replacement,
        slash, keptTarget (fun _ => ⟨opening, closing⟩) target, closing,
        keptOthers (fun _ => ⟨opening, closing⟩) others⟩

/-- A substitution is written in square brackets. -/
theorem opening_mem_of_slash_mem
    (squared : Squared tokens tokens')
    (slash : .slash ∈ tokens) : .opening .square ∈ tokens' := by
  induction squared with
  | nil => cases slash
  | token noSlash _ inductionHypothesis =>
      rcases List.mem_cons.mp slash with rfl | slash
      · exact absurd rfl noSlash
      · exact List.mem_cons_of_mem _ (inductionHypothesis slash)
  | inline => exact List.mem_cons_self

end Squared

/-- The text of the runs is the layout of the tokens. -/
def Writes (runs : List TextRun) (tokens : List Token) : Prop :=
  (TextRun.plainText runs).toList = tokens.flatMap Token.layout

/-- The pieces of the value write a phrase for it at every nesting depth, with the
same tokens but for the brackets of substitutions. -/
def Rewritten
    (phrase : List Token -> α -> Prop)
    (pieces : α -> Nat -> List TextRun)
    (tokens : List Token)
    (value : α) : Prop :=
  ∃ tokens', phrase tokens' value ∧ Squared tokens tokens' ∧
    ∀ depth, Writes (pieces value depth) tokens'

section

variable {runs runs' : List TextRun} {tokens tokens' : List Token} {token : Token}

theorem writes_nil : Writes [] [] :=
  rfl

/-- Runs that are put together write tokens that are put together. -/
theorem Writes.append
    (writes : Writes runs tokens)
    (writes' : Writes runs' tokens') :
    Writes (runs ++ runs') (tokens ++ tokens') := by
  unfold Writes at writes writes' ⊢
  rw [TextRun.plainText_append, String.toList_append, List.flatMap_append, writes,
    writes']

/-- Most tokens are written without blanks. -/
theorem writes_token
    {run : TextRun}
    (compact : token.blankBehind = false)
    (text_eq : run.text = token.text)
    (others : Writes runs tokens) :
    Writes (run :: runs) (token :: tokens) := by
  have before : token.blankBefore = false := by
    cases token <;> first | rfl | cases compact
  unfold Writes at others ⊢
  rw [TextRun.plainText_cons, String.toList_append, List.flatMap_cons, text_eq,
    others, Token.layout, before, compact]
  simp [Token.blank]

/-- A single run may hold the text of other runs. -/
theorem writes_text
    (style : Style)
    (writes : Writes runs tokens)
    (others : Writes runs' tokens') :
    Writes (⟨style, TextRun.plainText runs⟩ :: runs') (tokens ++ tokens') := by
  have together := writes.append others
  unfold Writes at together ⊢
  rw [TextRun.plainText_append] at together
  exact together

theorem writes_comma (others : Writes runs tokens) :
    Writes (punctuation ", " :: runs) (.comma :: tokens) := by
  unfold Writes at others ⊢
  rw [TextRun.plainText_cons, String.toList_append, List.flatMap_cons, others]
  rfl

theorem writes_divider (divider : Symbol) (others : Writes runs tokens) :
    Writes (Rendering.symbol .punctuation divider :: space :: runs)
      (.divider divider :: tokens) := by
  unfold Writes at others ⊢
  rw [TextRun.plainText_cons, TextRun.plainText_cons, String.toList_append,
    String.toList_append, List.flatMap_cons, others]
  simp [Token.layout, Token.blank, Token.blankBefore, Token.blankBehind, Token.text,
    Rendering.symbol, space]

theorem writes_enclosed
    (brackets : Brackets)
    (depth : Nat)
    (writes : Writes runs tokens) :
    Writes (enclosed brackets depth runs)
      (.opening brackets :: (tokens ++ [.closing brackets])) :=
  writes_token rfl rfl (writes.append (writes_token rfl rfl writes_nil))

theorem writes_spaced
    {operator : Symbol}
    (left : Writes runs tokens)
    (blanks : token.blankBefore = true)
    (text_eq : operator.text = token.text)
    (right : Writes runs' tokens') :
    Writes (spaced runs operator runs') (tokens ++ token :: tokens') := by
  have behind : token.blankBehind = true := by
    cases token <;> first | rfl | cases blanks
  have middle : Writes [space, Rendering.symbol .operator operator, space]
      [token] := by
    simp [Writes, Token.layout, Token.blank, blanks, behind, Rendering.symbol, space,
      text_eq]
  have whole := (left.append middle).append right
  rwa [List.append_assoc tokens] at whole

end

/-- The pieces of a list of terms with commas between them. -/
def Term.separatedPieces (values : List Term) (depth : Nat) : List TextRun :=
  separated (Term.piecesOfAll values depth)

theorem Term.pieces_withTransform
    {value : Term}
    (bare : value.transform? = none)
    (substitution : Transform)
    (depth : Nat) :
    (value.withTransform substitution).pieces depth =
      value.pieces depth ++ substitution.pieces := by
  cases value with
  | plain => rfl
  | transformed => cases bare

mutual

/-- The rendering of a term writes a phrase for it. -/
theorem rewritten_term
    {tokens : List Token}
    {value : Term}
    (derivation : TermDerivation tokens value) :
    Rewritten TermDerivation Term.pieces tokens value := by
  match derivation with
  | .leaf kind symbol =>
      refine ⟨_, .leaf kind symbol, .single ?_, fun _ => writes_token ?_ ?_ writes_nil⟩
      all_goals cases kind <;> first | rfl | exact nofun
  | .apply head symbol brackets args =>
      obtain ⟨inner, phrase, squared, writes⟩ := rewritten_arguments args
      refine ⟨_, .apply head symbol brackets phrase,
        .token ?_ (squared.enclosed brackets), fun depth =>
          writes_token ?_ ?_ (writes_enclosed brackets depth (writes (depth + 1)))⟩
      all_goals cases head <;> first | rfl | exact nofun
  | .operation symbol brackets left right =>
      obtain ⟨leftTokens, leftPhrase, leftSquared, writesLeft⟩ :=
        rewritten_operand left
      obtain ⟨rightTokens, rightPhrase, rightSquared, writesRight⟩ :=
        rewritten_operand right
      have squared := (leftSquared.between (nofun : Token.infixFunction symbol ≠ .slash)
        rightSquared).enclosed brackets
      have writes (depth : Nat) := writes_enclosed brackets depth
        (writes_spaced (writesLeft (depth + 1))
          (rfl : (Token.infixFunction symbol).blankBefore = true) rfl
          (writesRight (depth + 1)))
      simp only [List.append_assoc, List.cons_append] at squared writes
      exact ⟨_, .operation symbol brackets leftPhrase rightPhrase, squared, writes⟩

/-- The rendering of an operand writes a phrase for it. -/
theorem rewritten_operand
    {tokens : List Token}
    {value : Term}
    (derivation : OperandDerivation tokens value) :
    Rewritten OperandDerivation Term.pieces tokens value := by
  match derivation with
  | .bare carrier =>
      obtain ⟨tokens, phrase, squared, writes⟩ := rewritten_term carrier
      exact ⟨tokens, .bare phrase, squared, writes⟩
  | .transformed carrier pending =>
      obtain ⟨tokens, phrase, squared, writes⟩ := rewritten_term carrier
      obtain ⟨pendingTokens, pendingPhrase, pendingSquared, writesPending⟩ :=
        rewritten_transform pending
      refine ⟨_, .transformed phrase pendingPhrase, squared.append pendingSquared,
        fun depth => ?_⟩
      rw [Term.pieces_withTransform phrase.transform?_eq_none]
      exact (writes depth).append (writesPending depth)

theorem rewritten_arguments
    {tokens : List Token}
    {values : List Term}
    (derivation : ArgumentsDerivation tokens values) :
    Rewritten ArgumentsDerivation Term.separatedPieces tokens values := by
  match derivation with
  | .single only =>
      obtain ⟨tokens, phrase, squared, writes⟩ := rewritten_operand only
      refine ⟨tokens, .single phrase, squared, fun depth => ?_⟩
      simpa [Term.separatedPieces, Term.piecesOfAll, separated] using
        writes depth
  | .cons first others =>
      obtain ⟨tokens, phrase, squared, writes⟩ := rewritten_operand first
      obtain ⟨rest, phrases, squaredOthers, writesOthers⟩ :=
        rewritten_arguments others
      refine ⟨_, .cons phrase phrases, squared.between nofun squaredOthers,
        fun depth => ?_⟩
      cases others with
      | single | cons =>
          exact (writes depth).append (writes_comma (writesOthers depth))

/-- Whatever brackets a substitution was read in, it is written in square
ones. -/
theorem rewritten_transform
    {tokens : List Token}
    {substitution : Transform}
    (derivation : TransformDerivation tokens substitution) :
    Rewritten TransformDerivation (fun value _ => value.pieces) tokens
      substitution := by
  match derivation with
  | .inline brackets replacement target =>
      obtain ⟨replacementTokens, replacementPhrase, replacementSquared,
        writesReplacement⟩ := rewritten_term replacement
      obtain ⟨targetTokens, targetPhrase, targetSquared, writesTarget⟩ :=
        rewritten_term target
      exact ⟨_, .inline .square replacementPhrase targetPhrase,
        .inline brackets replacement target replacementSquared targetSquared .nil,
        fun _ => writes_token rfl rfl (writes_text _ (writesReplacement 0)
          (writes_token rfl rfl (writes_text _ (writesTarget 0)
            (writes_token rfl rfl writes_nil))))⟩
  | .stacked target replacement =>
      obtain ⟨targetTokens, targetPhrase, targetSquared, writesTarget⟩ :=
        rewritten_term target
      obtain ⟨replacementTokens, replacementPhrase, replacementSquared,
        writesReplacement⟩ := rewritten_term replacement
      have writes := writes_text .subscript (writesReplacement 0) writes_nil
      rw [List.append_nil] at writes
      exact ⟨_, .stacked targetPhrase replacementPhrase,
        .token nofun (targetSquared.between nofun replacementSquared),
        fun _ => writes_token rfl rfl (writes_text _ (writesTarget 0)
          (writes_token rfl rfl writes))⟩

end

/-- Terms one after the other are rewritten one after the other. -/
theorem rewritten_juxtaposed
    {tokens : List Token}
    {values : List Term}
    (derivations : Juxtaposed TermDerivation tokens values) :
    Rewritten (Juxtaposed TermDerivation)
      (fun values depth => (Term.piecesOfAll values depth).flatten) tokens
      values := by
  induction derivations with
  | nil => exact ⟨[], .nil, .nil, fun _ => writes_nil⟩
  | cons first _ inductionHypothesis =>
      obtain ⟨tokens, phrase, squared, writes⟩ := rewritten_term first
      obtain ⟨rest, phrases, squaredOthers, writesOthers⟩ := inductionHypothesis
      exact ⟨_, .cons phrase phrases, squared.append squaredOthers, fun depth =>
        (writes depth).append (writesOthers depth)⟩

theorem rewritten_separated
    {tokens : List Token}
    {values : List Term}
    (derivations : Separated TermDerivation tokens values) :
    Rewritten (Separated TermDerivation) Term.separatedPieces tokens values := by
  induction derivations with
  | single only =>
      obtain ⟨tokens, phrase, squared, writes⟩ := rewritten_term only
      refine ⟨tokens, .single phrase, squared, fun depth => ?_⟩
      simpa [Term.separatedPieces, Term.piecesOfAll, separated] using
        writes depth
  | cons first others inductionHypothesis =>
      obtain ⟨tokens, phrase, squared, writes⟩ := rewritten_term first
      obtain ⟨rest, phrases, squaredOthers, writesOthers⟩ := inductionHypothesis
      refine ⟨_, .cons phrase phrases, squared.between nofun squaredOthers,
        fun depth => ?_⟩
      cases others with
      | single | cons =>
          exact (writes depth).append (writes_comma (writesOthers depth))

/-- The token of a bound variable is written as it was read. -/
theorem rewritten_boundVariable
    {token : Token}
    {boundVariable : Term}
    (binds : BoundVariable token boundVariable) :
    Squared [token] [token] ∧
      ∀ depth, Writes (boundVariable.pieces depth) [token] := by
  cases binds <;>
    exact ⟨.single nofun, fun _ => writes_token rfl rfl writes_nil⟩

/-- A formula that is no comparison under its complement glyph is shown behind
the negation glyph. -/
theorem Grammar.FormulaDerivation.complementPieces?_eq_none
    {negationSymbol : Symbol}
    {tokens : List Token}
    {operand : Formula}
    (derivation : FormulaDerivation negationSymbol tokens operand) :
    operand.complementPieces? = none := by
  cases derivation with
  | bare carrier => cases carrier <;> rfl
  | transformed => rfl

/-- A formula with all its brackets is written alike at the root and below. -/
theorem Grammar.FormulaDerivation.pieces_root
    {negationSymbol : Symbol}
    {tokens : List Token}
    {whole : Formula}
    (derivation : FormulaDerivation negationSymbol tokens whole)
    (depth : Nat) :
    whole.pieces depth true = whole.pieces depth false := by
  cases derivation with
  | bare carrier => cases carrier <;> rfl
  | transformed => rfl

section

variable {negationSymbol : Symbol}

mutual

/-- The rendering of a unit writes a phrase for it. -/
theorem rewritten_unit
    {tokens : List Token}
    {shape : FormulaShape}
    (derivation : UnitDerivation negationSymbol tokens shape) :
    Rewritten (UnitDerivation negationSymbol)
      (fun shape depth => shape.pieces depth false) tokens shape := by
  match derivation with
  | .leaf kind symbol =>
      refine ⟨_, .leaf kind symbol, .single ?_, fun _ => writes_token ?_ ?_ writes_nil⟩
      all_goals cases kind <;> first | rfl | exact nofun
  | .relation symbol args nonempty =>
      obtain ⟨tokens, phrases, squared, writes⟩ := rewritten_juxtaposed args
      exact ⟨_, .relation symbol phrases nonempty, .token nofun squared,
        fun depth => writes_token rfl rfl (writes depth)⟩
  | .comparison symbol left right =>
      obtain ⟨leftTokens, leftPhrase, leftSquared, writesLeft⟩ := rewritten_term left
      obtain ⟨rightTokens, rightPhrase, rightSquared, writesRight⟩ :=
        rewritten_term right
      exact ⟨_, .comparison symbol leftPhrase rightPhrase,
        leftSquared.between nofun rightSquared, fun depth =>
          writes_spaced (writesLeft depth) rfl rfl (writesRight depth)⟩
  | .complemented relation complement left right =>
      obtain ⟨leftTokens, leftPhrase, leftSquared, writesLeft⟩ := rewritten_term left
      obtain ⟨rightTokens, rightPhrase, rightSquared, writesRight⟩ :=
        rewritten_term right
      exact ⟨_, .complemented relation complement leftPhrase rightPhrase,
        leftSquared.between nofun rightSquared, fun _ =>
          writes_spaced (writesLeft 0) rfl rfl (writesRight 0)⟩
  | .complexMeta symbol brackets params =>
      obtain ⟨inner, phrases, squared, writes⟩ := rewritten_separated params
      exact ⟨_, .complexMeta symbol brackets phrases,
        .token nofun (squared.enclosed brackets), fun depth =>
          writes_token rfl rfl (writes_enclosed brackets depth (writes (depth + 1)))⟩
  | .negation symbol operand =>
      obtain ⟨tokens, phrase, squared, writes⟩ := rewritten_formula operand
      refine ⟨_, .negation symbol phrase, .token nofun squared, fun depth => ?_⟩
      simp only [FormulaShape.pieces, phrase.complementPieces?_eq_none]
      exact writes_token rfl rfl (writes depth)
  | .binary symbol kind brackets left right =>
      obtain ⟨leftTokens, leftPhrase, leftSquared, writesLeft⟩ :=
        rewritten_formula left
      obtain ⟨rightTokens, rightPhrase, rightSquared, writesRight⟩ :=
        rewritten_formula right
      have squared := (leftSquared.between (nofun : Token.connective symbol kind ≠ .slash)
        rightSquared).enclosed brackets
      have writes (depth : Nat) := writes_enclosed brackets depth
        (writes_spaced (writesLeft (depth + 1))
          (rfl : (Token.connective symbol kind).blankBefore = true) rfl
          (writesRight (depth + 1)))
      simp only [List.append_assoc, List.cons_append] at squared writes
      exact ⟨_, .binary symbol kind brackets leftPhrase rightPhrase, squared, writes⟩
  | .quantified quantifiers scope =>
      obtain ⟨prefixTokens, prefixPhrase, prefixSquared, writesPrefix⟩ :=
        rewritten_prefix quantifiers
      obtain ⟨tokens, phrase, squared, writes⟩ := rewritten_formula scope
      exact ⟨_, .quantified prefixPhrase phrase, prefixSquared.append squared,
        fun depth => (writesPrefix depth).append (writes depth)⟩

/-- The pieces of a formula write a phrase for it. -/
theorem rewritten_formula
    {tokens : List Token}
    {whole : Formula}
    (derivation : FormulaDerivation negationSymbol tokens whole) :
    Rewritten (FormulaDerivation negationSymbol)
      (fun whole depth => whole.pieces depth false) tokens whole := by
  match derivation with
  | .bare carrier =>
      obtain ⟨tokens, phrase, squared, writes⟩ := rewritten_unit carrier
      exact ⟨tokens, .bare phrase, squared, writes⟩
  | .transformed carrier pending =>
      obtain ⟨tokens, phrase, squared, writes⟩ := rewritten_unit carrier
      obtain ⟨pendingTokens, pendingPhrase, pendingSquared, writesPending⟩ :=
        rewritten_transform pending
      exact ⟨_, .transformed phrase pendingPhrase, squared.append pendingSquared,
        fun depth => (writes depth).append (writesPending depth)⟩

/-- The rendering of a quantifier prefix writes a phrase for it. -/
theorem rewritten_prefix
    {tokens : List Token}
    {symbol : Symbol}
    {kind : Quantifier}
    {boundVariable : Term}
    {restriction : Restriction}
    (derivation : PrefixDerivation negationSymbol tokens symbol kind
      boundVariable restriction) :
    Rewritten
      (fun tokens restriction => PrefixDerivation negationSymbol tokens symbol
        kind boundVariable restriction)
      (fun restriction depth => restriction.pieces depth
        (Rendering.symbol .operator symbol :: boundVariable.pieces depth))
      tokens restriction := by
  match derivation with
  | .unrestricted symbol kind binds =>
      obtain ⟨squared, writes⟩ := rewritten_boundVariable binds
      exact ⟨_, .unrestricted symbol kind binds, .token nofun squared, fun depth =>
        writes_token rfl rfl (writes depth)⟩
  | .bounded symbol kind binds relation brackets bound =>
      obtain ⟨squaredVariable, writesVariable⟩ := rewritten_boundVariable binds
      obtain ⟨tokens, phrase, squared, writes⟩ := rewritten_term bound
      have quantifier (depth : Nat) := writes_token
        (rfl : (Token.quantifier symbol kind).blankBehind = false)
        (rfl : (Rendering.symbol .operator symbol).text = _) (writesVariable depth)
      exact ⟨_, .bounded symbol kind binds relation brackets phrase,
        .token nofun (.token nofun (squaredVariable.append
          (.token nofun (squared.append (.single nofun))))), fun depth =>
          writes_enclosed brackets depth
            (writes_spaced (quantifier depth) rfl rfl (writes (depth + 1)))⟩
  | .restricted symbol kind binds divider brackets body =>
      obtain ⟨squaredVariable, writesVariable⟩ := rewritten_boundVariable binds
      obtain ⟨tokens, phrase, squared, writes⟩ := rewritten_formula body
      have quantifier (depth : Nat) := writes_token
        (rfl : (Token.quantifier symbol kind).blankBehind = false)
        (rfl : (Rendering.symbol .operator symbol).text = _) (writesVariable depth)
      refine ⟨_, .restricted symbol kind binds divider brackets phrase,
        .token nofun (.token nofun (squaredVariable.append
          (.token nofun (squared.append (.single nofun))))), fun depth => ?_⟩
      have inside := writes_enclosed brackets depth
        ((quantifier depth).append (writes_divider divider (writes (depth + 1))))
      simp only [Restriction.pieces, List.append_assoc]
      exact inside

end

/-- The pieces of a formula write a phrase for it, with an outermost binary
formula as it was read. -/
theorem rewritten_sentence
    {tokens : List Token}
    {whole : Formula}
    (derivation : SentenceDerivation negationSymbol tokens whole) :
    Rewritten (SentenceDerivation negationSymbol)
      (fun whole depth => whole.pieces depth true) tokens whole := by
  cases derivation with
  | bracketed only =>
      obtain ⟨tokens, phrase, squared, writes⟩ := rewritten_formula only
      refine ⟨tokens, .bracketed phrase, squared, fun depth => ?_⟩
      simp only [phrase.pieces_root]
      exact writes depth
  | binary symbol kind left right =>
      obtain ⟨leftTokens, leftPhrase, leftSquared, writesLeft⟩ :=
        rewritten_formula left
      obtain ⟨rightTokens, rightPhrase, rightSquared, writesRight⟩ :=
        rewritten_formula right
      exact ⟨_, .binary symbol kind leftPhrase rightPhrase,
        leftSquared.between nofun rightSquared, fun depth =>
          writes_spaced (writesLeft depth) rfl rfl (writesRight depth)⟩

end

end SymbolicLogic
