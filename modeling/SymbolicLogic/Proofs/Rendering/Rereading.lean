import SymbolicLogic.Proofs.Grammar.RoundTrip
import SymbolicLogic.Proofs.Grammar.Writable

/-!
# Reading what was put together

A tree that was put together from parts of other trees may be one that no text is read
as: a comparison keeps a complement glyph where it is not shown, a negation that is
shown by a complement glyph has another symbol, and a binary formula below the root
has no brackets. Its rendering is a text all the same, and is read as a tree without
these traces. The two trees are the same if no symbol of a negation was lost.
-/

namespace SymbolicLogic

open Grammar

/-! ## The tree that the rendering is read as -/

mutual

/-- The formula as it is written where it may not stand without brackets. A negation
that is shown by a complement glyph is one by the symbol `negation`. -/
def Formula.asWritten (formula : Formula) (negation : Symbol) : Formula :=
  match formula with
  | .plain shape => .plain (shape.asWritten negation)
  | .transformed shape transform =>
      .transformed (shape.asWritten negation) transform
termination_by structural formula

def FormulaShape.asWritten (shape : FormulaShape) (negation : Symbol) : FormulaShape :=
  match shape with
  | .comparison symbol left right _ => .comparison symbol left right none
  | .negation symbol operand =>
      if operand.complementPieces?.isSome then .negation negation operand
      else .negation symbol (operand.asWritten negation)
  | .binary symbol connective left right brackets =>
      .binary symbol connective (left.asWritten negation)
        (right.asWritten negation) (some (brackets.getD .round))
  | .quantified symbol quantifier boundVariable restriction scope =>
      .quantified symbol quantifier boundVariable
        (restriction.asWritten negation) (scope.asWritten negation)
  | .leaf kind symbol => .leaf kind symbol
  | .relation symbol args => .relation symbol args
  | .complexMeta symbol params brackets => .complexMeta symbol params brackets
termination_by structural shape

def Restriction.asWritten (restriction : Restriction) (negation : Symbol) : Restriction :=
  match restriction with
  | .unrestricted => .unrestricted
  | .bounded relation bound brackets => .bounded relation bound brackets
  | .restricted divider formula brackets =>
      .restricted divider (formula.asWritten negation) brackets
termination_by structural restriction

end

/-- The formula as it is written at the root, where a binary formula may stand without
brackets. -/
def Formula.asWrittenWhole (formula : Formula) (negation : Symbol) : Formula :=
  match formula with
  | .plain (.binary symbol connective left right none) =>
      .plain (.binary symbol connective (left.asWritten negation)
        (right.asWritten negation) none)
  | formula => formula.asWritten negation

/-- What is shown under a negation by a complement glyph is a comparison. -/
theorem Formula.exists_comparison_of_shown
    (formula : Formula)
    (shown : formula.complementPieces?.isSome) :
    ∃ relation left right complement,
      formula = .plain (.comparison relation left right (some complement)) := by
  unfold complementPieces? at shown
  split at shown
  · exact ⟨_, _, _, _, rfl⟩
  · cases shown

/-- A comparison under its complement glyph stands under a negation only. -/
theorem Formula.complementPieces?_asWritten (formula : Formula) (negation : Symbol) :
    (formula.asWritten negation).complementPieces? = none := by
  match formula with
  | .transformed .. => rfl
  | .plain shape =>
      cases shape with
      | negation symbol operand =>
          rw [Formula.asWritten, FormulaShape.asWritten]
          split <;> rfl
      | leaf | relation | comparison | complexMeta | binary | quantified => rfl

section Pieces

variable (negation : Symbol)

mutual

/-- The tree that is read has the same rendering. -/
theorem Formula.pieces_asWritten (formula : Formula) (depth : Nat) :
    (formula.asWritten negation).pieces depth false = formula.pieces depth false := by
  match formula with
  | .plain shape => exact FormulaShape.pieces_asWritten shape depth
  | .transformed shape transform =>
      exact congrArg (· ++ transform.pieces) (FormulaShape.pieces_asWritten shape depth)

theorem FormulaShape.pieces_asWritten (shape : FormulaShape) (depth : Nat) :
    (shape.asWritten negation).pieces depth false = shape.pieces depth false := by
  match shape with
  | .leaf .. | .relation .. | .comparison .. | .complexMeta .. => rfl
  | .negation symbol operand =>
      rw [FormulaShape.asWritten]
      split
      · next shown =>
          obtain ⟨pieces, shown⟩ := Option.isSome_iff_exists.mp shown
          simp only [FormulaShape.pieces, shown]
      · next hidden =>
          have hidden : operand.complementPieces? = none := by simpa using hidden
          simp only [FormulaShape.pieces, hidden, operand.complementPieces?_asWritten,
            Formula.pieces_asWritten operand depth]
  | .binary symbol connective left right brackets =>
      have lefts := Formula.pieces_asWritten left (depth + 1)
      have rights := Formula.pieces_asWritten right (depth + 1)
      cases brackets <;>
        simp [FormulaShape.asWritten, FormulaShape.pieces, lefts, rights]
  | .quantified symbol quantifier boundVariable restriction scope =>
      simp only [FormulaShape.asWritten, FormulaShape.pieces,
        Restriction.pieces_asWritten restriction depth,
        Formula.pieces_asWritten scope depth]

theorem Restriction.pieces_asWritten
    (restriction : Restriction)
    (depth : Nat)
    (quantifier : List TextRun) :
    (restriction.asWritten negation).pieces depth quantifier =
      restriction.pieces depth quantifier := by
  match restriction with
  | .unrestricted | .bounded .. => rfl
  | .restricted divider formula brackets =>
      simp only [Restriction.asWritten, Restriction.pieces,
        Formula.pieces_asWritten formula (depth + 1)]

end

/-- A formula with all its brackets is written alike at the root and below. -/
theorem Formula.pieces_asWritten_root (formula : Formula) (depth : Nat) :
    (formula.asWritten negation).pieces depth true =
      (formula.asWritten negation).pieces depth false := by
  match formula with
  | .transformed .. => rfl
  | .plain shape =>
      cases shape with
      | negation symbol operand =>
          rw [Formula.asWritten, FormulaShape.asWritten]
          split <;> rfl
      | leaf | relation | comparison | complexMeta | binary | quantified => rfl

/-- The two trees have the same rendering. -/
theorem Formula.text_asWrittenWhole (formula : Formula) :
    (formula.asWrittenWhole negation).text = formula.text := by
  rw [Formula.text, Formula.text]
  congr 1
  match formula with
  | .transformed shape transform =>
      exact (Formula.pieces_asWritten_root negation (.transformed shape transform) 0).trans
        (Formula.pieces_asWritten negation (.transformed shape transform) 0)
  | .plain (.binary symbol connective left right none) =>
      simp only [asWrittenWhole, Formula.pieces, FormulaShape.pieces,
        Formula.pieces_asWritten, if_true]
  | .plain (.leaf ..) | .plain (.relation ..) | .plain (.comparison ..)
  | .plain (.complexMeta ..) | .plain (.negation ..)
  | .plain (.binary _ _ _ _ (some _)) | .plain (.quantified ..) =>
      exact (Formula.pieces_asWritten_root negation _ 0).trans
        (Formula.pieces_asWritten negation _ 0)

end Pieces

/-! ## What is lost -/

/-- A negation that is shown by a complement glyph is one by the given symbol. -/
def FormulaShape.ComplementsBy (shape : FormulaShape) (negation : Symbol) : Prop :=
  match shape with
  | .negation symbol operand =>
      operand.complementPieces?.isSome -> negation.same symbol = true
  | _ => True

def Expression.ComplementsBy (expression : Expression) (negation : Symbol) : Prop :=
  match expression with
  | .formula f => f.shape.ComplementsBy negation
  | .term _ => True

section Same

variable (negation : Symbol)

/-- There is no negation in a term. -/
theorem Term.complementsBy (term : Term) :
    (Expression.term term).Everywhere fun node => node.ComplementsBy negation := by
  have everywhere (expression : Expression) : expression.isSentence = false ->
      expression.Everywhere fun node => node.ComplementsBy negation := by
    induction expression using Expression.nodeInduction with
    | plain expression _ inductionHypothesis =>
        intro isTerm
        cases expression with
        | formula => cases isTerm
        | term t =>
            exact .of_parts trivial fun part member =>
              inductionHypothesis part member (by
                obtain ⟨_, -, rfl⟩ := List.mem_map.mp member; rfl)
    | transformed expression _ _ carrier =>
        intro isTerm
        cases expression with
        | formula => cases isTerm
        | term t => exact .of_parts trivial (carrier rfl).parts
  exact everywhere (.term term) rfl

/-- A comparison that is shown under its complement glyph holds no negation. -/
theorem Formula.complementsBy_of_shown
    (formula : Formula)
    (shown : formula.complementPieces?.isSome) :
    (Expression.formula formula).Everywhere fun node =>
      node.ComplementsBy negation := by
  have terms := Term.complementsBy negation
  obtain ⟨_, _, _, _, rfl⟩ := formula.exists_comparison_of_shown shown
  exact .of_parts trivial (List.forall_mem_cons.mpr
    ⟨terms _, List.forall_mem_singleton.mpr (terms _)⟩)

mutual

/-- It is the same formula exactly if every complement stands for the negation of the
language. -/
theorem Formula.same_asWritten_iff (formula : Formula) :
    (formula.asWritten negation).same formula = true ↔
      (Expression.formula formula).Everywhere fun node =>
        node.ComplementsBy negation := by
  match formula with
  | .plain shape => exact FormulaShape.same_asWritten_iff shape
  | .transformed shape transform =>
      rw [Formula.asWritten, Formula.same, Transform.same]
      simp only [Term.same_refl, Bool.and_true]
      rw [FormulaShape.same_asWritten_iff shape, Expression.Everywhere.iff_parts,
        Expression.Everywhere.iff_parts]
      exact Iff.rfl

theorem FormulaShape.same_asWritten_iff (shape : FormulaShape) :
    (shape.asWritten negation).same shape = true ↔
      (Expression.formula (.plain shape)).Everywhere fun node =>
        node.ComplementsBy negation := by
  have terms := Term.complementsBy negation
  rw [Expression.Everywhere.iff_parts]
  match shape with
  | .leaf .. | .relation .. | .complexMeta .. =>
      refine iff_of_true (FormulaShape.same_refl _) ⟨trivial, ?_⟩
      first
      | exact List.forall_mem_nil _
      | exact List.forall_mem_map.mpr fun term _ => terms term
  | .comparison symbol left right complement =>
      refine iff_of_true ?_ ⟨trivial, ?_⟩
      · simp [FormulaShape.asWritten, FormulaShape.same]
      · exact List.forall_mem_cons.mpr
          ⟨terms _, List.forall_mem_singleton.mpr (terms _)⟩
  | .negation symbol operand =>
      have whole : (Expression.formula (.plain (.negation symbol operand))).ComplementsBy
          negation ↔ (operand.complementPieces?.isSome -> negation.same symbol = true) :=
        Iff.rfl
      rw [FormulaShape.asWritten, whole, Expression.children, Formula.shape,
        FormulaShape.children, List.forall_mem_singleton]
      split
      · next shown =>
          have inner := operand.complementsBy_of_shown negation shown
          simp [FormulaShape.same, shown, inner]
      · next hidden =>
          rw [← Formula.same_asWritten_iff operand]
          simp [FormulaShape.same, hidden]
  | .binary symbol connective left right brackets =>
      have lefts := Formula.same_asWritten_iff left
      have rights := Formula.same_asWritten_iff right
      refine Iff.trans ?_ (and_iff_right trivial).symm
      simp [FormulaShape.asWritten, FormulaShape.same, Expression.children,
        FormulaShape.children, lefts, rights]
  | .quantified symbol quantifier boundVariable restriction scope =>
      have restrictions := Restriction.same_asWritten_iff restriction
      have scopes := Formula.same_asWritten_iff scope
      refine Iff.trans ?_ (and_iff_right trivial).symm
      simp [FormulaShape.asWritten, FormulaShape.same, Expression.children,
        FormulaShape.children, restrictions, scopes, terms, or_imp, forall_and]

theorem Restriction.same_asWritten_iff (restriction : Restriction) :
    (restriction.asWritten negation).same restriction = true ↔
      ∀ part ∈ FormulaShape.restrictionChildren restriction,
        part.Everywhere fun node => node.ComplementsBy negation := by
  have terms := Term.complementsBy negation
  match restriction with
  | .unrestricted => exact iff_of_true rfl (List.forall_mem_nil _)
  | .bounded relation bound brackets =>
      exact iff_of_true (Restriction.same_refl _)
        (List.forall_mem_singleton.mpr (terms bound))
  | .restricted divider formula brackets =>
      have inner := Formula.same_asWritten_iff formula
      simp [Restriction.asWritten, Restriction.same, FormulaShape.restrictionChildren,
        inner]

end

/-- The formula is read back as the same formula exactly if every negation that is shown
by a complement glyph is one by the symbol that the glyph is read with. -/
theorem Formula.same_asWrittenWhole_iff (formula : Formula) :
    (formula.asWrittenWhole negation).same formula = true ↔
      (Expression.formula formula).Everywhere fun node =>
        node.ComplementsBy negation := by
  rw [← formula.same_asWritten_iff negation]
  unfold asWrittenWhole
  split
  · simp [Formula.asWritten, FormulaShape.asWritten, Formula.same, FormulaShape.same]
  · exact Iff.rfl

end Same

/-! ## A phrase for it -/

namespace Language

/-- There is a phrase for the value of tokens of the language. -/
def CanWrite
    (language : Language)
    (phrase : List Token -> α -> Prop)
    (value : α) : Prop :=
  ∃ tokens, phrase tokens value ∧ ∀ token ∈ tokens, language.HasToken token

end Language

section Phrases

variable {language : Language}

mutual

/-- A term that can be written has a phrase. -/
theorem Term.canWrite
    (valid : language.validate = .ok ())
    (term : Term)
    (writable : (Expression.term term).IsWritable language) :
    language.CanWrite TermDerivation term := by
  match term with
  | .plain shape => exact TermShape.canWrite valid shape writable
  | .transformed .. => cases writable.whole.1

theorem TermShape.canWrite
    (valid : language.validate = .ok ())
    (shape : TermShape)
    (writable : (Expression.term (.plain shape)).IsWritable language) :
    language.CanWrite TermDerivation (.plain shape) := by
  have known := writable.whole.2
  have parts := List.forall_mem_map.mp writable.parts
  match shape with
  | .leaf kind symbol =>
      exact ⟨_, .leaf kind symbol, List.forall_mem_singleton.mpr known⟩
  | .apply head symbol args brackets =>
      obtain ⟨headKnown, nonempty, opening, closing⟩ := known
      obtain ⟨tokens, phrases, argsKnown⟩ := Term.canWrite_separated valid args nonempty parts
      have operands : Separated OperandDerivation tokens args :=
        phrases.imp fun _ _ => .bare
      refine ⟨_, .apply head symbol brackets (.of_separated operands), ?_⟩
      simp only [List.forall_mem_cons, List.forall_mem_append]
      exact ⟨headKnown, opening, argsKnown, closing, List.forall_mem_nil _⟩
  | .operation symbol left right brackets =>
      obtain ⟨symbolKnown, opening, closing⟩ := known
      obtain ⟨leftTokens, leftPhrase, leftKnown⟩ :=
        Term.canWrite valid left (parts _ List.mem_cons_self)
      obtain ⟨rightTokens, rightPhrase, rightKnown⟩ :=
        Term.canWrite valid right (parts _ (List.mem_cons_of_mem _ List.mem_cons_self))
      refine ⟨_, .operation symbol brackets (.bare leftPhrase) (.bare rightPhrase), ?_⟩
      simp only [List.forall_mem_cons, List.forall_mem_append]
      exact ⟨opening, leftKnown, symbolKnown, rightKnown, closing,
        List.forall_mem_nil _⟩

/-- Terms with commas between them, at least one. -/
theorem Term.canWrite_separated
    (valid : language.validate = .ok ())
    (terms : List Term)
    (nonempty : terms ≠ [])
    (writable : ∀ term ∈ terms, (Expression.term term).IsWritable language) :
    language.CanWrite (Separated TermDerivation) terms := by
  match terms with
  | [only] =>
      obtain ⟨tokens, phrase, known⟩ :=
        Term.canWrite valid only (writable _ List.mem_cons_self)
      exact ⟨tokens, .single phrase, known⟩
  | first :: second :: others =>
      obtain ⟨firstWritable, othersWritable⟩ := List.forall_mem_cons.mp writable
      obtain ⟨tokens, phrase, known⟩ := Term.canWrite valid first firstWritable
      obtain ⟨rest, phrases, restKnown⟩ :=
        Term.canWrite_separated valid (second :: others) (List.cons_ne_nil _ _) othersWritable
      refine ⟨_, .cons phrase phrases, ?_⟩
      simp only [List.forall_mem_cons, List.forall_mem_append]
      exact ⟨known, Language.hasToken_of_mark valid rfl, restKnown⟩

end

/-- Terms side by side have a phrase. -/
theorem Term.canWrite_juxtaposed
    (valid : language.validate = .ok ())
    (terms : List Term)
    (writable : ∀ term ∈ terms, (Expression.term term).IsWritable language) :
    language.CanWrite (Juxtaposed TermDerivation) terms := by
  induction terms with
  | nil => exact ⟨[], .nil, List.forall_mem_nil _⟩
  | cons first others inductionHypothesis =>
      obtain ⟨firstWritable, othersWritable⟩ := List.forall_mem_cons.mp writable
      obtain ⟨tokens, phrase, known⟩ := first.canWrite valid firstWritable
      obtain ⟨rest, phrases, restKnown⟩ := inductionHypothesis othersWritable
      exact ⟨_, .cons phrase phrases, List.forall_mem_append.mpr ⟨known, restKnown⟩⟩

variable (negation : Symbol)

mutual

/-- A formula that can be written has a phrase for the tree that is read. -/
theorem Formula.canWrite
    (valid : language.validate = .ok ())
    (round : language.HasBrackets .round)
    (formula : Formula)
    (writable : (Expression.formula formula).IsWritable language) :
    language.CanWrite (FormulaDerivation negation) (formula.asWritten negation) := by
  match formula with
  | .plain shape =>
      obtain ⟨tokens, phrase, known⟩ := FormulaShape.canWrite valid round shape writable
      exact ⟨tokens, .bare phrase, known⟩
  | .transformed .. => cases writable.whole.1

theorem FormulaShape.canWrite
    (valid : language.validate = .ok ())
    (round : language.HasBrackets .round)
    (shape : FormulaShape)
    (writable : (Expression.formula (.plain shape)).IsWritable language) :
    language.CanWrite (UnitDerivation negation) (shape.asWritten negation) := by
  have known := writable.whole.2
  have parts := writable.parts
  match shape with
  | .leaf kind symbol =>
      exact ⟨_, .leaf kind symbol, List.forall_mem_singleton.mpr known⟩
  | .relation _ args =>
      obtain ⟨⟨letter, rfl, letterKnown⟩, nonempty⟩ := known
      obtain ⟨tokens, phrases, argsKnown⟩ :=
        Term.canWrite_juxtaposed valid args (List.forall_mem_map.mp parts)
      exact ⟨_, .relation letter phrases nonempty,
        List.forall_mem_cons.mpr ⟨letterKnown, argsKnown⟩⟩
  | .comparison symbol left right complement =>
      obtain ⟨lefts, others⟩ := List.forall_mem_cons.mp parts
      obtain ⟨leftTokens, leftPhrase, leftKnown⟩ := left.canWrite valid lefts
      obtain ⟨rightTokens, rightPhrase, rightKnown⟩ :=
        right.canWrite valid (others _ List.mem_cons_self)
      refine ⟨_, .comparison symbol leftPhrase rightPhrase, ?_⟩
      simp only [List.forall_mem_cons, List.forall_mem_append]
      exact ⟨leftKnown, known.1, rightKnown⟩
  | .complexMeta symbol params brackets =>
      obtain ⟨symbolKnown, nonempty, opening, closing⟩ := known
      obtain ⟨tokens, phrases, paramsKnown⟩ :=
        Term.canWrite_separated valid params nonempty (List.forall_mem_map.mp parts)
      refine ⟨_, .complexMeta symbol brackets phrases, ?_⟩
      simp only [List.forall_mem_cons, List.forall_mem_append]
      exact ⟨symbolKnown, opening, paramsKnown, closing, List.forall_mem_nil _⟩
  | .negation symbol operand =>
      have operands := parts _ List.mem_cons_self
      rw [FormulaShape.asWritten]
      split
      · next shown =>
          obtain ⟨relation, left, right, complement, rfl⟩ :=
            operand.exists_comparison_of_shown shown
          obtain ⟨lefts, others⟩ := List.forall_mem_cons.mp operands.parts
          obtain ⟨leftTokens, leftPhrase, leftKnown⟩ := left.canWrite valid lefts
          obtain ⟨rightTokens, rightPhrase, rightKnown⟩ :=
            right.canWrite valid (others _ List.mem_cons_self)
          refine ⟨_, .complemented relation complement leftPhrase rightPhrase, ?_⟩
          simp only [List.forall_mem_cons, List.forall_mem_append]
          exact ⟨leftKnown, operands.whole.2.2 complement rfl, rightKnown⟩
      · obtain ⟨tokens, phrase, operandKnown⟩ := Formula.canWrite valid round operand operands
        exact ⟨_, .negation symbol phrase,
          List.forall_mem_cons.mpr ⟨known, operandKnown⟩⟩
  | .binary symbol connective left right brackets =>
      obtain ⟨symbolKnown, bracketsKnown⟩ := known
      obtain ⟨lefts, others⟩ := List.forall_mem_cons.mp parts
      obtain ⟨leftTokens, leftPhrase, leftKnown⟩ := Formula.canWrite valid round left lefts
      obtain ⟨rightTokens, rightPhrase, rightKnown⟩ :=
        Formula.canWrite valid round right (others _ List.mem_cons_self)
      have pair : language.HasBrackets (brackets.getD .round) := by
        cases brackets with
        | none => exact round
        | some pair => exact bracketsKnown pair rfl
      refine ⟨_, .binary symbol connective _ leftPhrase rightPhrase, ?_⟩
      simp only [List.forall_mem_cons, List.forall_mem_append]
      exact ⟨pair.1, leftKnown, symbolKnown, rightKnown, pair.2, List.forall_mem_nil _⟩
  | .quantified symbol quantifier boundVariable restriction scope =>
      obtain ⟨-, others⟩ := List.forall_mem_cons.mp parts
      obtain ⟨restrictions, scopes⟩ := List.forall_mem_append.mp others
      obtain ⟨prefixTokens, quantifiers, prefixKnown⟩ :=
        Restriction.canWrite valid round restriction restrictions known
      obtain ⟨tokens, phrase, scopeKnown⟩ :=
        Formula.canWrite valid round scope (scopes _ List.mem_cons_self)
      exact ⟨_, .quantified quantifiers phrase,
        List.forall_mem_append.mpr ⟨prefixKnown, scopeKnown⟩⟩

theorem Restriction.canWrite
    (valid : language.validate = .ok ())
    (round : language.HasBrackets .round)
    (restriction : Restriction)
    (writable : ∀ part ∈ FormulaShape.restrictionChildren restriction,
      part.IsWritable language)
    {symbol : Symbol}
    {quantifier : Quantifier}
    {boundVariable : Term}
    (known : language.HasToken (.quantifier symbol quantifier) ∧
      language.Binds boundVariable ∧ restriction.HasTokens language) :
    language.CanWrite
      (fun tokens restriction => PrefixDerivation negation tokens symbol quantifier
        boundVariable restriction)
      (restriction.asWritten negation) := by
  obtain ⟨symbolKnown, ⟨token, binds, variableKnown⟩, known⟩ := known
  match restriction with
  | .unrestricted =>
      exact ⟨_, .unrestricted symbol quantifier binds, List.forall_mem_cons.mpr
        ⟨symbolKnown, List.forall_mem_singleton.mpr variableKnown⟩⟩
  | .bounded relation bound brackets =>
      obtain ⟨relationKnown, opening, closing⟩ := known
      obtain ⟨tokens, phrase, boundKnown⟩ :=
        bound.canWrite valid (writable _ List.mem_cons_self)
      refine ⟨_, .bounded symbol quantifier binds relation brackets phrase, ?_⟩
      simp only [List.forall_mem_cons, List.forall_mem_append]
      exact ⟨opening, symbolKnown, variableKnown, relationKnown, boundKnown, closing,
        List.forall_mem_nil _⟩
  | .restricted divider formula brackets =>
      obtain ⟨dividerKnown, opening, closing⟩ := known
      obtain ⟨tokens, phrase, innerKnown⟩ :=
        Formula.canWrite valid round formula (writable _ List.mem_cons_self)
      refine ⟨_, .restricted symbol quantifier binds divider brackets phrase, ?_⟩
      simp only [List.forall_mem_cons, List.forall_mem_append]
      exact ⟨opening, symbolKnown, variableKnown, dividerKnown, innerKnown, closing,
        List.forall_mem_nil _⟩

end

/-- So it has one for the whole, without outermost brackets. -/
theorem Formula.canWrite_sentence
    (valid : language.validate = .ok ())
    (round : language.HasBrackets .round)
    (formula : Formula)
    (writable : (Expression.formula formula).IsWritable language) :
    language.CanWrite (SentenceDerivation negation)
      (formula.asWrittenWhole negation) := by
  unfold asWrittenWhole
  split
  · next symbol connective left right =>
      obtain ⟨lefts, others⟩ := List.forall_mem_cons.mp writable.parts
      obtain ⟨leftTokens, leftPhrase, leftKnown⟩ :=
        left.canWrite negation valid round lefts
      obtain ⟨rightTokens, rightPhrase, rightKnown⟩ :=
        right.canWrite negation valid round (others _ List.mem_cons_self)
      refine ⟨_, .binary symbol connective leftPhrase rightPhrase, ?_⟩
      simp only [List.forall_mem_cons, List.forall_mem_append]
      exact ⟨leftKnown, writable.whole.2.1, rightKnown⟩
  · obtain ⟨tokens, phrase, known⟩ := formula.canWrite negation valid round writable
    exact ⟨tokens, .bracketed phrase, known⟩

end Phrases

/-! ## It is what is read -/

section Innermost

variable (negation : Symbol)

mutual

/-- Where there are no substitutions, all are attached innermost. -/
theorem Formula.attachesInnermost_asWritten
    (formula : Formula)
    (bare : (Expression.formula formula).IsBare) :
    (formula.asWritten negation).AttachesInnermost := by
  match formula with
  | .plain shape => exact FormulaShape.attachesInnermost_asWritten shape bare
  | .transformed .. => cases bare.whole

theorem FormulaShape.attachesInnermost_asWritten
    (shape : FormulaShape)
    (bare : (Expression.formula (.plain shape)).IsBare) :
    (shape.asWritten negation).AttachesInnermost := by
  have parts := bare.parts
  match shape with
  | .leaf .. | .relation .. | .comparison .. | .complexMeta .. => trivial
  | .negation symbol operand =>
      rw [FormulaShape.asWritten]
      split
      · next shown =>
          obtain ⟨_, _, _, _, rfl⟩ := operand.exists_comparison_of_shown shown
          trivial
      · exact Formula.attachesInnermost_asWritten operand (parts _ List.mem_cons_self)
  | .binary symbol connective left right brackets =>
      obtain ⟨lefts, others⟩ := List.forall_mem_cons.mp parts
      exact ⟨Formula.attachesInnermost_asWritten left lefts,
        Formula.attachesInnermost_asWritten right (others _ List.mem_cons_self)⟩
  | .quantified symbol quantifier boundVariable restriction scope =>
      obtain ⟨-, others⟩ := List.forall_mem_cons.mp parts
      obtain ⟨restrictions, scopes⟩ := List.forall_mem_append.mp others
      exact ⟨Restriction.attachesInnermost_asWritten restriction restrictions,
        Formula.attachesInnermost_asWritten scope (scopes _ List.mem_cons_self)⟩

theorem Restriction.attachesInnermost_asWritten
    (restriction : Restriction)
    (bare : ∀ part ∈ FormulaShape.restrictionChildren restriction, part.IsBare) :
    (restriction.asWritten negation).AttachesInnermost := by
  match restriction with
  | .unrestricted | .bounded .. => trivial
  | .restricted divider formula brackets =>
      exact Formula.attachesInnermost_asWritten formula (bare _ List.mem_cons_self)

end

theorem Formula.attachesInnermost_asWrittenWhole
    (formula : Formula)
    (bare : (Expression.formula formula).IsBare) :
    (formula.asWrittenWhole negation).AttachesInnermost := by
  have bracketed := formula.attachesInnermost_asWritten negation bare
  unfold asWrittenWhole
  split
  · exact bracketed
  · exact bracketed

end Innermost

namespace Language

/-- The rendering of a formula without substitutions that is made of tokens of the
language is read as the formula without the traces of how it was put together. -/
theorem parseFormula_text_of_isWritable
    {language : Language}
    (valid : language.validate = .ok ())
    (plain : language.IndexFree)
    (round : Brackets.round ∈ language.brackets)
    (square : Brackets.square ∈ language.brackets)
    {whole : Formula}
    (writable : (Expression.formula whole).IsWritable language) :
    language.parseFormula whole.text =
      .ok (whole.asWrittenWhole language.negationSymbol) := by
  obtain ⟨tokens, sentence, known⟩ := whole.canWrite_sentence
    language.negationSymbol valid (hasBrackets_of_mem valid round) writable
  rw [← whole.text_asWrittenWhole language.negationSymbol]
  exact parseFormula_text_of_phrase valid plain square sentence known
    (whole.attachesInnermost_asWrittenWhole _ writable.isBare)

end Language

end SymbolicLogic
