import SymbolicLogic.Proofs.Grammar.Exactness
import SymbolicLogic.Proofs.Header.Formulas

/-!
# Alignment of headers

The header of a formula that was read has a value item for each displayed part,
or else more of them: the latter exactly if the quantifier of some displayed part
is torn apart.
-/

namespace SymbolicLogic

open Grammar Rendering Segmentation TextRun

variable {language : Language} {negationSymbol : Symbol}
  {tokens : List Token}

/-- Arguments of a relation follow its symbol without anything between them. -/
theorem joins_juxtaposed
    (suits : language.SuitsHeaders)
    {values : List Term}
    (derivations : Juxtaposed TermDerivation tokens values)
    (known : ∀ token ∈ tokens, language.HasToken token)
    {text : List Char}
    (item : language.segmentation.IsItemText text)
    (depth : Nat) :
    language.segmentation.IsItemText
      (text ++ characters (Term.piecesOfAll values depth).flatten) := by
  induction derivations generalizing text with
  | nil => simpa [Term.piecesOfAll] using item
  | @cons tokens value rest values first _ inductionHypothesis =>
      obtain ⟨knownFirst, knownOthers⟩ := List.forall_mem_append.mp known
      have itemFirst := isItemText_term suits first knownFirst depth
      rw [Term.piecesOfAll, List.flatten_cons, characters_append,
        ← List.append_assoc]
      exact inductionHypothesis knownOthers (item.append itemFirst)

/-- Terms with commas between them are within one item. -/
theorem isItemText_separated
    (suits : language.SuitsHeaders)
    {values : List Term}
    (derivations : Separated TermDerivation tokens values)
    (known : ∀ token ∈ tokens, language.HasToken token)
    (depth : Nat) :
    language.segmentation.IsItemText
      (characters (separated (Term.piecesOfAll values depth))) := by
  induction derivations with
  | single only =>
      simpa [Term.piecesOfAll, separated] using
        isItemText_term suits only known depth
  | cons first others inductionHypothesis =>
      simp only [List.forall_mem_cons, List.forall_mem_append] at known
      obtain ⟨knownFirst, knownComma, knownOthers⟩ := known
      have comma : language.segmentation.IsWord ",".toList :=
        suits.word knownComma rfl
      have itemFirst := isItemText_term suits first knownFirst depth
      have item :=
        itemFirst.append ((inductionHypothesis knownOthers).after_space comma)
      cases others with
      | single | cons =>
          rw [Term.piecesOfAll, Term.piecesOfAll, characters_separated_cons]
          exact item

theorem isWord_boundVariable
    (suits : language.SuitsHeaders)
    {token : Token}
    {boundVariable : Term}
    (binds : BoundVariable token boundVariable)
    (known : language.HasToken token)
    (depth : Nat) :
    language.segmentation.IsWord
      (characters (boundVariable.pieces depth)) := by
  cases binds with
  | objectVariable symbol =>
      have word : language.segmentation.IsWord symbol.text.toList :=
        suits.word known rfl
      simpa [Term.leaf, Term.pieces, TermShape.pieces, Rendering.symbol] using
        word
  | variableMeta symbol =>
      have word : language.segmentation.IsWord symbol.text.toList :=
        suits.word known rfl
      simpa [Term.leaf, Term.pieces, TermShape.pieces, Rendering.symbol] using
        word

/-- A quantifier binds, with its variable. -/
theorem binds_quantifier
    (suits : language.SuitsHeaders)
    {symbol : Symbol}
    {kind : Quantifier}
    (knownSymbol : language.HasToken (.quantifier symbol kind))
    {token : Token}
    {boundVariable : Term}
    (binds : BoundVariable token boundVariable)
    (knownVariable : language.HasToken token)
    (depth : Nat) :
    let text := symbol.text.toList ++ characters (boundVariable.pieces depth)
    language.segmentation.Begins text false ∧
      language.segmentation.Binds text := by
  obtain ⟨c, text_eq, used⟩ := Language.exists_glyph knownSymbol rfl rfl
  have relates : language.segmentation.classOf c = .relation :=
    Language.classOf_of_uses suits.valid used
  have isBinder := Language.isBinder_iff.mpr ⟨kind, used⟩
  have word := isWord_boundVariable suits binds knownVariable depth
  have stays := Stays.of_joins (.of_isWord word) 0
  have symbolEq : symbol.text.toList = [c] := text_eq
  rw [symbolEq]
  exact ⟨⟨c, ⟨_, rfl⟩, .inl relates⟩, (Binds.of_isBinder relates isBinder).append
    stays⟩

theorem operator_of_negation
    (suits : language.SuitsHeaders)
    {symbol : Symbol}
    (known : language.HasToken (.negation symbol)) :
    ∃ c, symbol.text.toList = [c] ∧
      language.segmentation.classOf c = .operator ∧
      language.segmentation.operators.isUnary c = true := by
  obtain ⟨c, text_eq, used⟩ := Language.exists_glyph known rfl rfl
  exact ⟨c, text_eq, Language.classOf_of_uses suits.valid used,
    Language.isUnary_iff.mpr used⟩

theorem operator_of_connective
    (suits : language.SuitsHeaders)
    {symbol : Symbol}
    {connective : Connective}
    (known : language.HasToken (.connective symbol connective)) :
    ∃ c, symbol.text.toList = [c] ∧
      language.segmentation.classOf c = .operator := by
  obtain ⟨c, text_eq, used⟩ := Language.exists_glyph known rfl rfl
  exact ⟨c, text_eq, Language.classOf_of_uses suits.valid used⟩

theorem Grammar.FormulaDerivation.isAbsorbed_eq_false
    {operand : Formula}
    (derivation : FormulaDerivation negationSymbol tokens operand) :
    operand.isAbsorbed = false := by
  rw [Formula.isAbsorbed, derivation.complementPieces?_eq_none]
  rfl

mutual

/-- The rendering of a unit has the text of one, wherever it is read. -/
theorem isUnitText
    {language : Language}
    (suits : language.SuitsHeaders)
    {negationSymbol : Symbol}
    {tokens : List Token}
    {shape : FormulaShape}
    (derivation : UnitDerivation negationSymbol tokens shape)
    (known : ∀ token ∈ tokens, language.HasToken token)
    (depth : Nat) :
    language.segmentation.IsUnitText shape
      (characters (shape.pieces depth false)) := by
  match derivation with
  | .leaf kind symbol =>
      have word := suits.word (known _ List.mem_cons_self)
        (by cases kind <;> rfl)
      have text_eq : (formulaLeafToken kind symbol).text = symbol.text := by
        cases kind <;> rfl
      rw [text_eq] at word
      refine .of_isAtomic ?_ rfl
      simpa [FormulaShape.pieces, Rendering.symbol] using
        IsItemText.of_isWord word
  | .relation symbol args nonempty =>
      obtain ⟨knownSymbol, knownArgs⟩ := List.forall_mem_cons.mp known
      have word : language.segmentation.IsWord symbol.text.toList :=
        suits.word knownSymbol rfl
      have item :=
        joins_juxtaposed suits args knownArgs (.of_isWord word) depth
      refine .of_isAtomic ?_ rfl
      simpa [FormulaShape.pieces, Rendering.symbol, Symbol.withRole] using item
  | .comparison symbol left right =>
      simp only [List.forall_mem_cons, List.forall_mem_append] at known
      obtain ⟨knownLeft, knownSymbol, knownRight⟩ := known
      have word : language.segmentation.IsWord symbol.text.toList :=
        suits.word knownSymbol rfl
      have item := (isItemText_term suits left knownLeft depth).spaced word
        (isItemText_term suits right knownRight depth)
      refine .of_isAtomic ?_ rfl
      simpa [FormulaShape.pieces] using item
  | .complemented relation complement left right =>
      simp only [List.forall_mem_cons, List.forall_mem_append] at known
      obtain ⟨knownLeft, knownSymbol, knownRight⟩ := known
      have word : language.segmentation.IsWord complement.text.toList :=
        suits.word knownSymbol rfl
      have item := (isItemText_term suits left knownLeft 0).spaced word
        (isItemText_term suits right knownRight 0)
      refine .of_isItemText ?_ rfl rfl fun formula shapeEq =>
        Formula.displayedParts_of_negation shapeEq
      simpa [FormulaShape.pieces, Formula.complementPieces?] using item
  | .complexMeta symbol brackets params =>
      simp only [List.forall_mem_cons, List.forall_mem_append] at known
      obtain ⟨knownSymbol, knownOpening, knownParams, knownClosing, -⟩ := known
      have word : language.segmentation.IsWord symbol.text.toList :=
        suits.word knownSymbol rfl
      have inside := isItemText_separated suits params knownParams (depth + 1)
      have item := (IsItemText.of_isWord word).append
        (inside.enclosed (suits.pair knownOpening knownClosing))
      refine .of_isAtomic ?_ rfl
      simpa [FormulaShape.pieces, Rendering.symbol] using item
  | .negation symbol operand =>
      obtain ⟨knownSymbol, knownOperand⟩ := List.forall_mem_cons.mp known
      obtain ⟨c, symbolEq, operates, isUnary⟩ :=
        operator_of_negation suits knownSymbol
      have operandText := isFormulaText suits operand knownOperand depth
      simp only [FormulaShape.pieces, operand.complementPieces?_eq_none]
      rw [characters_cons, Rendering.symbol, symbolEq]
      exact .negation operates isUnary operand.isAbsorbed_eq_false operandText
  | .binary symbol kind brackets left right =>
      simp only [List.forall_mem_cons, List.forall_mem_append] at known
      obtain ⟨knownOpening, knownLeft, knownSymbol, knownRight, knownClosing, -⟩ :=
        known
      obtain ⟨c, symbolEq, operates⟩ :=
        operator_of_connective suits knownSymbol
      have textLeft := isFormulaText suits left knownLeft (depth + 1)
      have textRight := isFormulaText suits right knownRight (depth + 1)
      simp only [FormulaShape.pieces]
      rw [characters_enclosed, characters_spaced, symbolEq]
      exact .binary (suits.pair knownOpening knownClosing) operates textLeft
        textRight
  | .quantified quantifiers scope =>
      obtain ⟨knownPrefix, knownScope⟩ := List.forall_mem_append.mp known
      simp only [FormulaShape.pieces]
      rw [characters_append]
      exact .quantified (isPrefixText suits quantifiers knownPrefix depth)
        (isFormulaText suits scope knownScope depth)

/-- The rendering of a formula has the text of one, wherever it is read. -/
theorem isFormulaText
    {language : Language}
    (suits : language.SuitsHeaders)
    {negationSymbol : Symbol}
    {tokens : List Token}
    {whole : Formula}
    (derivation : FormulaDerivation negationSymbol tokens whole)
    (known : ∀ token ∈ tokens, language.HasToken token)
    (depth : Nat) :
    language.segmentation.IsFormulaText whole
      (characters (whole.pieces depth false)) := by
  match derivation with
  | .bare carrier =>
      exact .plain (isUnitText suits carrier known depth)
  | .transformed carrier pending =>
      obtain ⟨knownCarrier, knownPending⟩ := List.forall_mem_append.mp known
      rw [Formula.pieces, characters_append]
      exact .transformed (isUnitText suits carrier knownCarrier depth)
        (isItemText_transform suits pending knownPending) _

/-- The rendering of a quantifier prefix has the text of one. -/
theorem isPrefixText
    {language : Language}
    (suits : language.SuitsHeaders)
    {negationSymbol : Symbol}
    {tokens : List Token}
    {symbol : Symbol}
    {kind : Quantifier}
    {boundVariable : Term}
    {restriction : Restriction}
    (derivation : PrefixDerivation negationSymbol tokens symbol kind
      boundVariable restriction)
    (known : ∀ token ∈ tokens, language.HasToken token)
    (depth : Nat) :
    language.segmentation.IsPrefixText restriction
      (characters (restriction.pieces depth
        (Rendering.symbol .operator symbol :: boundVariable.pieces depth))) := by
  match derivation with
  | .unrestricted symbol kind binds =>
      obtain ⟨knownSymbol, knownVariable⟩ := List.forall_mem_cons.mp known
      obtain ⟨begins, bindsText⟩ := binds_quantifier suits knownSymbol binds
        (knownVariable _ List.mem_cons_self) depth
      refine .of_binds ?_ ?_ rfl
      · simpa [Restriction.pieces, Rendering.symbol] using begins
      · simpa [Restriction.pieces, Rendering.symbol] using bindsText
  | .bounded symbol kind binds relation brackets bound =>
      simp only [List.forall_mem_cons, List.forall_mem_append] at known
      obtain ⟨knownOpening, knownSymbol, knownVariable, knownRelation, knownBound,
        knownClosing, -⟩ := known
      have pair := suits.pair knownOpening knownClosing
      have word : language.segmentation.IsWord relation.text.toList :=
        suits.word knownRelation rfl
      obtain ⟨-, bindsText⟩ :=
        binds_quantifier suits knownSymbol binds knownVariable depth
      have item :=
        (isItemText_term suits bound knownBound (depth + 1)).after_space word
      have whole := (bindsText.append
        ((Stays.of_joins item.joins 0).space item.begins)).enclosed pair
      refine .of_binds ?_ ?_ rfl
      · rw [Restriction.pieces, characters_enclosed]
        exact pair.begins _
      · simpa [Restriction.pieces, Rendering.symbol] using whole
  | .restricted symbol kind binds divider brackets body =>
      simp only [List.forall_mem_cons, List.forall_mem_append] at known
      obtain ⟨knownOpening, knownSymbol, knownVariable, knownDivider, knownBody,
        knownClosing, -⟩ := known
      have word : language.segmentation.IsWord divider.text.toList :=
        suits.word knownDivider rfl
      obtain ⟨-, bindsText⟩ :=
        binds_quantifier suits knownSymbol binds knownVariable depth
      have opened := bindsText.append (Stays.of_joins (.of_isWord word) 0)
      have text := IsPrefixText.restricted divider
        (suits.pair knownOpening knownClosing) opened
        (isFormulaText suits body knownBody (depth + 1))
      simpa [Restriction.pieces, Rendering.symbol, Rendering.space] using text

end

/-- A formula that was read is laid out as its displayed parts are, with an
outermost binary formula as it was read. -/
theorem lays_sentence
    (suits : language.SuitsHeaders)
    {whole : Formula}
    (derivation : SentenceDerivation negationSymbol tokens whole)
    (known : ∀ token ∈ tokens, language.HasToken token) :
    language.segmentation.Lays whole.displayedParts.length whole.IsAligned
      (characters (whole.pieces 0 true)) := by
  cases derivation with
  | bracketed only =>
      rw [only.pieces_root]
      exact (isFormulaText suits only known 0).lays
  | binary symbol kind left right =>
      simp only [List.forall_mem_cons, List.forall_mem_append] at known
      obtain ⟨knownLeft, knownSymbol, knownRight⟩ := known
      obtain ⟨c, symbolEq, operates⟩ :=
        operator_of_connective suits knownSymbol
      have textLeft := isFormulaText suits left knownLeft 0
      have textRight := isFormulaText suits right knownRight 0
      simp only [Formula.pieces, FormulaShape.pieces, if_true]
      rw [characters_spaced, symbolEq]
      exact IsUnitText.lays_binary operates textLeft textRight rfl

namespace Segmentation

/-- At the end of a text the run at hand is the last item. -/
theorem Lays.items_eq_ok
    {cutting : Segmentation}
    {count : Nat}
    {even : Prop}
    {text : String}
    (lays : cutting.Lays count even text.toList) :
    ∃ items, cutting.items text = .ok items ∧
      count ≤ (items.filter HeaderItem.holdsValues).length ∧
      (even ↔ (items.filter HeaderItem.holdsValues).length = count) := by
  obtain ⟨items, begun, bound, reads, values, least, exact_iff⟩ :=
    lays 0 .between trivial
  have scanned := reads 0 []
  have all : (items ++ [itemOf begun]).filter HeaderItem.holdsValues =
      items ++ [itemOf begun] := by
    rw [List.filter_eq_self]
    exact List.forall_mem_append.mpr
      ⟨values, List.forall_mem_singleton.mpr rfl⟩
  refine ⟨items ++ [itemOf begun], ?_, ?_⟩
  · rw [List.append_nil] at scanned
    rw [Segmentation.items, scanned]
    rfl
  · rw [all, List.length_append, List.length_singleton]
    exact ⟨least, exact_iff⟩

end Segmentation

/-- The header of a formula that was read can be cut. It has as many value items
as there are displayed parts if none of these has its quantifier torn apart, and
more otherwise. -/
theorem Language.items_of_parseFormula
    (suits : language.SuitsHeaders)
    {text : String}
    {formula : Formula}
    (read : language.parseFormula text = .ok formula) :
    ∃ items, language.segmentation.items formula.text = .ok items ∧
      formula.displayedParts.length ≤
        (items.filter HeaderItem.holdsValues).length ∧
      (formula.IsAligned ↔
        (items.filter HeaderItem.holdsValues).length =
          formula.displayedParts.length) := by
  obtain ⟨tokens, derivation, -, known⟩ := exists_phrase_of_parseFormula read
  exact (lays_sentence suits derivation known).items_eq_ok

end SymbolicLogic
