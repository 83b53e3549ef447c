import SymbolicLogic.Proofs.Header.Alignment
import SymbolicLogic.Proofs.Header.Contents
import SymbolicLogic.Proofs.Header.Labels
import SymbolicLogic.Proofs.Truth.Layout

/-!
# Header items show displayed parts

The header of a formula without restricted quantifiers has one value item for each
displayed part, in the same order. The item of a part that is written with an
operator shows the glyph of the operator, and that of any other part shows the
part as it would be written on its own.
-/

namespace SymbolicLogic

open Grammar Rendering Segmentation TextRun

/-- The labels of the displayed parts, as characters. -/
def Formula.labels (formula : Formula) : List (List Char) :=
  formula.displayedParts.map fun part => part.label.toList

namespace Formula

variable {formula operand left right : Formula} {symbol : Symbol}
  {connective : Connective} {brackets : Option Brackets}

theorem labels_of_negation
    (shapeEq : formula.shape = .negation symbol operand)
    (shown : operand.isAbsorbed = false) :
    formula.labels = symbol.text.toList :: operand.labels := by
  rw [labels, displayedParts_of_negation shapeEq, shown, List.map_cons,
    label_of_negation shapeEq shown]
  rfl

theorem labels_of_binary
    (shapeEq : formula.shape =
      .binary symbol connective left right brackets) :
    formula.labels = left.labels ++ symbol.text.toList :: right.labels := by
  rw [labels, displayedParts_of_binary shapeEq, List.map_append, List.map_cons,
    label_of_binary shapeEq]
  rfl

theorem labels_of_not_operated
    (whole : formula.shape.isOperated = false) :
    formula.labels = [formula.text.toList] := by
  obtain ⟨single, labelEq⟩ := displayedParts_of_not_operated whole
  rw [labels, single, List.map_singleton, labelEq]

end Formula

/-- Some symbol is neither an operator nor a bracket. -/
theorem Language.SuitsHeaders.exists_mark
    {language : Language}
    (suits : language.SuitsHeaders) :
    ∃ mark, language.segmentation.classOf mark = .relation :=
  ⟨',', (Language.isWord_of_mem_reservedGlyphs suits.valid (by decide)).1⟩

mutual

/-- Items show the labels of an operated formula, one by one. -/
theorem shows_unit
    {language : Language}
    (suits : language.SuitsHeaders)
    {negationSymbol : Symbol}
    {tokens : List Token}
    {shape : FormulaShape}
    (derivation : UnitDerivation negationSymbol tokens shape)
    (known : ∀ token ∈ tokens, language.HasToken token)
    (operated : shape.isOperated = true)
    {formula : Formula}
    (shapeEq : formula.shape = shape)
    (aligned : formula.IsAligned)
    (depth : Nat) :
    language.segmentation.Shows formula.labels
      (characters (shape.pieces depth false)) := by
  match derivation with
  | .negation symbol operand =>
      obtain ⟨knownSymbol, knownOperand⟩ := List.forall_mem_cons.mp known
      obtain ⟨c, symbolEq, operates, -⟩ := operator_of_negation suits knownSymbol
      have shown := operand.isAbsorbed_eq_false
      have operandShows := shows_formula suits operand knownOperand
        ((Formula.isAligned_of_negation shapeEq shown).mp aligned) depth
      simp only [FormulaShape.pieces, operand.complementPieces?_eq_none]
      rw [Formula.labels_of_negation shapeEq shown, characters_cons,
        Rendering.symbol, symbolEq]
      exact operandShows.operator operates
  | .binary symbol kind brackets left right =>
      simp only [List.forall_mem_cons, List.forall_mem_append] at known
      obtain ⟨knownOpening, knownLeft, knownSymbol, knownRight, knownClosing, -⟩ :=
        known
      obtain ⟨c, symbolEq, operates⟩ := operator_of_connective suits knownSymbol
      obtain ⟨alignedLeft, alignedRight⟩ :=
        (Formula.isAligned_of_binary shapeEq).mp aligned
      have showsLeft :=
        shows_formula suits left knownLeft alignedLeft (depth + 1)
      have showsRight :=
        shows_formula suits right knownRight alignedRight (depth + 1)
      have begins := (isFormulaText suits right knownRight (depth + 1)).begins
      simp only [FormulaShape.pieces]
      rw [Formula.labels_of_binary shapeEq, characters_enclosed,
        characters_spaced, symbolEq]
      exact (showsLeft.spaced operates begins showsRight).enclosed
        (suits.pair knownOpening knownClosing)
  | .leaf .. | .relation .. | .comparison .. | .complexMeta .. | .quantified .. =>
      cases operated
  | .complemented .. => cases operated

/-- Items show the labels of an aligned formula, one by one. -/
theorem shows_formula
    {language : Language}
    (suits : language.SuitsHeaders)
    {negationSymbol : Symbol}
    {tokens : List Token}
    {whole : Formula}
    (derivation : FormulaDerivation negationSymbol tokens whole)
    (known : ∀ token ∈ tokens, language.HasToken token)
    (aligned : whole.IsAligned)
    (depth : Nat) :
    language.segmentation.Shows whole.labels
      (characters (whole.pieces depth false)) := by
  obtain ⟨mark, relates⟩ := suits.exists_mark
  cases operated : whole.shape.isOperated with
  | false =>
      have formulaText := isFormulaText suits derivation known depth
      have begins := formulaText.begins
      have lays := formulaText.lays
      rw [(Formula.displayedParts_of_not_operated operated).1] at lays
      rw [FormulaShape.isNegated_of_not_operated operated] at begins
      rw [Formula.labels_of_not_operated operated,
        ← derivation.characters_eq_text depth]
      exact .of_lays relates lays aligned begins
  | true =>
      match derivation with
      | .bare carrier =>
          exact shows_unit suits carrier known operated rfl aligned depth
      | .transformed carrier pending =>
          obtain ⟨knownCarrier, knownPending⟩ := List.forall_mem_append.mp known
          rw [Formula.pieces, characters_append]
          exact (shows_unit suits carrier knownCarrier operated rfl aligned
            depth).append_joins relates
              (isItemText_transform suits pending knownPending).joins

end

/-- The items of a formula that was read show its displayed parts, with an
outermost binary formula as it was read. -/
theorem shows_sentence
    {language : Language}
    (suits : language.SuitsHeaders)
    {negationSymbol : Symbol}
    {tokens : List Token}
    {whole : Formula}
    (derivation : SentenceDerivation negationSymbol tokens whole)
    (known : ∀ token ∈ tokens, language.HasToken token)
    (aligned : whole.IsAligned) :
    language.segmentation.Shows whole.labels whole.text.toList := by
  cases derivation with
  | bracketed only =>
      rw [← only.characters_eq_text 0]
      exact shows_formula suits only known aligned 0
  | binary symbol kind left right =>
      simp only [List.forall_mem_cons, List.forall_mem_append] at known
      obtain ⟨knownLeft, knownSymbol, knownRight⟩ := known
      obtain ⟨c, symbolEq, operates⟩ := operator_of_connective suits knownSymbol
      obtain ⟨alignedLeft, alignedRight⟩ :=
        (Formula.isAligned_of_binary rfl).mp aligned
      have showsLeft := shows_formula suits left knownLeft alignedLeft 0
      have showsRight := shows_formula suits right knownRight alignedRight 0
      have begins := (isFormulaText suits right knownRight 0).begins
      rw [Formula.labels_of_binary rfl]
      change language.segmentation.Shows _
        (characters (Rendering.spaced _ symbol _))
      rw [characters_spaced, symbolEq]
      exact showsLeft.spaced operates begins showsRight

namespace Segmentation

/-- At the end of a text the item at hand is finished, and shows the last
label. -/
theorem Shows.items_eq_ok
    {cutting : Segmentation}
    {labels : List (List Char)}
    {text : String}
    (shows : cutting.Shows labels text.toList) :
    ∃ items, cutting.items text = .ok items ∧
      List.Forall₂ (fun label item => label <:+: item.text.toList) labels
        (items.filter HeaderItem.holdsValues) := by
  obtain ⟨items, begun, bound, reads, values, shown⟩ := shows 0 .between trivial
  have scanned := reads 0 []
  have all : (items ++ [itemOf begun]).filter HeaderItem.holdsValues =
      items ++ [itemOf begun] := by
    rw [List.filter_eq_self]
    exact List.forall_mem_append.mpr
      ⟨values, List.forall_mem_singleton.mpr rfl⟩
  refine ⟨items ++ [itemOf begun], ?_, ?_⟩
  · rw [List.append_nil] at scanned
    rw [Segmentation.items, scanned]
    rfl
  · rw [all]
    exact shown

end Segmentation

/-- The header of a formula that was read, and has no restricted quantifiers, can
be cut. Once its basic formulas are declared, which they can be, its value items
are as many as the displayed nodes, and each shows the node at its place: the
operator that the node is written with, or else all of the node. -/
theorem Language.items_show_displayed
    {language : Language}
    (valid : language.validate = .ok ())
    (indexFree : language.IndexFree)
    (round : Brackets.round ∈ language.brackets)
    (square : Brackets.square ∈ language.brackets)
    {text : String}
    {formula : Formula}
    (read : language.parseFormula text = .ok formula)
    (unrestricted : (Expression.formula formula).Everywhere fun node =>
      node.kind ≠ .restrictedUniversal ∧ node.kind ≠ .restrictedExistential) :
    ∃ items, language.segmentation.items formula.text = .ok items ∧
      (∃ basics, formula.BottomsOut basics) ∧
      ∀ basics, formula.BottomsOut basics ->
        ∃ root decomposition,
          Decomposition.of formula basics = .ok (root, decomposition) ∧
          List.Forall₂
            (fun place item => ∃ node, decomposition.nodes[place]? = some node ∧
              node.formula.label.toList <:+: item.text.toList)
            decomposition.displayed (items.filter HeaderItem.holdsValues) := by
  have suits : language.SuitsHeaders := ⟨valid, indexFree, round, square⟩
  obtain ⟨tokens, lexes⟩ := exists_tokens_of_parseBy read
  obtain ⟨derivation, -⟩ := (parseFormula_eq_ok_iff lexes).mp read
  have shows := shows_sentence suits derivation
    (fun _ member => hasToken_of_mem_tokens lexes member)
    (Formula.isAligned_of_unrestricted unrestricted)
  obtain ⟨items, cut, shown⟩ := shows.items_eq_ok
  refine ⟨items, cut, formula.exists_bottomsOut, fun basics bottomsOut => ?_⟩
  obtain ⟨⟨root, decomposition⟩, found⟩ :=
    bottomsOut.exists_decompose true .empty
  refine ⟨root, decomposition, found, ?_⟩
  rw [Formula.labels, List.forall₂_map_left_iff] at shown
  refine (forall₂_comp (Decomposition.extends_of found).parts shown).imp ?_
  rintro place item ⟨part, inTable, inside⟩
  rw [Decomposition.formulas, List.getElem?_map, Option.map_eq_some_iff] at inTable
  obtain ⟨node, nodeAt, rfl⟩ := inTable
  exact ⟨node, nodeAt, inside⟩

/-- A conditional from a negated letter to the negation of a comparison of
constants. -/
def Formula.isConditionalOfNegations (formula : Formula) : Bool :=
  match formula with
  | .plain (.binary _ .conditional
      (.plain (.negation _ (.plain (.leaf .letter _))))
      (.plain (.negation _ (.plain (.comparison _
        (.plain (.leaf .constant _)) (.plain (.leaf .constant _)) _)))) _) => true
  | _ => false

/-- The header of `~A → a ≠ b` shows the glyph of the first negation, and the
second negation as a whole. -/
theorem Language.items_show_displayed_complement :
    ∃ formula, Language.predicate.parseFormula "~A → a ≠ b" = .ok formula ∧
      ∃ items, Language.predicate.segmentation.items formula.text = .ok items ∧
        (∃ basics, formula.BottomsOut basics) ∧
        ∀ basics, formula.BottomsOut basics ->
          ∃ root decomposition,
            Decomposition.of formula basics = .ok (root, decomposition) ∧
            List.Forall₂
              (fun place item => ∃ node,
                decomposition.nodes[place]? = some node ∧
                node.formula.label.toList <:+: item.text.toList)
              decomposition.displayed
              (items.filter HeaderItem.holdsValues) := by
  have reads : succeedsWith (Language.predicate.parseFormula "~A → a ≠ b")
      Formula.isConditionalOfNegations = true := by
    decide +kernel
  obtain ⟨formula, read, tested⟩ := exists_of_succeedsWith reads
  have builtin : Language.predicate ∈ Registry.builtin.languages := by decide
  refine ⟨formula, read,
    Language.items_show_displayed (Language.validate_of_mem_builtin builtin)
      (Language.indexFree_of_mem_builtin builtin) (by decide) (by decide) read
      ?_⟩
  unfold Formula.isConditionalOfNegations at tested
  split at tested
  · -- No node of `~A → a ≠ b` is a quantifier: the conditional, then its sides.
    refine .of_parts ⟨nofun, nofun⟩ (List.forall_mem_cons.mpr
      ⟨?_, List.forall_mem_singleton.mpr ?_⟩)
    · exact .of_parts ⟨nofun, nofun⟩ (List.forall_mem_singleton.mpr
        (.of_parts ⟨nofun, nofun⟩ (List.forall_mem_nil _)))
    · refine .of_parts ⟨nofun, nofun⟩ (List.forall_mem_singleton.mpr ?_)
      exact .of_parts ⟨nofun, nofun⟩ (List.forall_mem_cons.mpr
        ⟨.of_parts ⟨nofun, nofun⟩ (List.forall_mem_nil _),
          List.forall_mem_singleton.mpr
            (.of_parts ⟨nofun, nofun⟩ (List.forall_mem_nil _))⟩)
  · cases tested

end SymbolicLogic
