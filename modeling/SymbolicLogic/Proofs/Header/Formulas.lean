import SymbolicLogic.Proofs.Header.Counting
import SymbolicLogic.Proofs.Header.Terms
import SymbolicLogic.Proofs.Truth.Parts

/-!
# Formulas in headers

Where an item may begin, a formula makes one item for each displayed part. The
exception is a quantifier restricted by a formula with a negation glyph in front,
as in `(∀x: ~Fx)Gx`: the blank before the glyph ends the item, and there is an
item more at least. Below a binder, and inside its brackets, formulas make no
items at all.
-/

namespace SymbolicLogic

/-- The formula is written with a negation glyph in front. -/
def FormulaShape.isNegated : FormulaShape -> Bool
  | .negation _ operand => !operand.isAbsorbed
  | _ => false

/-- The formula is neither truth-functional nor quantified. -/
def FormulaShape.isAtomic : FormulaShape -> Bool
  | .leaf .. | .relation .. | .comparison .. | .complexMeta .. => true
  | _ => false

/-- The restriction is a formula with a negation glyph in front. -/
def Restriction.splitsHeader : Restriction -> Bool
  | .restricted _ formula _ => formula.shape.isNegated
  | _ => false

/-- The header of the formula has its quantifier torn apart. -/
def FormulaShape.splitsHeader : FormulaShape -> Bool
  | .quantified _ _ _ restriction _ => restriction.splitsHeader
  | _ => false

namespace Formula

/-- No displayed part of the formula has its quantifier torn apart. -/
def IsAligned (formula : Formula) : Prop :=
  ∀ part ∈ formula.displayedParts, part.shape.splitsHeader = false

instance (formula : Formula) : Decidable formula.IsAligned :=
  inferInstanceAs (Decidable (∀ part ∈ formula.displayedParts, _))

variable {formula operand left right : Formula} {symbol : Symbol}
  {connective : Connective} {brackets : Option Brackets}

theorem isBasic_of_isAtomic (atomic : formula.shape.isAtomic = true) :
    formula.isBasic = true := by
  rw [← Bool.not_eq_false, isBasic_eq_false_iff]
  rintro (⟨_, _, shapeEq⟩ | ⟨_, _, _, _, _, shapeEq⟩)
  · rw [shapeEq] at atomic
    cases atomic
  · rw [shapeEq] at atomic
    cases atomic

theorem isAligned_of_single
    (single : formula.displayedParts = [formula]) :
    formula.IsAligned ↔ formula.shape.splitsHeader = false := by
  rw [IsAligned, single, List.forall_mem_singleton]

/-- A negation whose operand is displayed is aligned exactly if the operand is. -/
theorem isAligned_of_negation
    (shapeEq : formula.shape = .negation symbol operand)
    (shown : operand.isAbsorbed = false) :
    formula.IsAligned ↔ operand.IsAligned := by
  rw [IsAligned, displayedParts_of_negation shapeEq, shown,
    List.forall_mem_cons, shapeEq]
  exact and_iff_right rfl

/-- A binary formula is aligned exactly if both sides are. -/
theorem isAligned_of_binary
    (shapeEq : formula.shape =
      .binary symbol connective left right brackets) :
    formula.IsAligned ↔ left.IsAligned ∧ right.IsAligned := by
  rw [IsAligned, displayedParts_of_binary shapeEq, List.forall_mem_append,
    List.forall_mem_cons, shapeEq]
  exact and_congr_right fun _ => and_iff_right rfl

end Formula

namespace Segmentation

/-- The text of a formula of the given shape, wherever it is read. -/
structure IsUnitText
    (cutting : Segmentation)
    (shape : FormulaShape)
    (text : List Char) : Prop where
  begins : cutting.Begins text shape.isNegated
  stays : cutting.Stays 0 text
  settles : cutting.Settles text
  lays : ∀ formula : Formula, formula.shape = shape ->
    cutting.Lays formula.displayedParts.length formula.IsAligned text

/-- The text of a formula, wherever it is read. -/
structure IsFormulaText
    (cutting : Segmentation)
    (formula : Formula)
    (text : List Char) : Prop where
  begins : cutting.Begins text formula.shape.isNegated
  stays : cutting.Stays 0 text
  settles : cutting.Settles text
  lays : cutting.Lays formula.displayedParts.length formula.IsAligned text

/-- The text of a quantifier with its restriction, which goes with the text of
the scope. -/
structure IsPrefixText
    (cutting : Segmentation)
    (restriction : Restriction)
    (text : List Char) : Prop where
  begins : cutting.Begins text false
  stays : cutting.Stays 0 text
  settles : cutting.Settles text
  lays : ∀ scope, cutting.Stays 0 scope -> cutting.Settles scope ->
    cutting.Lays 1 (restriction.splitsHeader = false) (text ++ scope)

variable {cutting : Segmentation} {text text' word : List Char} {c : Char}
  {shape : FormulaShape} {operand left right restriction scope : Formula}
  {symbol : Symbol} {connective : Connective} {brackets : Brackets}

namespace IsFormulaText

theorem plain (unit : cutting.IsUnitText shape text) :
    cutting.IsFormulaText (.plain shape) text :=
  ⟨unit.begins, unit.stays, unit.settles, unit.lays _ rfl⟩

theorem transformed
    (unit : cutting.IsUnitText shape text)
    (item : cutting.IsItemText text')
    (transform : Transform) :
    cutting.IsFormulaText (.transformed shape transform) (text ++ text') where
  begins := unit.begins.append text'
  stays := unit.stays.append (.of_joins item.joins 0)
  settles := unit.settles.append (.of_joins item.joins)
  lays := (unit.lays _ rfl).append_joins item.joins

end IsFormulaText

namespace IsUnitText

/-- A shape that has one column is a single item. -/
theorem of_isItemText
    (item : cutting.IsItemText text)
    (notNegated : shape.isNegated = false)
    (whole : shape.splitsHeader = false)
    (single : ∀ formula : Formula, formula.shape = shape ->
      formula.displayedParts = [formula]) :
    cutting.IsUnitText shape text where
  begins := by
    rw [notNegated]
    exact item.begins
  stays := .of_joins item.joins 0
  settles := .of_joins item.joins
  lays := by
    intro formula shapeEq
    rw [single formula shapeEq]
    apply (Lays.of_joins item.joins).congr
    rw [Formula.isAligned_of_single (single formula shapeEq), shapeEq]
    exact iff_of_true trivial whole

theorem of_isAtomic
    (item : cutting.IsItemText text)
    (atomic : shape.isAtomic = true) : cutting.IsUnitText shape text := by
  have single (formula : Formula) (shapeEq : formula.shape = shape) :
      formula.displayedParts = [formula] :=
    Formula.displayedParts_of_isBasic
      (Formula.isBasic_of_isAtomic (shapeEq ▸ atomic))
  cases shape with
  | leaf | relation | comparison | complexMeta =>
      exact of_isItemText item rfl rfl single
  | negation | binary | quantified => cases atomic

/-- A negation glyph in front is an item of its own. -/
theorem negation
    (operates : cutting.classOf c = .operator)
    (isUnary : cutting.operators.isUnary c = true)
    (shown : operand.isAbsorbed = false)
    (formulaText : cutting.IsFormulaText operand text) :
    cutting.IsUnitText (.negation symbol operand) (c :: text) where
  begins := by
    rw [FormulaShape.isNegated, shown]
    exact ⟨c, ⟨text, rfl⟩, operates⟩
  stays := (Stays.of_isUnary operates isUnary).append formulaText.stays
  settles := formulaText.settles.operator operates
  lays := by
    intro formula shapeEq
    rw [Formula.displayedParts_of_negation shapeEq, shown]
    exact (formulaText.lays.operator operates).congr
      (Formula.isAligned_of_negation shapeEq shown).symm

/-- The glyph of a connective is an item between those of its operands. -/
theorem lays_binary
    {formula : Formula}
    {brackets : Option Brackets}
    (operates : cutting.classOf c = .operator)
    (textLeft : cutting.IsFormulaText left text)
    (textRight : cutting.IsFormulaText right text')
    (shapeEq : formula.shape =
      .binary symbol connective left right brackets) :
    cutting.Lays formula.displayedParts.length formula.IsAligned
      (text ++ ' ' :: c :: ' ' :: text') := by
  have spaced := textLeft.lays.spaced operates textRight.begins textRight.lays
  have length_eq : formula.displayedParts.length =
      left.displayedParts.length + 1 + right.displayedParts.length := by
    rw [Formula.displayedParts_of_binary shapeEq, List.length_append,
      List.length_cons]
    omega
  rw [length_eq]
  exact spaced.congr (Formula.isAligned_of_binary shapeEq).symm

theorem binary
    (pair : cutting.IsPair brackets)
    (operates : cutting.classOf c = .operator)
    (textLeft : cutting.IsFormulaText left text)
    (textRight : cutting.IsFormulaText right text') :
    cutting.IsUnitText (.binary symbol connective left right (some brackets))
      (enclosedText brackets (text ++ ' ' :: c :: ' ' :: text')) where
  begins := pair.begins _
  stays := by
    have stays := (textLeft.stays.weaken 1).append
      ((Stays.space_inside cutting).append ((Stays.of_operator operates).append
        ((Stays.space_inside cutting).append (textRight.stays.weaken 1))))
    exact stays.enclosed pair
  settles := by
    have begins : cutting.Begins (c :: ' ' :: text') true :=
      ⟨c, ⟨_, rfl⟩, operates⟩
    have settles := textLeft.settles.append
      (((textRight.settles.space textRight.begins).operator operates).space
        begins)
    exact settles.enclosed pair
  lays := fun _ shapeEq =>
    (lays_binary operates textLeft textRight shapeEq).enclosed pair

theorem quantified
    {quantifier : Quantifier}
    {boundVariable : Term}
    {restriction : Restriction}
    (prefixText : cutting.IsPrefixText restriction text)
    (textScope : cutting.IsFormulaText scope text') :
    cutting.IsUnitText
      (.quantified symbol quantifier boundVariable restriction scope)
      (text ++ text') where
  begins := prefixText.begins.append text'
  stays := prefixText.stays.append textScope.stays
  settles := prefixText.settles.append textScope.settles
  lays := by
    intro formula shapeEq
    have single : formula.displayedParts = [formula] := by
      apply Formula.displayedParts_of_isBasic
      rw [Formula.isBasic, shapeEq]
      rfl
    rw [single]
    apply (prefixText.lays text' textScope.stays textScope.settles).congr
    rw [Formula.isAligned_of_single single, shapeEq]
    rfl

end IsUnitText

namespace IsPrefixText

/-- A quantifier that is not torn apart is a single item with its scope. -/
theorem of_binds
    {restriction : Restriction}
    (begins : cutting.Begins text false)
    (binds : cutting.Binds text)
    (whole : restriction.splitsHeader = false) :
    cutting.IsPrefixText restriction text where
  begins := begins
  stays := .of_binds binds 0
  settles := .of_binds binds
  lays := fun _ stays _ =>
    (Lays.of_binds (binds.append stays)).congr (iff_of_true trivial whole)

theorem restricted
    (divider : Symbol)
    (pair : cutting.IsPair brackets)
    (binds : cutting.Binds text)
    (formulaText : cutting.IsFormulaText restriction text') :
    cutting.IsPrefixText (.restricted divider restriction brackets)
      (enclosedText brackets (text ++ ' ' :: text')) where
  begins := pair.begins _
  stays := by
    have stays := (Stays.of_binds binds 1).append
      ((Stays.space_inside cutting).append (formulaText.stays.weaken 1))
    exact stays.enclosed pair
  settles := by
    have settles := (Settles.of_binds binds).append
      (formulaText.settles.space formulaText.begins)
    exact settles.enclosed pair
  lays := by
    intro scope stays settles
    have begins := formulaText.begins
    cases negated : restriction.shape.isNegated with
    | true =>
        rw [negated] at begins
        apply (Lays.broken pair binds begins formulaText.settles settles).congr
        simp [Restriction.splitsHeader, negated]
    | false =>
        rw [negated] at begins
        have whole := (binds.append (formulaText.stays.space begins)).enclosed pair
        apply (Lays.of_binds (whole.append stays)).congr
        simp [Restriction.splitsHeader, negated]

end IsPrefixText
end Segmentation
end SymbolicLogic
