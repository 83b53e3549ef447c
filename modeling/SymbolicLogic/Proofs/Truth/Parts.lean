import SymbolicLogic.Truth.Decomposition

/-!
# The parts of a formula

A formula is taken apart at negations and binary formulas, whether it carries a
substitution or not; every other formula is basic. The value of a formula and
the list of its displayed parts are given by recursion on this structure. What a
connective says of the values of its sides is said in terms of propositions.
-/

namespace SymbolicLogic

namespace Connective

/-- What a connective says of two propositions. -/
def Holds (left right : Prop) : Connective -> Prop
  | .conditional => left -> right
  | .conjunction => left ∧ right
  | .disjunction => left ∨ right
  | .biconditional => left ↔ right
  | .nand => ¬(left ∧ right)
  | .nor => ¬(left ∨ right)

instance (connective : Connective) (left right : Prop) [Decidable left]
    [Decidable right] : Decidable (connective.Holds left right) :=
  match connective with
  | .conditional => inferInstanceAs (Decidable (left -> right))
  | .conjunction => inferInstanceAs (Decidable (left ∧ right))
  | .disjunction => inferInstanceAs (Decidable (left ∨ right))
  | .biconditional => inferInstanceAs (Decidable (left ↔ right))
  | .nand => inferInstanceAs (Decidable ¬(left ∧ right))
  | .nor => inferInstanceAs (Decidable ¬(left ∨ right))

/-- The truth function of a connective is true where what it says holds. -/
theorem apply_eq (connective : Connective) (left right : Bool) :
    connective.apply left right =
      decide (connective.Holds (left = true) (right = true)) := by
  cases connective <;> cases left <;> cases right <;> rfl

end Connective

mutual

/-- The value of a formula. A negation is true if its operand is not, a binary formula
if its sides are as the connective says, and any other formula has the value of the
first declared basic formula which is the same. -/
def Formula.evaluate?
    (formula : Formula)
    (basics : List Formula)
    (interpretation : Interpretation) : Option Bool :=
  match formula with
  | .plain shape => shape.evaluate? (.plain shape) basics interpretation
  | .transformed shape transform =>
      shape.evaluate? (.transformed shape transform) basics interpretation
termination_by structural formula

def FormulaShape.evaluate?
    (shape : FormulaShape)
    (formula : Formula)
    (basics : List Formula)
    (interpretation : Interpretation) : Option Bool :=
  match shape with
  | .negation _ operand => (operand.evaluate? basics interpretation).map not
  | .binary _ connective left right _ => do
      let first <- left.evaluate? basics interpretation
      let second <- right.evaluate? basics interpretation
      return decide (connective.Holds (first = true) (second = true))
  | _ =>
      (basics.findIdx? fun basic => basic.same formula).map
        interpretation.value
termination_by structural shape

end

mutual

/-- The parts of a formula that have a column, in the order of the columns. -/
def Formula.displayedParts (formula : Formula) : List Formula :=
  match formula with
  | .plain shape => shape.displayedParts (.plain shape)
  | .transformed shape transform =>
      shape.displayedParts (.transformed shape transform)
termination_by structural formula

def FormulaShape.displayedParts
    (shape : FormulaShape)
    (formula : Formula) : List Formula :=
  match shape with
  | .negation _ operand =>
      formula :: if operand.isAbsorbed then [] else operand.displayedParts
  | .binary _ _ left right _ =>
      left.displayedParts ++ formula :: right.displayedParts
  | _ => [formula]
termination_by structural shape

end

namespace Formula

variable {formula operand left right : Formula} {symbol : Symbol}
  {connective : Connective} {brackets : Option Brackets}
  {basics : List Formula} {interpretation : Interpretation}

theorem level_eq (formula : Formula) : formula.level = formula.shape.level := by
  cases formula <;> rfl

/-- Parts are on lower levels, so that they are computed first. -/
theorem level_lt_of_negation
    (equation : formula.shape = .negation symbol operand) :
    operand.level < formula.level := by
  rw [level_eq formula, equation, FormulaShape.level]
  exact Nat.lt_succ_self _

/-- Both sides of a binary formula have lower levels. -/
theorem level_lt_of_binary
    (equation : formula.shape =
      .binary symbol connective left right brackets) :
    left.level < formula.level ∧ right.level < formula.level := by
  rw [level_eq formula, equation, FormulaShape.level]
  omega

/-- A negation is evaluated by its operand. -/
theorem evaluate?_of_negation
    (equation : formula.shape = .negation symbol operand) :
    formula.evaluate? basics interpretation =
      (operand.evaluate? basics interpretation).map not := by
  cases formula <;> cases equation <;> rfl

/-- A binary formula is evaluated by its sides and the meaning of its connective. -/
theorem evaluate?_of_binary
    (equation : formula.shape =
      .binary symbol connective left right brackets) :
    formula.evaluate? basics interpretation = do
      let first <- left.evaluate? basics interpretation
      let second <- right.evaluate? basics interpretation
      return decide (connective.Holds (first = true) (second = true)) := by
  cases formula <;> cases equation <;> rfl

/-- A basic formula has the value of the first declaration that is the same. -/
theorem evaluate?_of_isBasic (isBasic : formula.isBasic = true) :
    formula.evaluate? basics interpretation =
      (basics.findIdx? fun basic => basic.same formula).map
        interpretation.value := by
  cases formula with
  | plain shape => cases shape <;> first | rfl | cases isBasic
  | transformed shape transform =>
      cases shape <;> first | rfl | cases isBasic

/-- A negation is displayed before its operand, which may be absorbed. -/
theorem displayedParts_of_negation
    (equation : formula.shape = .negation symbol operand) :
    formula.displayedParts =
      formula :: if operand.isAbsorbed then [] else operand.displayedParts := by
  cases formula <;> cases equation <;> rfl

/-- A binary formula is displayed between its sides. -/
theorem displayedParts_of_binary
    (equation : formula.shape =
      .binary symbol connective left right brackets) :
    formula.displayedParts =
      left.displayedParts ++ formula :: right.displayedParts := by
  cases formula <;> cases equation <;> rfl

theorem displayedParts_of_isBasic (isBasic : formula.isBasic = true) :
    formula.displayedParts = [formula] := by
  cases formula with
  | plain shape => cases shape <;> first | rfl | cases isBasic
  | transformed shape transform =>
      cases shape <;> first | rfl | cases isBasic

/-- Induction along the parts of a formula. -/
theorem partInduction
    {motive : Formula -> Prop}
    (negation : ∀ formula symbol operand,
      formula.shape = .negation symbol operand -> motive operand ->
        motive formula)
    (binary : ∀ formula symbol connective left right brackets,
      formula.shape = .binary symbol connective left right brackets ->
        motive left -> motive right -> motive formula)
    (basic : ∀ formula : Formula, formula.isBasic = true -> motive formula)
    (formula : Formula) : motive formula := by
  cases isBasic : formula.isBasic with
  | true => exact basic formula isBasic
  | false =>
      rcases (isBasic_eq_false_iff formula).mp isBasic with
        ⟨symbol, operand, equation⟩ |
          ⟨symbol, connective, left, right, brackets, equation⟩
      · have operandLower := level_lt_of_negation equation
        exact negation formula symbol operand equation
          (partInduction negation binary basic operand)
      · have ⟨leftLower, rightLower⟩ := level_lt_of_binary equation
        exact binary formula symbol connective left right brackets equation
          (partInduction negation binary basic left)
          (partInduction negation binary basic right)
termination_by formula.level

end Formula
end SymbolicLogic
