import SymbolicLogic.Proofs.Expression.Readings
import SymbolicLogic.Proofs.Truth.Parts

/-!
# Formulas that are built alike

Two formulas are built alike when they are taken apart in the same way, down to basic
parts that correspond to each other. Formulas that are the same are built alike, and
so are a formula and what a substitution or carrying out makes of it. The value of a
formula depends on how it is built and on the values of its basic parts, and on
nothing else: a substitution that is pending at a negation or a binary formula has
no bearing on it.
-/

namespace SymbolicLogic

mutual

/-- The basic formulas that a formula is built from, in order. -/
def Formula.basicParts (formula : Formula) : List Formula :=
  match formula with
  | .plain shape => shape.basicParts (.plain shape)
  | .transformed shape transform =>
      shape.basicParts (.transformed shape transform)
termination_by structural formula

def FormulaShape.basicParts
    (shape : FormulaShape)
    (formula : Formula) : List Formula :=
  match shape with
  | .negation _ operand => operand.basicParts
  | .binary _ _ left right _ => left.basicParts ++ right.basicParts
  | _ => [formula]
termination_by structural shape

end

namespace Formula

variable {formula operand left right : Formula} {symbol : Symbol}
  {connective : Connective} {brackets : Option Brackets}

theorem basicParts_of_negation
    (equation : formula.shape = .negation symbol operand) :
    formula.basicParts = operand.basicParts := by
  cases formula <;> cases equation <;> rfl

theorem basicParts_of_binary
    (equation : formula.shape =
      .binary symbol connective left right brackets) :
    formula.basicParts = left.basicParts ++ right.basicParts := by
  cases formula <;> cases equation <;> rfl

theorem basicParts_of_isBasic (isBasic : formula.isBasic = true) :
    formula.basicParts = [formula] := by
  cases formula with
  | plain shape => cases shape <;> first | rfl | cases isBasic
  | transformed shape transform =>
      cases shape <;> first | rfl | cases isBasic

/-- Whether a formula is basic can be told from its head. -/
theorem isBasic_eq (formula : Formula) :
    formula.isBasic =
      match formula.shape.head with
      | .negation _ | .binary .. => false
      | _ => true := by
  cases shapeEq : formula.shape <;>
    simp [isBasic, shapeEq, FormulaShape.children, FormulaShape.head,
      Expression.isSentence]
  case relation symbol args => cases args <;> simp
  case complexMeta symbol params brackets => cases params <;> simp

theorem isBasic_congr
    {first second : Formula}
    (heads : first.shape.head = second.shape.head) :
    first.isBasic = second.isBasic := by
  rw [isBasic_eq, isBasic_eq, heads]

/-- The formulas are taken apart in the same way, and corresponding basic parts are
related. -/
inductive BuiltAlike (related : Formula -> Formula -> Prop) :
    Formula -> Formula -> Prop
  | basic
      {first second : Formula}
      (isBasic : first.isBasic = true)
      (isBasic' : second.isBasic = true)
      (are : related first second) : BuiltAlike related first second
  | negation
      {first second operand operand' : Formula}
      {symbol symbol' : Symbol}
      (shape_eq : first.shape = .negation symbol operand)
      (shape_eq' : second.shape = .negation symbol' operand')
      (operands : BuiltAlike related operand operand') :
      BuiltAlike related first second
  | binary
      {first second left right left' right' : Formula}
      {symbol symbol' : Symbol}
      {connective : Connective}
      {brackets brackets' : Option Brackets}
      (shape_eq : first.shape = .binary symbol connective left right brackets)
      (shape_eq' :
        second.shape = .binary symbol' connective left' right' brackets')
      (lefts : BuiltAlike related left left')
      (rights : BuiltAlike related right right') :
      BuiltAlike related first second

namespace BuiltAlike

variable {related related' : Formula -> Formula -> Prop}
  {first second third : Formula}

/-- Formulas that are built alike from related parts are so from parts with a weaker
relation. -/
theorem imp
    (builtAlike : BuiltAlike related first second)
    (implies : ∀ {part part' : Formula}, part.isBasic = true ->
      related part part' -> related' part part') :
    BuiltAlike related' first second := by
  induction builtAlike with
  | basic isBasic isBasic' are => exact .basic isBasic isBasic' (implies isBasic are)
  | negation shapeEq shapeEq' _ operands => exact .negation shapeEq shapeEq' operands
  | binary shapeEq shapeEq' _ _ lefts rights =>
      exact .binary shapeEq shapeEq' lefts rights

/-- The basic parts of formulas that are built alike correspond to each other. -/
theorem forall₂_basicParts (builtAlike : BuiltAlike related first second) :
    List.Forall₂ related first.basicParts second.basicParts := by
  induction builtAlike with
  | basic isBasic isBasic' are =>
      rw [basicParts_of_isBasic isBasic, basicParts_of_isBasic isBasic']
      exact .cons are .nil
  | negation shapeEq shapeEq' _ operands =>
      rw [basicParts_of_negation shapeEq, basicParts_of_negation shapeEq']
      exact operands
  | binary shapeEq shapeEq' _ _ lefts rights =>
      rw [basicParts_of_binary shapeEq, basicParts_of_binary shapeEq']
      exact List.rel_append lefts rights

/-- Formulas that are built alike are so with respect to whatever relates their basic
parts. -/
theorem of_forall₂
    (builtAlike : BuiltAlike related first second)
    (parts : List.Forall₂ related' first.basicParts second.basicParts) :
    BuiltAlike related' first second := by
  induction builtAlike with
  | basic isBasic isBasic' _ =>
      rw [basicParts_of_isBasic isBasic, basicParts_of_isBasic isBasic'] at parts
      cases parts with
      | cons are _ => exact .basic isBasic isBasic' are
  | negation shapeEq shapeEq' _ inductionHypothesis =>
      rw [basicParts_of_negation shapeEq, basicParts_of_negation shapeEq'] at parts
      exact .negation shapeEq shapeEq' (inductionHypothesis parts)
  | binary shapeEq shapeEq' lefts _ inductionLeft inductionRight =>
      rw [basicParts_of_binary shapeEq, basicParts_of_binary shapeEq'] at parts
      have lengths := lefts.forall₂_basicParts.length_eq
      have first := List.forall₂_take_append _ _ _ parts
      have others := List.forall₂_drop_append _ _ _ parts
      rw [← lengths, List.take_left] at first
      rw [← lengths, List.drop_left] at others
      exact .binary shapeEq shapeEq' (inductionLeft first) (inductionRight others)

/-- Being built alike carries over, whatever relates the basic parts. -/
theorem trans
    (builtAlike : BuiltAlike related first second)
    (builtAlike' : BuiltAlike related' second third) :
    BuiltAlike (fun _ _ => True) first third := by
  induction builtAlike generalizing third with
  | basic isBasic isBasic' _ =>
      cases builtAlike' with
      | basic _ isBasic'' => exact .basic isBasic isBasic'' trivial
      | negation shapeEq | binary shapeEq =>
          rw [isBasic_eq, shapeEq] at isBasic'
          cases isBasic'
  | negation shapeEq shapeEq' _ inductionHypothesis =>
      cases builtAlike' with
      | basic isBasic =>
          rw [isBasic_eq, shapeEq'] at isBasic
          cases isBasic
      | negation middleEq thirdEq operands =>
          cases shapeEq'.symm.trans middleEq
          exact .negation shapeEq thirdEq (inductionHypothesis operands)
      | binary middleEq => cases shapeEq'.symm.trans middleEq
  | binary shapeEq shapeEq' _ _ inductionLeft inductionRight =>
      cases builtAlike' with
      | basic isBasic =>
          rw [isBasic_eq, shapeEq'] at isBasic
          cases isBasic
      | negation middleEq => cases shapeEq'.symm.trans middleEq
      | binary middleEq thirdEq lefts rights =>
          cases shapeEq'.symm.trans middleEq
          exact .binary shapeEq thirdEq (inductionLeft lefts)
            (inductionRight rights)

/-- Whether formulas are built alike can be told from their shapes. -/
theorem of_shape
    (builtAlike : BuiltAlike related first second)
    (shapeEq : third.shape = second.shape) :
    BuiltAlike (fun _ _ => True) first third := by
  cases builtAlike with
  | basic isBasic isBasic' _ =>
      rw [← isBasic_congr (congrArg FormulaShape.head shapeEq)] at isBasic'
      exact .basic isBasic isBasic' trivial
  | negation shapeEq' shapeEq'' operands =>
      exact .negation shapeEq' (shapeEq.trans shapeEq'')
        (operands.imp fun _ _ => trivial)
  | binary shapeEq' shapeEq'' lefts rights =>
      exact .binary shapeEq' (shapeEq.trans shapeEq'')
        (lefts.imp fun _ _ => trivial) (rights.imp fun _ _ => trivial)

variable {basics : List Formula} {interpretation interpretation' : Interpretation}

/-- The value depends on how the formula is built and on the values of its basic
parts. -/
theorem evaluate?_eq
    (builtAlike : BuiltAlike
      (fun part part' =>
        part.evaluate? basics interpretation =
          part'.evaluate? basics interpretation')
      first second) :
    first.evaluate? basics interpretation =
      second.evaluate? basics interpretation' := by
  induction builtAlike with
  | basic _ _ are => exact are
  | negation shapeEq shapeEq' _ operands =>
      rw [evaluate?_of_negation shapeEq, evaluate?_of_negation shapeEq', operands]
  | binary shapeEq shapeEq' _ _ lefts rights =>
      rw [evaluate?_of_binary shapeEq, evaluate?_of_binary shapeEq', lefts, rights]

end BuiltAlike

/-- The shapes of formulas that are the same are the same. -/
theorem shape_same {first second : Formula} (same : first.same second = true) :
    first.shape.same second.shape = true := by
  match first, second with
  | .plain _, .plain _ => exact same
  | .transformed .., .transformed .. => exact (Bool.and_eq_true_iff.mp same).1
  | .plain _, .transformed .. | .transformed .., .plain _ => cases same

section Same

variable {first second third : Formula}
  (same : first.same second = true)

include same

theorem exists_negation_of_same
    (shapeEq : first.shape = .negation symbol operand) :
    ∃ symbol' operand', second.shape = .negation symbol' operand' ∧
      operand.same operand' = true := by
  have shapes := shape_same same
  rw [shapeEq] at shapes
  cases shapeEq' : second.shape with
  | negation symbol' operand' =>
      rw [shapeEq', FormulaShape.same, Bool.and_eq_true] at shapes
      exact ⟨symbol', operand', rfl, shapes.2⟩
  | _ => rw [shapeEq'] at shapes; cases shapes

theorem exists_binary_of_same
    (shapeEq : first.shape = .binary symbol connective left right brackets) :
    ∃ symbol' left' right' brackets',
      second.shape = .binary symbol' connective left' right' brackets' ∧
        left.same left' = true ∧ right.same right' = true := by
  have shapes := shape_same same
  rw [shapeEq] at shapes
  cases shapeEq' : second.shape with
  | binary symbol' connective' left' right' brackets' =>
      rw [shapeEq'] at shapes
      simp only [FormulaShape.same, Bool.and_eq_true, decide_eq_true_eq] at shapes
      obtain ⟨⟨⟨-, rfl⟩, lefts⟩, rights⟩ := shapes
      exact ⟨symbol', left', right', brackets', rfl, lefts, rights⟩
  | _ => rw [shapeEq'] at shapes; cases shapes

/-- Formulas that are the same are built alike. -/
theorem builtAlike_of_same :
    BuiltAlike (fun part part' => part.same part' = true) first second := by
  induction first using partInduction generalizing second with
  | negation first symbol operand shapeEq inductionHypothesis =>
      obtain ⟨symbol', operand', shapeEq', operands⟩ :=
        exists_negation_of_same same shapeEq
      exact .negation shapeEq shapeEq' (inductionHypothesis operands)
  | binary first symbol connective left right brackets shapeEq inductionLeft
      inductionRight =>
      obtain ⟨symbol', left', right', brackets', shapeEq', lefts, rights⟩ :=
        exists_binary_of_same same shapeEq
      exact .binary shapeEq shapeEq' (inductionLeft lefts) (inductionRight rights)
  | basic first isBasic =>
      exact .basic isBasic ((isBasic_eq_of_same same).symm.trans isBasic) same

/-- Formulas that are the same are the same as the same declared formulas. -/
theorem findIdx?_of_same (basics : List Formula) :
    (basics.findIdx? fun basic => basic.same first) =
      basics.findIdx? fun basic => basic.same second := by
  congr 1
  funext basic
  rw [Formula.same_iff] at same
  rw [Bool.eq_iff_iff, Formula.same_iff, Formula.same_iff, same]

/-- Formulas that are the same have the same value, in interpretations that differ at
most for declared formulas that are not basic. -/
theorem evaluate?_of_same
    {basics : List Formula}
    {interpretation interpretation' : Interpretation}
    (agree : ∀ (place : Nat) (declared : Formula),
      basics[place]? = some declared -> declared.isBasic = true ->
        interpretation.value place = interpretation'.value place) :
    first.evaluate? basics interpretation =
      second.evaluate? basics interpretation' := by
  refine ((builtAlike_of_same same).imp fun isBasic are => ?_).evaluate?_eq
  have isBasic' := (isBasic_eq_of_same are).symm.trans isBasic
  rw [evaluate?_of_isBasic isBasic, evaluate?_of_isBasic isBasic',
    findIdx?_of_same are]
  refine Option.map_congr fun place found => ?_
  obtain ⟨inside, declared, -⟩ := List.findIdx?_eq_some_iff_getElem.mp found
  refine agree place _ (List.getElem?_eq_getElem inside) ?_
  rw [isBasic_eq_of_same declared, isBasic']

end Same

theorem shape_substitute (formula : Formula) (target replacement : Term) :
    (formula.substitute target replacement).shape =
      formula.shape.substitute target replacement := by
  cases formula <;> rfl

theorem head_substitute (shape : FormulaShape) (target replacement : Term) :
    (shape.substitute target replacement).head = shape.head := by
  cases shape with
  | quantified _ _ _ restriction => cases restriction <;> rfl
  | _ => rfl

/-- Substitution leaves basic formulas basic, and the others taken apart. -/
theorem isBasic_substitute (formula : Formula) (target replacement : Term) :
    (formula.substitute target replacement).isBasic = formula.isBasic := by
  apply isBasic_congr
  rw [shape_substitute, head_substitute]

/-- Substitution reaches the basic parts and leaves what is built from them. -/
theorem builtAlike_substitute (formula : Formula) (target replacement : Term) :
    BuiltAlike (fun part part' => part' = part.substitute target replacement)
      formula (formula.substitute target replacement) := by
  have shapeEq' := formula.shape_substitute target replacement
  induction formula using partInduction with
  | negation formula symbol operand shapeEq inductionHypothesis =>
      rw [shapeEq] at shapeEq'
      exact .negation shapeEq shapeEq'
        (inductionHypothesis (operand.shape_substitute _ _))
  | binary formula symbol connective left right brackets shapeEq inductionLeft
      inductionRight =>
      rw [shapeEq] at shapeEq'
      exact .binary shapeEq shapeEq'
        (inductionLeft (left.shape_substitute _ _))
        (inductionRight (right.shape_substitute _ _))
  | basic formula isBasic =>
      refine .basic isBasic ?_ rfl
      rw [isBasic_substitute, isBasic]

/-- A substitution that is settled leaves a formula built as before. -/
theorem BuiltAlike.settle
    {related : Formula -> Formula -> Prop}
    {first second : Formula}
    (builtAlike : BuiltAlike related first second)
    (transform : Transform) :
    BuiltAlike (fun _ _ => True) first (second.settle transform) := by
  rw [Formula.settle]
  split
  · exact builtAlike.of_shape rfl
  · exact builtAlike.trans (second.builtAlike_substitute _ _)

/-- A pending substitution only settles on what carrying out makes of its carrier. -/
theorem builtAlike_carryOut_of_withoutTransform
    {first second : Formula}
    (builtAlike :
      BuiltAlike (fun _ _ => True) first second.withoutTransform.carryOut) :
    BuiltAlike (fun _ _ => True) first second.carryOut := by
  cases second with
  | plain => exact builtAlike
  | transformed => exact builtAlike.settle _

/-- A formula is built as what carrying out makes of it. -/
theorem builtAlike_carryOut (formula : Formula) :
    BuiltAlike (fun _ _ => True) formula formula.carryOut := by
  induction formula using partInduction with
  | negation formula symbol operand shapeEq inductionHypothesis =>
      have carried : formula.withoutTransform.carryOut.shape =
          .negation symbol operand.carryOut := by
        rw [withoutTransform, shapeEq]
        rfl
      exact builtAlike_carryOut_of_withoutTransform
        (.negation shapeEq carried inductionHypothesis)
  | binary formula symbol connective left right brackets shapeEq inductionLeft
      inductionRight =>
      have carried : formula.withoutTransform.carryOut.shape =
          .binary symbol connective left.carryOut right.carryOut brackets := by
        rw [withoutTransform, shapeEq]
        rfl
      exact builtAlike_carryOut_of_withoutTransform
        (.binary shapeEq carried inductionLeft inductionRight)
  | basic formula isBasic =>
      have plain : (Expression.formula formula.withoutTransform).transform? = none :=
        rfl
      have heads : formula.withoutTransform.carryOut.shape.head =
          formula.shape.head :=
        Expression.head_readBy_of_keeps plain (.carryOut _)
      exact builtAlike_carryOut_of_withoutTransform
        (.basic isBasic ((isBasic_congr heads).trans isBasic) trivial)

end Formula
end SymbolicLogic
