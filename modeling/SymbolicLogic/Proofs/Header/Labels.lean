import SymbolicLogic.Proofs.Expression.Nodes
import SymbolicLogic.Proofs.Header.Formulas

/-!
# What an item is to show

The item of a displayed part shows the glyph of its operator, if the part is
written with one: a binary formula, or a negation with its glyph in front. Every
other part is shown as a whole, as it would be written on its own. How deep a part
stands in brackets changes the styles of its brackets only, so it is written
there as it would be on its own.
-/

namespace SymbolicLogic

open Grammar Rendering TextRun

namespace TextRun

theorem characters_flatten (items : List (List TextRun)) :
    characters items.flatten = (items.map characters).flatten := by
  induction items with
  | nil => rfl
  | cons item items inductionHypothesis => simp [inductionHypothesis]

theorem characters_separated (items : List (List TextRun)) :
    characters (separated items) =
      ((items.map characters).intersperse ", ".toList).flatten := by
  induction items with
  | nil => rfl
  | cons item items inductionHypothesis =>
      cases items with
      | nil => simp [separated]
      | cons next items =>
          rw [characters_separated_cons, inductionHypothesis]
          simp

end TextRun

mutual

/-- Depth shades the brackets of a term and changes none of its characters. -/
theorem Term.characters_pieces (term : Term) (depth depth' : Nat) :
    characters (term.pieces depth) = characters (term.pieces depth') := by
  match term with
  | .plain shape => exact TermShape.characters_pieces shape depth depth'
  | .transformed shape .. =>
      simp [Term.pieces, TermShape.characters_pieces shape depth depth']

theorem TermShape.characters_pieces (shape : TermShape) (depth depth' : Nat) :
    characters (shape.pieces depth) = characters (shape.pieces depth') := by
  match shape with
  | .leaf .. => rfl
  | .apply _ _ args _ =>
      simp [TermShape.pieces, characters_separated,
        Term.characters_piecesOfAll args (depth + 1) (depth' + 1)]
  | .operation _ left right _ =>
      simp [TermShape.pieces,
        Term.characters_pieces left (depth + 1) (depth' + 1),
        Term.characters_pieces right (depth + 1) (depth' + 1)]

theorem Term.characters_piecesOfAll (terms : List Term) (depth depth' : Nat) :
    (Term.piecesOfAll terms depth).map characters =
      (Term.piecesOfAll terms depth').map characters := by
  match terms with
  | [] => rfl
  | term :: terms =>
      simp [Term.piecesOfAll, Term.characters_pieces term depth depth',
        Term.characters_piecesOfAll terms depth depth']

end

mutual

/-- Nor does it change the characters of a formula. -/
theorem Formula.characters_pieces
    (formula : Formula)
    (depth depth' : Nat)
    (root : Bool) :
    characters (formula.pieces depth root) =
      characters (formula.pieces depth' root) := by
  match formula with
  | .plain shape => exact FormulaShape.characters_pieces shape depth depth' root
  | .transformed shape _ =>
      simp [Formula.pieces,
        FormulaShape.characters_pieces shape depth depth' false]

theorem FormulaShape.characters_pieces
    (shape : FormulaShape)
    (depth depth' : Nat)
    (bare : Bool) :
    characters (shape.pieces depth bare) =
      characters (shape.pieces depth' bare) := by
  match shape with
  | .leaf .. => rfl
  | .relation _ args =>
      simp [FormulaShape.pieces, characters_flatten,
        Term.characters_piecesOfAll args depth depth']
  | .comparison _ left right _ =>
      simp [FormulaShape.pieces, left.characters_pieces depth depth',
        right.characters_pieces depth depth']
  | .complexMeta _ params _ =>
      simp [FormulaShape.pieces, characters_separated,
        Term.characters_piecesOfAll params (depth + 1) (depth' + 1)]
  | .negation _ operand =>
      have operands := Formula.characters_pieces operand depth depth' false
      simp only [FormulaShape.pieces]
      split
      · rfl
      · simp [operands]
  | .binary _ _ left right brackets =>
      have lefts := Formula.characters_pieces left
      have rights := Formula.characters_pieces right
      simp only [FormulaShape.pieces]
      split
      · simp [lefts (depth + 1) (depth' + 1), rights (depth + 1) (depth' + 1)]
      · split
        · simp [lefts depth depth', rights depth depth']
        · simp [lefts (depth + 1) (depth' + 1), rights (depth + 1) (depth' + 1)]
  | .quantified _ _ boundVariable restriction scope =>
      simp only [FormulaShape.pieces, characters_append,
        Formula.characters_pieces scope depth depth' false]
      congr 1
      exact Restriction.characters_pieces restriction depth depth'
        (by simp [boundVariable.characters_pieces depth depth'])

theorem Restriction.characters_pieces
    (restriction : Restriction)
    (depth depth' : Nat)
    {quantifier quantifier' : List TextRun}
    (quantifiers : characters quantifier = characters quantifier') :
    characters (restriction.pieces depth quantifier) =
      characters (restriction.pieces depth' quantifier') := by
  match restriction with
  | .unrestricted => exact quantifiers
  | .bounded _ bound _ =>
      simp [Restriction.pieces, quantifiers,
        bound.characters_pieces (depth + 1) (depth' + 1)]
  | .restricted _ formula _ =>
      simp [Restriction.pieces, quantifiers,
        Formula.characters_pieces formula (depth + 1) (depth' + 1) false]

end

/-- The formula is written with its operator: it is binary, or has a negation
glyph in front. -/
def FormulaShape.isOperated : FormulaShape -> Bool
  | .negation _ operand => !operand.isAbsorbed
  | .binary .. => true
  | _ => false

theorem FormulaShape.isNegated_of_not_operated
    {shape : FormulaShape}
    (whole : shape.isOperated = false) : shape.isNegated = false := by
  cases shape <;> first | exact whole | rfl

namespace Formula

/-- What the item of a displayed part shows of it. -/
def label (formula : Formula) : String :=
  match formula.shape with
  | .negation symbol operand =>
      if operand.isAbsorbed then formula.text else symbol.text
  | .binary symbol _ _ _ _ => symbol.text
  | _ => formula.text

variable {formula operand left right : Formula} {symbol : Symbol}
  {connective : Connective} {brackets : Option Brackets}

/-- A negation that is displayed is labelled by its symbol. -/
theorem label_of_negation
    (shapeEq : formula.shape = .negation symbol operand)
    (shown : operand.isAbsorbed = false) : formula.label = symbol.text := by
  rw [label, shapeEq]
  simp [shown]

/-- A binary formula is labelled by its connective. -/
theorem label_of_binary
    (shapeEq : formula.shape =
      .binary symbol connective left right brackets) :
    formula.label = symbol.text := by
  rw [label, shapeEq]

/-- A part without a glyph of its own is one item, which shows all of it. -/
theorem displayedParts_of_not_operated
    (whole : formula.shape.isOperated = false) :
    formula.displayedParts = [formula] ∧ formula.label = formula.text := by
  cases shapeEq : formula.shape with
  | negation symbol operand =>
      rw [shapeEq, FormulaShape.isOperated, Bool.not_eq_false'] at whole
      rw [displayedParts_of_negation shapeEq, label, shapeEq]
      simp [whole]
  | binary =>
      rw [shapeEq] at whole
      cases whole
  | _ =>
      have basic : formula.isBasic = true := by
        rw [← Bool.not_eq_false, isBasic_eq_false_iff, shapeEq]
        rintro (⟨_, _, shape⟩ | ⟨_, _, _, _, _, shape⟩) <;> cases shape
      rw [displayedParts_of_isBasic basic, label, shapeEq]
      exact ⟨rfl, rfl⟩

/-- Displayed parts are parts of the formula. -/
theorem occursIn_of_mem_displayedParts
    {part : Formula}
    (member : part ∈ formula.displayedParts) :
    (Expression.formula part).OccursIn (.formula formula) := by
  induction formula using partInduction with
  | negation formula symbol operand shapeEq inductionHypothesis =>
      have isChild :
          Expression.formula operand ∈ (Expression.formula formula).children := by
        simp [Expression.children, shapeEq, FormulaShape.children]
      rw [displayedParts_of_negation shapeEq] at member
      rcases List.mem_cons.mp member with rfl | member
      · exact .whole
      · split at member
        · cases member
        · exact .part isChild (inductionHypothesis member)
  | binary formula symbol connective left right brackets shapeEq ofLeft ofRight =>
      have areChildren : (Expression.formula formula).children =
          [.formula left, .formula right] := by
        simp [Expression.children, shapeEq, FormulaShape.children]
      rw [displayedParts_of_binary shapeEq] at member
      rcases List.mem_append.mp member with member | member
      · exact .part (by simp [areChildren]) (ofLeft member)
      · rcases List.mem_cons.mp member with rfl | member
        · exact .whole
        · exact .part (by simp [areChildren]) (ofRight member)
  | basic formula isBasic =>
      rw [displayedParts_of_isBasic isBasic] at member
      cases List.mem_singleton.mp member
      exact .whole

/-- Without a quantifier that is restricted by a formula, nothing is torn
apart. -/
theorem isAligned_of_unrestricted
    (unrestricted : (Expression.formula formula).Everywhere fun node =>
      node.kind ≠ .restrictedUniversal ∧ node.kind ≠ .restrictedExistential) :
    formula.IsAligned := by
  intro part member
  obtain ⟨notUniversal, notExistential⟩ :=
    unrestricted _ (occursIn_of_mem_displayedParts member)
  rw [Expression.kind] at notUniversal notExistential
  cases shapeEq : part.shape with
  | quantified _ quantifier _ restriction =>
      rw [shapeEq, FormulaShape.kind] at notUniversal notExistential
      cases restriction with
      | restricted =>
          cases quantifier with
          | universal => exact absurd rfl notUniversal
          | existential => exact absurd rfl notExistential
      | unrestricted | bounded => rfl
  | _ => rfl

end Formula

/-- Below brackets, a formula that was read is written as it is on its own. -/
theorem Grammar.FormulaDerivation.characters_eq_text
    {negationSymbol : Symbol}
    {tokens : List Token}
    {whole : Formula}
    (derivation : FormulaDerivation negationSymbol tokens whole)
    (depth : Nat) :
    characters (whole.pieces depth false) = whole.text.toList := by
  rw [whole.characters_pieces depth 0, ← derivation.pieces_root]
  rfl

end SymbolicLogic
