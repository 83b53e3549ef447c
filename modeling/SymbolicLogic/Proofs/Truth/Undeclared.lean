import SymbolicLogic.Proofs.Rendering.Rereading
import SymbolicLogic.Proofs.Truth.Skeleton
import SymbolicLogic.Proofs.Truth.Table

/-!
# Where an undeclared formula is reported

Each basic formula that a main formula is built from is shown by one displayed part:
by itself, or by its negation, if that is written with a complement glyph. Main
formulas are taken apart from the left, so it is the first basic formula without a
declaration that is reported. The column is that of the basic formula itself; without
one, the first column of the main formula stands in for it.
-/

namespace SymbolicLogic

namespace Formula

/-- The formula is the same as a declared one. -/
def IsDeclared (basics : List Formula) (formula : Formula) : Prop :=
  ∃ basic ∈ basics, basic.same formula = true

/-- The basic formula that the column of a displayed part shows, if it shows one. -/
def shownBasic? (part : Formula) : Option Formula :=
  match part.shape with
  | .negation _ operand => if operand.isAbsorbed then some operand else none
  | .binary .. => none
  | _ => some part

/-- The subformula is the first of the basic formulas, from the left, that is not
declared. It is shown by `part`, behind the parts `before`. -/
structure FirstUndeclared
    (basics : List Formula)
    (formula subformula part : Formula)
    (before : List Formula) : Prop where
  displayed : ∃ after, formula.displayedParts = before ++ part :: after
  shows : part.shownBasic? = some subformula
  undeclared : ¬subformula.IsDeclared basics
  declared : ∀ other ∈ before.filterMap shownBasic?, other.IsDeclared basics

variable {formula operand left right part subformula : Formula} {symbol : Symbol}
  {connective : Connective} {brackets : Option Brackets}
  {basics before : List Formula} {shown : Bool} {start : Decomposition}
  {undeclared : Undeclared}

/-- A formula is not found if none that is declared is the same. -/
theorem findIdx?_eq_none_iff_not_isDeclared :
    (basics.findIdx? fun basic => basic.same formula) = none ↔
      ¬formula.IsDeclared basics := by
  rw [List.findIdx?_eq_none_iff]
  simp [IsDeclared]

theorem shownBasic?_of_negation
    (equation : formula.shape = .negation symbol operand) :
    formula.shownBasic? = if operand.isAbsorbed then some operand else none := by
  rw [shownBasic?, equation]

theorem shownBasic?_of_binary
    (equation : formula.shape =
      .binary symbol connective left right brackets) :
    formula.shownBasic? = none := by
  rw [shownBasic?, equation]

theorem shownBasic?_of_isBasic (isBasic : formula.isBasic = true) :
    formula.shownBasic? = some formula := by
  rw [isBasic_eq] at isBasic
  rw [shownBasic?]
  cases shapeEq : formula.shape with
  | negation | binary =>
      rw [shapeEq] at isBasic
      cases isBasic
  | _ => rfl

/-- Only a comparison is written with a complement glyph. -/
theorem isBasic_of_isAbsorbed (absorbed : formula.isAbsorbed = true) :
    formula.isBasic = true := by
  obtain ⟨relation, left, right, complement, rfl⟩ :=
    formula.exists_comparison_of_shown absorbed
  exact isBasic_eq _

/-- The displayed parts show the basic formulas, in order. -/
theorem filterMap_shownBasic? (formula : Formula) :
    formula.displayedParts.filterMap shownBasic? = formula.basicParts := by
  induction formula using partInduction with
  | negation formula symbol operand shapeEq inductionHypothesis =>
      rw [displayedParts_of_negation shapeEq, basicParts_of_negation shapeEq,
        List.filterMap_cons, shownBasic?_of_negation shapeEq]
      cases absorbed : operand.isAbsorbed with
      | false => simpa using inductionHypothesis
      | true => simp [basicParts_of_isBasic (isBasic_of_isAbsorbed absorbed)]
  | binary formula symbol connective left right brackets shapeEq ofLeft ofRight =>
      rw [displayedParts_of_binary shapeEq, basicParts_of_binary shapeEq,
        List.filterMap_append, List.filterMap_cons, shownBasic?_of_binary shapeEq,
        ofLeft, ofRight]
  | basic formula isBasic =>
      rw [displayedParts_of_isBasic isBasic, basicParts_of_isBasic isBasic,
        List.filterMap_cons, shownBasic?_of_isBasic isBasic]
      rfl

/-- The basic formulas of a formula that was taken apart are declared. -/
theorem isDeclared_of_decompose
    {result : Nat × Decomposition}
    (found : formula.decompose basics shown start = .ok result) :
    ∀ part ∈ formula.basicParts, part.IsDeclared basics := by
  induction formula using partInduction generalizing shown start result with
  | negation formula symbol operand shapeEq inductionHypothesis =>
      rw [decompose_of_negation shapeEq] at found
      obtain ⟨_, ofOperand, -⟩ := bind_eq_ok.mp found
      rw [basicParts_of_negation shapeEq]
      exact inductionHypothesis ofOperand
  | binary formula symbol connective left right brackets shapeEq ofLeft ofRight =>
      rw [decompose_of_binary shapeEq] at found
      obtain ⟨_, foundLeft, rest⟩ := bind_eq_ok.mp found
      obtain ⟨_, foundRight, -⟩ := bind_eq_ok.mp rest
      rw [basicParts_of_binary shapeEq]
      exact List.forall_mem_append.mpr ⟨ofLeft foundLeft, ofRight foundRight⟩
  | basic formula isBasic =>
      rw [decompose_of_isBasic isBasic, Decomposition.pushBasic] at found
      rw [basicParts_of_isBasic isBasic, List.forall_mem_singleton]
      split at found
      · next place isPlace =>
          by_contra undeclared
          rw [← findIdx?_eq_none_iff_not_isDeclared, isPlace] at undeclared
          cases undeclared
      · cases found

/-- What is reported of a basic formula. -/
theorem decompose_eq_error_of_isBasic
    (isBasic : formula.isBasic = true)
    (failed : formula.decompose basics shown start = .error undeclared) :
    ¬formula.IsDeclared basics ∧
      undeclared = ⟨formula, if shown then some start.displayed.length else none⟩ := by
  rw [decompose_of_isBasic isBasic, Decomposition.pushBasic] at failed
  split at failed
  · cases failed
  · next none =>
      cases failed
      exact ⟨findIdx?_eq_none_iff_not_isDeclared.mp none, rfl⟩

/-- It is the first basic formula without a declaration that is reported. Its position
counts the displayed parts before it, if it is one of them. -/
theorem exists_firstUndeclared
    (failed : formula.decompose basics true start = .error undeclared) :
    ∃ part before, FirstUndeclared basics formula undeclared.subformula part before ∧
      undeclared.position =
        if part.isBasic then some (start.displayed.length + before.length)
        else none := by
  induction formula using partInduction generalizing start with
  | negation formula symbol operand shapeEq inductionHypothesis =>
      rw [decompose_of_negation shapeEq] at failed
      rcases bind_eq_error.mp failed with ofOperand | ⟨_, -, ⟨⟩⟩
      have shows := shownBasic?_of_negation shapeEq
      have parts := displayedParts_of_negation shapeEq
      cases absorbed : operand.isAbsorbed with
      | false =>
          -- The negation is displayed in front of its operand, but shows no basic
          -- formula.
          rw [absorbed] at ofOperand shows parts
          obtain ⟨part, before, first, positionEq⟩ := inductionHypothesis ofOperand
          obtain ⟨⟨after, partsEq⟩, isShown, undeclared, declared⟩ := first
          refine ⟨part, formula :: before, ⟨⟨after, ?_⟩, isShown, undeclared, ?_⟩, ?_⟩
          · simp [parts, partsEq]
          · rw [List.filterMap_cons, shows]
            exact declared
          · rw [positionEq, Decomposition.displayed_push, if_pos rfl,
              List.length_append, List.length_singleton, List.length_cons]
            congr 2
            omega
      | true =>
          -- The operand is not displayed, and the negation shows it instead.
          rw [absorbed] at ofOperand shows parts
          obtain ⟨notDeclared, rfl⟩ :=
            decompose_eq_error_of_isBasic (isBasic_of_isAbsorbed absorbed) ofOperand
          have compound : formula.isBasic = false :=
            (isBasic_eq_false_iff formula).mpr (.inl ⟨symbol, operand, shapeEq⟩)
          refine ⟨formula, [], ⟨⟨[], parts⟩, shows, notDeclared, nofun⟩, ?_⟩
          rw [compound]
          rfl
  | binary formula symbol connective left right brackets shapeEq ofLeft ofRight =>
      have parts := displayedParts_of_binary shapeEq
      rw [decompose_of_binary shapeEq] at failed
      rcases bind_eq_error.mp failed with inLeft | ⟨⟨first, added⟩, foundLeft, rest⟩
      · obtain ⟨part, before, first, positionEq⟩ := ofLeft inLeft
        obtain ⟨⟨after, partsEq⟩, isShown, undeclared, declared⟩ := first
        refine ⟨part, before, ⟨⟨after ++ formula :: right.displayedParts, ?_⟩, isShown,
          undeclared, declared⟩, positionEq⟩
        rw [parts, partsEq, List.append_assoc, List.cons_append]
      · -- On the left everything is declared. It is displayed before the operator.
        rcases bind_eq_error.mp rest with inRight | ⟨_, -, ⟨⟩⟩
        obtain ⟨part, before, first, positionEq⟩ := ofRight inRight
        obtain ⟨⟨after, partsEq⟩, isShown, undeclared, declared⟩ := first
        refine ⟨part, left.displayedParts ++ formula :: before,
          ⟨⟨after, ?_⟩, isShown, undeclared, ?_⟩, ?_⟩
        · rw [parts, partsEq, List.append_assoc, List.cons_append]
        · rw [List.filterMap_append, List.filterMap_cons, shownBasic?_of_binary shapeEq,
            filterMap_shownBasic?]
          exact List.forall_mem_append.mpr
            ⟨isDeclared_of_decompose foundLeft, declared⟩
        · obtain ⟨_, places, extension⟩ := decompose_extends foundLeft
          have lengths := extension.parts.length_eq
          rw [if_pos rfl] at lengths
          rw [positionEq, Decomposition.displayed_push, extension.displayed_eq,
            if_pos rfl, List.length_append, List.length_append, List.length_append,
            List.length_singleton, List.length_cons, lengths]
          congr 2
          omega
  | basic formula isBasic =>
      obtain ⟨notDeclared, rfl⟩ := decompose_eq_error_of_isBasic isBasic failed
      refine ⟨formula, [], ⟨⟨[], displayedParts_of_isBasic isBasic⟩,
        shownBasic?_of_isBasic isBasic, notDeclared, nofun⟩, ?_⟩
      rw [isBasic]
      rfl

end Formula

end SymbolicLogic
