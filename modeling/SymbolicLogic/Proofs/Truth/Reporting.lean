import SymbolicLogic.Proofs.Header.Display
import SymbolicLogic.Proofs.Truth.Undeclared

/-!
# The column that a setup error names

Main formulas are laid out one after the other, so an error belongs to the first of
them that has one. The column of a missing basic formula is counted from the first
column of the main formula it is found in.
-/

namespace SymbolicLogic

namespace HeaderItem

theorem forall₂_positions (items : List HeaderItem) (base : Nat) :
    List.Forall₂
      (fun position item => base ≤ position ∧ items[position - base]? = some item)
      ((items.zipIdx base).filterMap fun (item, position) =>
        if item.holdsValues then some position else none)
      (items.filter holdsValues) := by
  induction items generalizing base with
  | nil => exact .nil
  | cons item items inductionHypothesis =>
      have others := (inductionHypothesis (base + 1)).imp
        (S := fun position other =>
          base ≤ position ∧ (item :: items)[position - base]? = some other) ?_
      · rw [List.zipIdx_cons, List.filterMap_cons, List.filter_cons]
        cases item with
        | value runs => exact .cons ⟨Nat.le_refl _, by rw [Nat.sub_self]; rfl⟩ others
        | blank runs | divider => exact others
      · rintro position other ⟨after, found⟩
        have next : position - base = position - (base + 1) + 1 := by omega
        rw [next, List.getElem?_cons_succ]
        exact ⟨by omega, found⟩

/-- The value items stand at their positions. -/
theorem forall₂_valuePositions (items : List HeaderItem) :
    List.Forall₂ (fun position item => items[position]? = some item)
      (valuePositions items) (items.filter holdsValues) :=
  (forall₂_positions items 0).imp fun _ _ found => found.2

end HeaderItem

namespace SetupError

/-- The error is a missing basic formula, and what it names passes the test. -/
def isUndeclared (test : Formula -> Formula -> Nat -> Bool) : SetupError -> Bool
  | .undeclaredBasic formula subformula column => test formula subformula column
  | _ => false

theorem exists_of_isUndeclared
    {test : Formula -> Formula -> Nat -> Bool}
    {error : SetupError}
    (undeclared : error.isUndeclared test = true) :
    ∃ formula subformula column,
      error = .undeclaredBasic formula subformula column ∧
      test formula subformula column = true := by
  cases error with
  | undeclaredBasic formula subformula column =>
      exact ⟨formula, subformula, column, rfl, undeclared⟩
  | _ => cases undeclared

end SetupError

namespace Setup

variable {language : Language} {setup : Setup} {basics mains formulas : List Formula}
  {formula whole subformula : Formula} {interpretations : List Interpretation}
  {base column : Nat} {failure : SetupError}

/-- Reading the texts of a setup does not report undeclared formulas. -/
theorem readSentences_ne_undeclaredBasic
    {role : OperandRole}
    {texts : List String} :
    readSentences language role texts ≠
      .error (.undeclaredBasic whole subformula column) := by
  intro failed
  obtain ⟨⟨text, position⟩, -, isFailure⟩ := exists_of_mapM_eq_error failed
  dsimp only at isFailure
  rw [readSentence] at isFailure
  split at isFailure <;> cases isFailure

theorem checkOrder_ne_undeclaredBasic :
    checkOrder formulas ≠ .error (.undeclaredBasic whole subformula column) := by
  induction formulas with
  | nil => exact nofun
  | cons previous rest inductionHypothesis =>
      cases rest with
      | nil => exact nofun
      | cons next rest =>
          rw [checkOrder]
          split
          · exact inductionHypothesis
          · exact nofun

/-- No check of a setup asks which formulas its main formulas are built from. -/
theorem readOperands_ne_undeclaredBasic :
    setup.readOperands language ≠ .error (.undeclaredBasic whole subformula column) := by
  intro failed
  rw [readOperands] at failed
  rcases bind_eq_error.mp failed with texts | ⟨_, -, failed⟩
  · rw [checkTexts] at texts
    split at texts
    · cases texts
    · split at texts <;> cases texts
  rcases bind_eq_error.mp failed with basics | ⟨_, -, failed⟩
  · exact readSentences_ne_undeclaredBasic basics
  rcases bind_eq_error.mp failed with order | ⟨_, -, failed⟩
  · exact checkOrder_ne_undeclaredBasic order
  rcases bind_eq_error.mp failed with rows | ⟨_, -, failed⟩
  · rw [checkedRows] at rows
    split at rows
    · cases rows
    · split at rows
      · cases rows
      · split at rows <;> cases rows
  rcases bind_eq_error.mp failed with mains | ⟨_, -, ⟨⟩⟩
  · exact readSentences_ne_undeclaredBasic mains

/-- An error of the layout comes from the first main formula that cannot be laid
out, behind a divider. -/
theorem exists_layOut_eq_error
    (failed : layOutAll language basics interpretations base formulas =
      .error failure) :
    ∃ earlier formula later leading, formulas = earlier ++ formula :: later ∧
      layOutAll language basics interpretations base earlier = .ok leading ∧
      layOut language basics interpretations (base + leading.length + 1) formula =
        .error failure := by
  induction formulas generalizing base with
  | nil => cases failed
  | cons formula formulas inductionHypothesis =>
      rw [layOutAll] at failed
      rcases bind_eq_error.mp failed with first | ⟨columns, laidOut, rest⟩
      · exact ⟨[], formula, formulas, [], rfl, rfl, first⟩
      · rcases bind_eq_error.mp rest with others | ⟨_, -, ⟨⟩⟩
        obtain ⟨earlier, other, later, leading, rfl, othersLaidOut, isError⟩ :=
          inductionHypothesis others
        refine ⟨formula :: earlier, other, later,
          Column.blank .divider :: columns ++ leading, rfl, ?_, ?_⟩
        · rw [layOutAll]
          exact bind_eq_ok.mpr ⟨_, laidOut, bind_eq_ok.mpr ⟨_, othersLaidOut, rfl⟩⟩
        · rw [← isError]
          congr 1
          simp only [List.length_append, List.length_cons]
          omega

/-- Layout reports the first undeclared part, at the column of its item or else at the
first column. -/
theorem layOut_eq_undeclaredBasic
    (failed : layOut language basics interpretations base formula =
      .error (.undeclaredBasic whole subformula column)) :
    whole = formula ∧ ∃ items part before,
      language.segmentation.items formula.text = .ok items ∧
      formula.FirstUndeclared basics subformula part before ∧
      column = base + if part.isBasic then
        ((HeaderItem.valuePositions items)[before.length]?).getD 0 else 0 := by
  rw [layOut] at failed
  split at failed
  · cases failed
  · next items cut =>
      dsimp only at failed
      split at failed
      · next undeclared taken =>
          cases failed
          obtain ⟨part, before, first, positionEq⟩ :=
            Formula.exists_firstUndeclared taken
          refine ⟨rfl, items, part, before, cut, first, ?_⟩
          rw [positionEq]
          cases part.isBasic with
          | false => rfl
          | true => simp [Decomposition.empty]
      · split at failed <;> cases failed

/-- The table reports it for the first main formula with such a part. -/
theorem exists_layOut_of_build
    (failed : setup.build language = .error (.undeclaredBasic whole subformula column)) :
    ∃ basics mains earlier formula later leading,
      setup.readOperands language = .ok (basics, mains) ∧
      mains = earlier ++ formula :: later ∧
      layOutAll language basics (Interpretation.all basics.length) basics.length
        earlier = .ok leading ∧
      layOut language basics (Interpretation.all basics.length)
        (basics.length + leading.length + 1) formula =
          .error (.undeclaredBasic whole subformula column) := by
  rw [build] at failed
  rcases bind_eq_error.mp failed with operands | ⟨⟨basics, mains⟩, operands, rest⟩
  · exact absurd operands readOperands_ne_undeclaredBasic
  rcases bind_eq_error.mp rest with laidOut | ⟨_, -, ⟨⟩⟩
  have lengthEq : (basicColumns basics (Interpretation.all basics.length)).length =
      basics.length := by
    rw [basicColumns, List.length_map, List.length_zipIdx]
  rw [lengthEq] at laidOut
  obtain ⟨earlier, formula, later, leading, mainsEq, laidOutBefore, isError⟩ :=
    exists_layOut_eq_error laidOut
  exact ⟨basics, mains, earlier, formula, later, leading, operands, mainsEq,
    laidOutBefore, isError⟩

/-- The items of a table's header up to a main formula. Behind the divider stand those
of the main formula itself. -/
def headerUpTo
    (basics : List Formula)
    (leading : List Column)
    (items : List HeaderItem) : List HeaderItem :=
  (basicColumns basics (Interpretation.all basics.length) ++ leading).map Column.item ++
    .divider :: items

theorem getElem?_headerUpTo
    (basics : List Formula)
    (leading : List Column)
    (items : List HeaderItem)
    (position : Nat) :
    (headerUpTo basics leading items)[basics.length + leading.length + 1 + position]? =
      items[position]? := by
  have behind : basics.length + leading.length + 1 + position -
      (basics.length + leading.length) = position + 1 := by
    omega
  rw [headerUpTo, List.getElem?_append_right]
  · simp [basicColumns, behind]
  · simp only [List.length_map, List.length_append, basicColumns, List.length_zipIdx]
    omega

/-- In the header of a formula that was read and has no torn quantifier, each
displayed part has its value item. -/
theorem exists_item_of_displayed
    (suits : language.SuitsHeaders)
    {text : String}
    (reads : Reads language text formula)
    (aligned : formula.IsAligned)
    {items : List HeaderItem}
    (cut : language.segmentation.items formula.text = .ok items)
    {place : Nat}
    {part : Formula}
    (found : formula.displayedParts[place]? = some part) :
    ∃ position item, (HeaderItem.valuePositions items)[place]? = some position ∧
      items[position]? = some item ∧ item.holdsValues = true ∧
      part.label.toList <:+: item.text.toList := by
  obtain ⟨tokens, derivation, -, known⟩ := Language.exists_phrase_of_parseFormula
    reads.parseFormula
  obtain ⟨_, cut', shown⟩ := (shows_sentence suits derivation known aligned).items_eq_ok
  cases cut.symm.trans cut'
  rw [Formula.labels, List.forall₂_map_left_iff] at shown
  obtain ⟨item, isItem, inside⟩ := exists_of_getElem?_of_forall₂ shown found
  obtain ⟨position, isPosition, itemEq⟩ := exists_of_getElem?_of_forall₂
    (HeaderItem.forall₂_valuePositions items).flip isItem
  exact ⟨position, item, isPosition, itemEq,
    (List.mem_filter.mp (List.mem_of_getElem? isItem)).2, inside⟩

/-- If a table is refused for a missing basic formula, that is the first one, from the
left, of the named main formula without a declaration, and the main formulas before
have been laid out. A basic formula with a column of its own is reported at the value
item that has as many before it as there are displayed parts before the formula. In
the header of a formula that has no torn quantifier this is the item which shows it.
The operand of a negation written with a complement glyph is reported at the first
column of the main formula, wherever the negation stands. -/
theorem undeclaredBasic_column
    (failed : setup.build language =
      .error (.undeclaredBasic formula subformula column)) :
    ∃ basics mains earlier later leading items part before,
      setup.readOperands language = .ok (basics, mains) ∧
      mains = earlier ++ formula :: later ∧
      layOutAll language basics (Interpretation.all basics.length) basics.length
        earlier = .ok leading ∧
      language.segmentation.items formula.text = .ok items ∧
      formula.FirstUndeclared basics subformula part before ∧
      (∃ done todo, formula.basicParts = done ++ subformula :: todo ∧
        ¬subformula.IsDeclared basics ∧ ∀ other ∈ done, other.IsDeclared basics) ∧
      (column = basics.length + leading.length + 1 + if part.isBasic then
        ((HeaderItem.valuePositions items)[before.length]?).getD 0 else 0) ∧
      (language.SuitsHeaders -> formula.IsAligned -> ∃ position item,
        (HeaderItem.valuePositions items)[before.length]? = some position ∧
        (headerUpTo basics leading items)[basics.length + leading.length + 1 +
          position]? = some item ∧
        item.holdsValues = true ∧ part.label.toList <:+: item.text.toList ∧
        (part.isBasic = true ->
          column = basics.length + leading.length + 1 + position)) := by
  obtain ⟨basics, mains, earlier, _, later, leading, operands, mainsEq, laidOut,
    isError⟩ := exists_layOut_of_build failed
  obtain ⟨rfl, items, part, before, cut, first, columnEq⟩ :=
    layOut_eq_undeclaredBasic isError
  obtain ⟨after, displayed⟩ := first.displayed
  refine ⟨basics, mains, earlier, later, leading, items, part, before, operands,
    mainsEq, laidOut, cut, first, ⟨_, after.filterMap Formula.shownBasic?, ?_,
      first.undeclared, first.declared⟩, columnEq, fun suits aligned => ?_⟩
  · rw [← formula.filterMap_shownBasic?, displayed, List.filterMap_append,
      List.filterMap_cons, first.shows]
  · obtain ⟨text, -, reads⟩ := exists_of_mem_of_forall₂ (readOperands_eq_ok operands).2
      (by rw [mainsEq]; exact List.mem_append_right _ List.mem_cons_self)
    have found : formula.displayedParts[before.length]? = some part := by
      simp [displayed]
    obtain ⟨position, item, isPosition, itemEq, holds, inside⟩ :=
      exists_item_of_displayed suits reads aligned cut found
    refine ⟨position, item, isPosition, ?_, holds, inside, fun isBasic => ?_⟩
    · rw [getElem?_headerUpTo, itemEq]
    · rw [columnEq, isBasic, isPosition]
      rfl

/-- In `(P ∧ Q)` the letter `Q` is missing. It is reported at its own item, in the
fifth column. -/
theorem undeclaredBasic_column_conjunction :
    ∃ formula subformula basics leading items part before position item,
      build ⟨["P"], ["(P ∧ Q)"], none, 2⟩ .sentential =
        .error (.undeclaredBasic formula subformula 4) ∧
      formula.FirstUndeclared basics subformula part before ∧
      (headerUpTo basics leading items)[basics.length + leading.length + 1 +
        position]? = some item ∧
      part.label.toList <:+: item.text.toList ∧
      (part.isBasic = true -> 4 = basics.length + leading.length + 1 + position) := by
  have fails : failsWith (build ⟨["P"], ["(P ∧ Q)"], none, 2⟩ .sentential)
      (SetupError.isUndeclared fun formula _ column =>
        column == 4 && formula.IsAligned) = true := by
    decide +kernel
  obtain ⟨error, failed, named⟩ := exists_of_failsWith fails
  obtain ⟨formula, subformula, column, rfl, tested⟩ :=
    SetupError.exists_of_isUndeclared named
  simp only [Bool.and_eq_true, beq_iff_eq, decide_eq_true_eq] at tested
  obtain ⟨rfl, aligned⟩ := tested
  have builtin : Language.sentential ∈ Registry.builtin.languages := by decide
  obtain ⟨basics, _, _, _, leading, items, part, before, -, -, -, -, first, -, -,
    displayed⟩ := undeclaredBasic_column failed
  obtain ⟨position, item, -, itemEq, -, inside, columnEq⟩ := displayed
    ⟨Language.validate_of_mem_builtin builtin, Language.indexFree_of_mem_builtin builtin,
      by decide, by decide⟩ aligned
  exact ⟨formula, subformula, basics, leading, items, part, before, position, item,
    failed, first, itemEq, inside, columnEq⟩

/-- In `(P ∧ a ≠ b)` the comparison is missing. The item of its negation has the fifth
column, but it is reported at the third one, which shows `P`. -/
theorem undeclaredBasic_column_complement :
    ∃ basics formula subformula items part operand,
      build ⟨["P"], ["(P ∧ a ≠ b)"], none, 2⟩ .predicate =
        .error (.undeclaredBasic formula subformula 2) ∧
      readOperands ⟨["P"], ["(P ∧ a ≠ b)"], none, 2⟩ .predicate =
        .ok (basics, [formula]) ∧
      Language.predicate.segmentation.items formula.text = .ok items ∧
      (headerUpTo basics [] items).map HeaderItem.text =
        ["P", "", "(P", " ∧ ", "a ≠ b)"] ∧
      formula.displayedParts[2]? = some part ∧
      part.label = "a ≠ b" ∧
      part.shownBasic? = some operand ∧ operand.same subformula = true := by
  have fails : failsWith (build ⟨["P"], ["(P ∧ a ≠ b)"], none, 2⟩ .predicate)
      (SetupError.isUndeclared fun formula subformula column =>
        column == 2 && formula.displayedParts[2]?.any fun part =>
          part.label == "a ≠ b" && part.shownBasic?.any fun operand =>
            operand.same subformula) = true := by
    decide +kernel
  have reads : succeedsWith
      (readOperands ⟨["P"], ["(P ∧ a ≠ b)"], none, 2⟩ .predicate)
      (fun operands => operands.2.length == 1 && operands.2.all fun formula =>
        succeedsWith (Language.predicate.segmentation.items formula.text) fun items =>
          (headerUpTo operands.1 [] items).map HeaderItem.text ==
            ["P", "", "(P", " ∧ ", "a ≠ b)"]) = true := by
    decide +kernel
  obtain ⟨error, failed, named⟩ := exists_of_failsWith fails
  obtain ⟨formula, subformula, column, rfl, tested⟩ :=
    SetupError.exists_of_isUndeclared named
  simp only [Bool.and_eq_true, beq_iff_eq, Option.any_eq_true] at tested
  obtain ⟨rfl, part, isPart, labelEq, operand, shows, same⟩ := tested
  obtain ⟨⟨basics, mains⟩, operands, tested⟩ := exists_of_succeedsWith reads
  simp only [Bool.and_eq_true, beq_iff_eq, List.all_eq_true] at tested
  obtain ⟨single, cut⟩ := tested
  obtain ⟨_, _, earlier, _, later, leading, operands', mainsEq, -, isError⟩ :=
    exists_layOut_of_build failed
  obtain ⟨rfl, -⟩ := layOut_eq_undeclaredBasic isError
  cases operands.symm.trans operands'
  obtain ⟨main, rfl⟩ := List.length_eq_one_iff.mp single
  have member : formula ∈ [main] := by
    rw [mainsEq]
    exact List.mem_append_right _ List.mem_cons_self
  obtain rfl : formula = main := List.mem_singleton.mp member
  obtain ⟨items, cutEq, texts⟩ := exists_of_succeedsWith (cut formula member)
  exact ⟨basics, formula, subformula, items, part, operand, failed, operands, cutEq,
    beq_iff_eq.mp texts, isPart, labelEq, shows, same⟩

end Setup
end SymbolicLogic
