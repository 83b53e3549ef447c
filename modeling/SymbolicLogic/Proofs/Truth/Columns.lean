import SymbolicLogic.Proofs.Truth.Evaluation
import SymbolicLogic.Truth.Setup

/-!
# Columns of values

The values of the displayed parts are put below the value items of a header, in
order. Exactly one of the columns is that of the whole formula.
-/

namespace SymbolicLogic

/-- The column holds the values of the formula. -/
def Column.HoldsValuesOf
    (column : Column)
    (formula : Formula)
    (basics : List Formula)
    (interpretations : List Interpretation) : Prop :=
  ∃ values, column.values = some values ∧
    formula.HasValues basics interpretations values

/-- The values of a formula can be computed from its parts, row by row. -/
theorem Formula.HasValues.mapM_evaluate?
    {formula : Formula}
    {basics : List Formula}
    {interpretations : List Interpretation}
    {values : List Bool}
    (hasValues : formula.HasValues basics interpretations values) :
    interpretations.mapM (formula.evaluate? basics) = some values := by
  induction hasValues with
  | nil => rfl
  | cons evaluated _ inductionHypothesis =>
      rw [List.mapM_cons, evaluated, inductionHypothesis]
      rfl

/-- The columns of formulas hold what these evaluate to. -/
theorem Column.map_values_of_forall₂
    {columns : List Column}
    {formulas basics : List Formula}
    {interpretations : List Interpretation}
    (hold : List.Forall₂
      (fun column formula => column.HoldsValuesOf formula basics interpretations)
      columns formulas) :
    columns.map Column.values =
      formulas.map fun formula =>
        interpretations.mapM (formula.evaluate? basics) := by
  induction hold with
  | nil => rfl
  | cons holds _ inductionHypothesis =>
      obtain ⟨values, valuesEq, hasValues⟩ := holds
      rw [List.map_cons, List.map_cons, valuesEq, hasValues.mapM_evaluate?,
        inductionHypothesis]

namespace Column

variable {items : List HeaderItem} {entry : ColumnRole × List Bool}
  {entries before after : List (ColumnRole × List Bool)} {column : Column}

/-- The columns of values, without the blank ones. -/
def valued (columns : List Column) : List Column :=
  columns.filter fun column => column.item.holdsValues

/-- A column has the role and the values of an entry. -/
def Holds (column : Column) (entry : ColumnRole × List Bool) : Prop :=
  column.role = entry.1 ∧ column.values = some entry.2

/-- The entries stand below the value items, in order. -/
theorem forall₂_place
    (enough : (items.filter HeaderItem.holdsValues).length = entries.length) :
    List.Forall₂ Holds (valued (place items entries)) entries := by
  induction items generalizing entries with
  | nil =>
      rw [List.length_eq_zero_iff.mp enough.symm]
      exact .nil
  | cons item items inductionHypothesis =>
      cases item with
      | value runs =>
          cases entries with
          | nil => cases enough
          | cons entry entries =>
              exact .cons ⟨rfl, rfl⟩
                (inductionHypothesis (Nat.succ.inj enough))
      | blank runs => exact inductionHypothesis enough
      | divider => exact inductionHypothesis enough

/-- Columns with the entries of formulas hold their values. -/
theorem forall₂_holdsValuesOf
    {basics formulas : List Formula}
    {interpretations : List Interpretation}
    {columns : List Column}
    (placed : List.Forall₂ Holds columns entries)
    (parts : List.Forall₂
      (fun entry part => Formula.HasValues part basics interpretations entry.2)
      entries formulas) :
    List.Forall₂
      (fun column part => column.HoldsValuesOf part basics interpretations)
      columns formulas := by
  induction placed generalizing formulas with
  | nil =>
      cases parts
      exact .nil
  | cons holds _ inductionHypothesis =>
      cases parts with
      | cons hasValues others =>
          exact .cons ⟨_, holds.2, hasValues⟩ (inductionHypothesis others)

/-- The columns have the items that they were put below. -/
theorem map_item_place
    (items : List HeaderItem)
    (entries : List (ColumnRole × List Bool)) :
    (place items entries).map Column.item = items := by
  fun_induction place items entries with
  | case1 => rfl
  | case2 runs items role values entries inductionHypothesis =>
      rw [List.map_cons, inductionHypothesis]
  | case3 item items entries _ inductionHypothesis =>
      rw [List.map_cons, inductionHypothesis]
      rfl

/-- Columns put below a header are basic only if an entry is. -/
theorem role_ne_basic_of_mem_place
    (notBasic : ∀ entry ∈ entries, entry.1 ≠ .basic)
    (member : column ∈ place items entries) : column.role ≠ .basic := by
  fun_induction place items entries with
  | case1 => cases member
  | case2 runs items role values entries inductionHypothesis =>
      rcases List.mem_cons.mp member with rfl | member
      · exact notBasic _ List.mem_cons_self
      · exact inductionHypothesis
          (fun entry placed => notBasic entry (List.mem_cons_of_mem _ placed)) member
  | case3 item items entries _ inductionHypothesis =>
      rcases List.mem_cons.mp member with rfl | member
      · intro isBasic
        cases isBasic
      · exact inductionHypothesis notBasic member

/-- Below the other items nothing stands. -/
theorem values_eq_none_of_mem_place
    (enough : (items.filter HeaderItem.holdsValues).length = entries.length)
    (member : column ∈ place items entries)
    (holdsNone : column.item.holdsValues = false) : column.values = none := by
  induction items generalizing entries with
  | nil => cases member
  | cons item items inductionHypothesis =>
      cases item with
      | value runs =>
          cases entries with
          | nil => cases enough
          | cons entry entries =>
              rcases List.mem_cons.mp member with rfl | member
              · cases holdsNone
              · exact inductionHypothesis (Nat.succ.inj enough) member
      | blank runs | divider =>
          rcases List.mem_cons.mp member with rfl | member
          · rfl
          · exact inductionHypothesis enough member

/-- A main column comes from a main entry. -/
theorem exists_main_of_mem_place
    (member : column ∈ place items entries)
    (isMain : column.role = .main) : ∃ entry ∈ entries, entry.1 = .main := by
  induction items generalizing entries with
  | nil => cases member
  | cons item items inductionHypothesis =>
      cases item with
      | value runs =>
          cases entries with
          | nil =>
              rcases List.mem_cons.mp member with rfl | member
              · cases isMain
              · exact inductionHypothesis member
          | cons entry entries =>
              rcases List.mem_cons.mp member with rfl | member
              · exact ⟨entry, List.mem_cons_self, isMain⟩
              · obtain ⟨other, isEntry, otherMain⟩ :=
                  inductionHypothesis member
                exact ⟨other, List.mem_cons_of_mem _ isEntry, otherMain⟩
      | blank runs | divider =>
          rcases List.mem_cons.mp member with rfl | member
          · cases isMain
          · exact inductionHypothesis member

/-- The column of an entry, with the columns of the entries around it. -/
theorem exists_place_eq_append
    (enough : (items.filter HeaderItem.holdsValues).length =
      (before ++ entry :: after).length) :
    ∃ first column second,
      place items (before ++ entry :: after) =
        place first before ++ column :: place second after ∧
      column.Holds entry := by
  induction items generalizing before with
  | nil => simp at enough
  | cons item items inductionHypothesis =>
      cases item with
      | value runs =>
          cases before with
          | nil => exact ⟨[], _, items, rfl, rfl, rfl⟩
          | cons earlier before =>
              obtain ⟨first, column, second, split, holds⟩ :=
                inductionHypothesis (Nat.succ.inj enough)
              refine ⟨.value runs :: first, column, second, ?_, holds⟩
              rw [List.cons_append, place, split, place, List.cons_append]
      | blank runs =>
          obtain ⟨first, column, second, split, holds⟩ :=
            inductionHypothesis enough
          exact ⟨.blank runs :: first, column, second,
            congrArg (blank (.blank runs) :: ·) split, holds⟩
      | divider =>
          obtain ⟨first, column, second, split, holds⟩ :=
            inductionHypothesis enough
          exact ⟨.divider :: first, column, second,
            congrArg (blank .divider :: ·) split, holds⟩

/-- The positions of the main columns, counted from `base`. -/
def mainPositions (base : Nat) (columns : List Column) : List Nat :=
  (columns.zipIdx base).filterMap fun (column, position) =>
    if column.role = .main then some position else none

/-- The first column is noted if it is a main column, and those behind it one place
further on. -/
theorem mainPositions_cons (base : Nat) (column : Column) (columns : List Column) :
    mainPositions base (column :: columns) =
      (if column.role = .main then [base] else []) ++
        mainPositions (base + 1) columns := by
  rw [mainPositions, mainPositions, List.zipIdx_cons, List.filterMap_cons]
  by_cases isMain : column.role = .main
  · simp [isMain]
  · simp [isMain]

theorem mainPositions_append (base : Nat) (first second : List Column) :
    mainPositions base (first ++ second) =
      mainPositions base first ++
        mainPositions (base + first.length) second := by
  rw [mainPositions, List.zipIdx_append, List.filterMap_append]
  rfl

/-- Where no column is a main column there are no places of one. -/
theorem mainPositions_eq_nil
    (base : Nat)
    {columns : List Column}
    (noMain : ∀ column ∈ columns, column.role ≠ .main) :
    mainPositions base columns = [] := by
  rw [mainPositions, List.filterMap_eq_nil_iff]
  rintro ⟨column, position⟩ member
  have isColumn : column ∈ columns := List.fst_mem_of_mem_zipIdx member
  exact if_neg (noMain column isColumn)

/-- A single main column has the position that its place gives. -/
theorem mainPositions_of_single
    (base : Nat)
    {first second : List Column}
    (isMain : column.role = .main)
    (noneFirst : ∀ column ∈ first, column.role ≠ .main)
    (noneSecond : ∀ column ∈ second, column.role ≠ .main) :
    mainPositions base (first ++ column :: second) =
      [base + first.length] := by
  have atColumn (base : Nat) :
      mainPositions base (column :: second) =
        base :: mainPositions (base + 1) second := by
    simp [mainPositions, isMain]
  rw [mainPositions_append, mainPositions_eq_nil base noneFirst, atColumn,
    mainPositions_eq_nil _ noneSecond]
  rfl

end Column

section

variable {basics : List Formula} {formula : Formula} {root : Nat}
  {decomposition : Decomposition} {interpretations : List Interpretation}

/-- The table of the parts of a formula extends the empty one. -/
theorem Decomposition.extends_of
    (found : Decomposition.of formula basics = .ok (root, decomposition)) :
    Decomposition.Extends basics formula true .empty root decomposition
      decomposition.nodes decomposition.displayed := by
  obtain ⟨added, places, extension⟩ := Formula.decompose_extends found
  have nodesEq : decomposition.nodes = added := extension.nodes_eq
  have displayedEq : decomposition.displayed = places := extension.displayed_eq
  rw [nodesEq, displayedEq]
  exact extension

/-- A node that is settled has its values in the table. -/
theorem Decomposition.hasValues_evaluate
    (found : Decomposition.of formula basics = .ok (root, decomposition))
    (interpretations : List Interpretation)
    {place : Nat}
    {part : Formula}
    (inTable : decomposition.formulas[place]? = some part) :
    part.HasValues basics interpretations
      ((decomposition.evaluate interpretations)[place]?.getD []) := by
  obtain ⟨column, foundColumn, hasValues⟩ :=
    settled_evaluate (extends_of found).linked interpretations place inTable
  rw [foundColumn]
  exact hasValues

namespace Setup

/-- The displayed parts have their values. -/
theorem forall₂_displayedValues
    (found : Decomposition.of formula basics = .ok (root, decomposition))
    (interpretations : List Interpretation) :
    List.Forall₂
      (fun entry part => Formula.HasValues part basics interpretations entry.2)
      (displayedValues decomposition root interpretations)
      formula.displayedParts := by
  have parts := (Decomposition.extends_of found).parts
  rw [displayedValues, List.forall₂_map_left_iff]
  apply List.Forall₂.imp _ parts
  intro place part inTable
  exact Decomposition.hasValues_evaluate found interpretations inTable

/-- One entry belongs to the whole formula, and is marked so. -/
theorem exists_displayedValues_eq_append
    (found : Decomposition.of formula basics = .ok (root, decomposition))
    (interpretations : List Interpretation) :
    ∃ before values after,
      displayedValues decomposition root interpretations =
        before ++ (.main, values) :: after ∧
      formula.HasValues basics interpretations values ∧
      (∀ entry ∈ before, entry.1 ≠ .main) ∧
      ∀ entry ∈ after, entry.1 ≠ .main := by
  have extension := Decomposition.extends_of found
  obtain ⟨lower, upper, split⟩ := List.append_of_mem (extension.mem rfl)
  have ascending := extension.ascending
  rw [split, List.pairwise_append] at ascending
  obtain ⟨-, fromRoot, acrossRoot⟩ := ascending
  have entries := congrArg (List.map fun place =>
    ((if place = root then .main else .part : ColumnRole),
      (decomposition.evaluate interpretations)[place]?.getD [])) split
  rw [List.map_append, List.map_cons, if_pos rfl] at entries
  refine ⟨_, _, _, entries, Decomposition.hasValues_evaluate found
    interpretations extension.formula_eq, ?_, ?_⟩
  · rw [List.forall_mem_map]
    intro place member
    have earlier := acrossRoot place member root List.mem_cons_self
    rw [if_neg (Nat.ne_of_lt earlier)]
    exact nofun
  · rw [List.forall_mem_map]
    intro place member
    have later := List.rel_of_pairwise_cons fromRoot member
    rw [if_neg (Nat.ne_of_gt later)]
    exact nofun

end Setup
end

/-- The columns show a formula. There is a column for each displayed part, with
its values; the other columns are blank. The main column, at the place `whole`,
is that of the formula itself. -/
structure ShowsFormula
    (basics : List Formula)
    (interpretations : List Interpretation)
    (formula : Formula)
    (columns : List Column)
    (whole : Nat) : Prop where
  parts : List.Forall₂
    (fun column part => column.HoldsValuesOf part basics interpretations)
    (Column.valued columns) formula.displayedParts
  blanks : ∀ column ∈ columns,
    column.item.holdsValues = false -> column.values = none
  main : ∃ column, columns[whole]? = some column ∧
    column.HoldsValuesOf formula basics interpretations
  mainPositions_eq : ∀ base,
    Column.mainPositions base columns = [base + whole]

/-- Each formula is shown by the columns after a divider. The positions are
those of the main columns, where `base` columns stand before all of them. -/
inductive LaidOut
    (basics : List Formula)
    (interpretations : List Interpretation) :
    Nat -> List Formula -> List Column -> List Nat -> Prop
  | nil (base : Nat) : LaidOut basics interpretations base [] [] []
  | cons
      {base whole : Nat}
      {formula : Formula}
      {formulas : List Formula}
      {columns others : List Column}
      {positions : List Nat}
      (shows : ShowsFormula basics interpretations formula columns whole)
      (laidOut : LaidOut basics interpretations (base + 1 + columns.length)
        formulas others positions) :
      LaidOut basics interpretations base (formula :: formulas)
        (.blank .divider :: columns ++ others)
        ((base + 1 + whole) :: positions)

namespace Setup

variable {language : Language} {basics formulas : List Formula}
  {interpretations : List Interpretation} {base : Nat} {formula : Formula}
  {columns : List Column}

/-- There is a place for each value item. -/
theorem length_valuePositions (items : List HeaderItem) :
    (HeaderItem.valuePositions items).length =
      (items.filter HeaderItem.holdsValues).length := by
  unfold HeaderItem.valuePositions
  generalize 0 = base
  induction items generalizing base with
  | nil => rfl
  | cons item items inductionHypothesis =>
      cases holds : item.holdsValues with
      | false => simp [holds, inductionHypothesis]
      | true => simp [holds, inductionHypothesis]

/-- What is laid out are the displayed parts, below the items of the header. -/
theorem layOut_eq_ok
    (laidOut : layOut language basics interpretations base formula =
      .ok columns) :
    ∃ items root decomposition,
      language.segmentation.items formula.text = .ok items ∧
      Decomposition.of formula basics = .ok (root, decomposition) ∧
      (items.filter HeaderItem.holdsValues).length =
        (displayedValues decomposition root interpretations).length ∧
      columns = Column.place items
        (displayedValues decomposition root interpretations) := by
  rw [layOut] at laidOut
  split at laidOut
  · cases laidOut
  · next items cut =>
      split at laidOut
      · cases laidOut
      · next root decomposition found =>
          dsimp only at laidOut
          split at laidOut
          · next enough =>
              cases laidOut
              rw [length_valuePositions] at enough
              refine ⟨items, root, decomposition, cut, found, ?_, rfl⟩
              rw [displayedValues, List.length_map, enough]
          · cases laidOut

/-- The columns of a main formula show it. -/
theorem showsFormula_of_layOut
    (laidOut : layOut language basics interpretations base formula =
      .ok columns) :
    ∃ whole, ShowsFormula basics interpretations formula columns whole := by
  obtain ⟨items, root, decomposition, -, found, enough, rfl⟩ :=
    layOut_eq_ok laidOut
  have parts := forall₂_displayedValues found interpretations
  obtain ⟨before, values, after, split, hasValues, noneBefore, noneAfter⟩ :=
    exists_displayedValues_eq_append found interpretations
  rw [split] at enough parts ⊢
  obtain ⟨first, column, second, columnsEq, isMain, valuesEq⟩ :=
    Column.exists_place_eq_append enough
  have noMain {items : List HeaderItem}
      {entries : List (ColumnRole × List Bool)}
      (none : ∀ entry ∈ entries, entry.1 ≠ .main) :
      ∀ column ∈ Column.place items entries, column.role ≠ .main := by
    intro column member isMain
    obtain ⟨entry, isEntry, entryMain⟩ :=
      Column.exists_main_of_mem_place member isMain
    exact none entry isEntry entryMain
  refine ⟨(Column.place first before).length, ?_, ?_, ?_, ?_⟩
  · exact Column.forall₂_holdsValuesOf (Column.forall₂_place enough) parts
  · intro other member holdsNone
    exact Column.values_eq_none_of_mem_place enough member holdsNone
  · refine ⟨column, ?_, values, valuesEq, hasValues⟩
    rw [columnsEq, List.getElem?_append_right (Nat.le_refl _), Nat.sub_self]
    rfl
  · intro base
    rw [columnsEq]
    exact Column.mainPositions_of_single base isMain (noMain noneBefore)
      (noMain noneAfter)

/-- The columns of all main formulas show them in order. -/
theorem laidOut_of_layOutAll
    (found : layOutAll language basics interpretations base formulas =
      .ok columns) :
    ∃ positions,
      LaidOut basics interpretations base formulas columns positions := by
  induction formulas generalizing base columns with
  | nil =>
      cases found
      exact ⟨[], .nil base⟩
  | cons formula formulas inductionHypothesis =>
      rw [layOutAll] at found
      obtain ⟨first, foundFirst, rest⟩ := bind_eq_ok.mp found
      obtain ⟨others, foundOthers, finished⟩ := bind_eq_ok.mp rest
      cases finished
      obtain ⟨whole, shows⟩ := showsFormula_of_layOut foundFirst
      obtain ⟨positions, laidOut⟩ := inductionHypothesis foundOthers
      exact ⟨_, .cons shows laidOut⟩

end Setup
end SymbolicLogic
