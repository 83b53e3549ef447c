import SymbolicLogic.Proofs.Lists
import SymbolicLogic.Proofs.Truth.Agreement

/-!
# The parts of a table fit together

The header, the values and the marks of a table are vectors with an entry for every
column, and these are filled by different rules: the basic formulas come first, and each
main formula brings a divider and the columns below its header. A table has values below
value items only, in all of its rows. Basic columns are the first ones, and there is one
main column for each main formula. This is shown for the table that is built column by
column, whose vectors are those that are tabulated.
-/

namespace SymbolicLogic

/-- The column has values if it is to hold some, one in each row. A main column is to
hold values. -/
structure Column.Fits (column : Column) (rows : Nat) : Prop where
  isSome_values : column.values.isSome = column.item.holdsValues
  length_eq : ∀ values, column.values = some values -> values.length = rows
  holdsValues_of_main : column.role = .main -> column.item.holdsValues = true

/-- The vectors of a table fit together. -/
structure Tabulation.Consistent (table : Tabulation) : Prop where
  /-- There is a basic formula, and no two have the same text. -/
  basics_pos : 1 ≤ table.basics.length
  basics_ascending : (table.basics.map Formula.text).Pairwise (· < ·)
  rows_eq : table.rows = 2 ^ table.basics.length
  /-- Each column has an item, values or none, and two marks. -/
  length_key : table.key.length = table.header.length
  length_highlight : table.highlight.length = table.header.length
  length_basicColumns : table.basicColumns.length = table.header.length
  /-- There are values below value items only, one in each row. -/
  key_iff : ∀ position : Nat, (∃ values, table.key[position]? = some (some values)) ↔
    ∃ item : HeaderItem, table.header[position]? = some item ∧
      item.holdsValues = true
  length_values : ∀ (position : Nat) (values : List Bool),
    table.key[position]? = some (some values) -> values.length = table.rows
  /-- The basic columns are the first ones. -/
  basic_iff : ∀ position : Nat, table.basicColumns[position]? = some true ↔
    position < table.basics.length
  /-- Each main formula has a column of values behind them. -/
  mains_ascending : table.mainColumns.Pairwise (· < ·)
  length_mains : table.mainColumns.length = table.mains.length
  mains_values : ∀ position ∈ table.mainColumns,
    table.basics.length ≤ position ∧
      ∃ values, table.key[position]? = some (some values)
  /-- These are the highlighted ones. -/
  highlight_iff : ∀ position : Nat, table.highlight[position]? = some true ↔
    position ∈ table.mainColumns

namespace Column

variable {column : Column} {items : List HeaderItem} {rows : Nat}
  {entries : List (ColumnRole × List Bool)}

theorem fits_blank_divider (rows : Nat) : (Column.blank .divider).Fits rows :=
  ⟨rfl, nofun, nofun⟩

/-- Entries that are not basic, with a value in each row, give columns of this
kind. -/
theorem fits_of_mem_place
    (enough : (items.filter HeaderItem.holdsValues).length = entries.length)
    (sound : ∀ entry ∈ entries, entry.1 ≠ .basic ∧ entry.2.length = rows)
    (member : column ∈ place items entries) :
    column.role ≠ .basic ∧ column.Fits rows := by
  induction items generalizing entries with
  | nil => cases member
  | cons item items inductionHypothesis =>
      cases item with
      | value runs =>
          cases entries with
          | nil => cases enough
          | cons entry entries =>
              obtain ⟨⟨notBasic, lengthEq⟩, others⟩ := List.forall_mem_cons.mp sound
              rcases List.mem_cons.mp member with rfl | member
              · refine ⟨notBasic, rfl, ?_, fun _ => rfl⟩
                rintro _ ⟨⟩
                exact lengthEq
              · exact inductionHypothesis (Nat.succ.inj enough) others member
      | blank runs | divider =>
          rcases List.mem_cons.mp member with rfl | member
          · exact ⟨nofun, rfl, nofun, nofun⟩
          · exact inductionHypothesis enough sound member

end Column

namespace Table

variable {table : Table} {position : Nat}

/-- Values are at a place if the column there has them. -/
theorem getElem?_key {values : List Bool} :
    table.key[position]? = some (some values) ↔
      ∃ column, table.columns[position]? = some column ∧
        column.values = some values := by
  rw [key, List.getElem?_map, Option.map_eq_some_iff]

theorem exists_header_iff :
    (∃ item : HeaderItem, table.header[position]? = some item ∧
        item.holdsValues = true) ↔
      ∃ column, table.columns[position]? = some column ∧
        column.item.holdsValues = true := by
  simp only [header, List.getElem?_map, Option.map_eq_some_iff, exists_exists_and_eq_and]

/-- Values stand in the columns that are to hold some. -/
theorem exists_key_iff (fits : ∀ column ∈ table.columns, column.Fits table.rows) :
    (∃ values, table.key[position]? = some (some values)) ↔
      ∃ column, table.columns[position]? = some column ∧
        column.item.holdsValues = true := by
  simp only [getElem?_key]
  constructor
  · rintro ⟨values, column, found, valuesEq⟩
    refine ⟨column, found, ?_⟩
    rw [← (fits column (List.mem_of_getElem? found)).isSome_values, valuesEq]
    rfl
  · rintro ⟨column, found, holds⟩
    rw [← (fits column (List.mem_of_getElem? found)).isSome_values] at holds
    obtain ⟨values, valuesEq⟩ := Option.isSome_iff_exists.mp holds
    exact ⟨values, column, found, valuesEq⟩

theorem getElem?_basicColumns :
    table.basicColumns[position]? = some true ↔
      ∃ column, table.columns[position]? = some column ∧ column.role = .basic := by
  simp only [basicColumns, List.getElem?_map, Option.map_eq_some_iff,
    decide_eq_true_eq]

theorem getElem?_highlight :
    table.highlight[position]? = some true ↔
      ∃ column, table.columns[position]? = some column ∧ column.role = .main := by
  simp only [highlight, List.getElem?_map, Option.map_eq_some_iff, decide_eq_true_eq]

theorem mem_mainColumns_iff :
    position ∈ table.mainColumns ↔
      ∃ column, table.columns[position]? = some column ∧ column.role = .main := by
  refine (mem_filterMap_zipIdx_iff fun _ _ => own_of_ite).trans ?_
  simp

/-- The places of the main columns are ascending. -/
theorem pairwise_mainColumns (table : Table) : table.mainColumns.Pairwise (· < ·) :=
  pairwise_filterMap_zipIdx (fun _ _ => own_of_ite) table.columns 0

end Table

namespace Setup

variable {language : Language} {setup : Setup} {table : Table} {column : Column}
  {basics mains formulas : List Formula} {formula : Formula}
  {interpretations : List Interpretation} {columns : List Column} {base n rows : Nat}

theorem ne_nil_of_checkTexts (checked : setup.checkTexts = .ok ()) :
    setup.basics ≠ [] := by
  rintro none
  rw [checkTexts, none] at checked
  cases checked

/-- Texts that are checked in pairs are ascending. -/
theorem ascending_of_checkOrder (checked : checkOrder formulas = .ok ()) :
    (formulas.map Formula.text).Pairwise (· < ·) := by
  induction formulas with
  | nil => exact .nil
  | cons previous rest inductionHypothesis =>
      cases rest with
      | nil => exact List.pairwise_singleton _ _
      | cons next rest =>
          rw [checkOrder] at checked
          split at checked
          · next before =>
              have others := inductionHypothesis checked
              refine .cons ?_ others
              intro text member
              rcases List.mem_cons.mp member with rfl | member
              · exact before
              · exact String.lt_trans before (List.rel_of_pairwise_cons others member)
          · cases checked

/-- Rows that were checked are as many as there are ways to give values, within the limit
and as declared. -/
theorem checkedRows_eq_ok (checked : setup.checkedRows n = .ok rows) :
    rows = Interpretation.rowCount n ∧ rows ≤ setup.maxRows ∧
      ∀ declared, setup.rows = some declared -> rows = declared := by
  rw [checkedRows, Interpretation.rowCount?] at checked
  split at checked
  · cases checked
  · next expected counted =>
      split at checked
      · cases checked
      · next asDeclared =>
          split at checked
          · cases checked
          · next within =>
              cases checked
              split at counted
              · cases counted
                refine ⟨rfl, Nat.le_of_not_gt within, ?_⟩
                intro declared isDeclared
                have equal : declared = Interpretation.rowCount n := by
                  simpa using Option.filter_eq_none_iff.mp asDeclared declared isDeclared
                exact equal.symm
              · cases counted

/-- What is known of a setup that was read. -/
theorem checked_of_readOperands
    (operands : setup.readOperands language = .ok (basics, mains)) :
    setup.basics ≠ [] ∧ checkOrder basics = .ok () ∧
      ∃ rows, setup.checkedRows basics.length = .ok rows := by
  rw [readOperands] at operands
  obtain ⟨⟨⟩, texts, operands⟩ := bind_eq_ok.mp operands
  obtain ⟨basics, -, operands⟩ := bind_eq_ok.mp operands
  obtain ⟨⟨⟩, order, operands⟩ := bind_eq_ok.mp operands
  obtain ⟨rows, checked, operands⟩ := bind_eq_ok.mp operands
  obtain ⟨mains, -, finished⟩ := bind_eq_ok.mp operands
  cases finished
  exact ⟨ne_nil_of_checkTexts texts, order, rows, checked⟩

theorem fits_of_mem_basicColumns
    (member : column ∈ basicColumns basics interpretations) :
    column.role = .basic ∧ column.Fits interpretations.length := by
  rw [basicColumns, List.mem_map] at member
  obtain ⟨⟨formula, place⟩, -, rfl⟩ := member
  refine ⟨rfl, rfl, ?_, fun isMain => by cases isMain⟩
  rintro _ ⟨⟩
  exact List.length_map _

/-- The columns of a main formula are not basic, and fit the rows. -/
theorem fits_of_mem_layOut
    (laidOut : layOut language basics interpretations base formula = .ok columns)
    (member : column ∈ columns) :
    column.role ≠ .basic ∧ column.Fits interpretations.length := by
  obtain ⟨items, root, decomposition, -, found, enough, rfl⟩ := layOut_eq_ok laidOut
  refine Column.fits_of_mem_place enough ?_ member
  intro entry isEntry
  constructor
  · rw [displayedValues, List.mem_map] at isEntry
    obtain ⟨place, -, rfl⟩ := isEntry
    dsimp only
    split <;> decide
  · obtain ⟨part, -, hasValues⟩ := exists_of_mem_of_forall₂
      (forall₂_displayedValues found interpretations).flip isEntry
    exact hasValues.length_eq.symm

/-- The columns of main formulas are not basic, and fit the rows. -/
theorem fits_of_mem_layOutAll
    (laidOut : layOutAll language basics interpretations base formulas = .ok columns)
    (member : column ∈ columns) :
    column.role ≠ .basic ∧ column.Fits interpretations.length := by
  induction formulas generalizing base columns with
  | nil =>
      cases laidOut
      cases member
  | cons formula formulas inductionHypothesis =>
      rw [layOutAll] at laidOut
      obtain ⟨first, foundFirst, rest⟩ := bind_eq_ok.mp laidOut
      obtain ⟨others, foundOthers, finished⟩ := bind_eq_ok.mp rest
      cases finished
      rcases List.mem_append.mp member with member | member
      · rcases List.mem_cons.mp member with rfl | member
        · exact ⟨by decide, Column.fits_blank_divider _⟩
        · exact fits_of_mem_layOut foundFirst member
      · exact inductionHypothesis foundOthers member

/-- The first columns of a table are those of the basic formulas. All others are not
basic. -/
theorem columns_of_build (built : setup.build language = .ok table) :
    ∃ leading others, table.columns = leading ++ others ∧
      leading.length = table.basics.length ∧
      (∀ column ∈ leading, column.role = .basic) ∧
      (∀ column ∈ others, column.role ≠ .basic) ∧
      ∀ column ∈ table.columns, column.Fits table.rows := by
  obtain ⟨others, -, -, columnsEq, laidOut⟩ := build_eq_ok built
  refine ⟨_, others, columnsEq, ?_, fun column => And.left ∘ fits_of_mem_basicColumns,
    fun column => And.left ∘ fits_of_mem_layOutAll laidOut, ?_⟩
  · rw [basicColumns, List.length_map, List.length_zipIdx]
  · rw [columnsEq]
    exact List.forall_mem_append.mpr ⟨fun column => And.right ∘ fits_of_mem_basicColumns,
      fun column => And.right ∘ fits_of_mem_layOutAll laidOut⟩

/-- A column is basic exactly if its place is one of the first. -/
theorem role_eq_basic_iff_of_build
    (built : setup.build language = .ok table)
    {position : Nat}
    (found : table.columns[position]? = some column) :
    column.role = .basic ↔ position < table.basics.length := by
  obtain ⟨leading, others, columnsEq, lengthEq, leadingBasic, othersNot, -⟩ :=
    columns_of_build built
  rw [columnsEq] at found
  rw [← lengthEq]
  by_cases inside : position < leading.length
  · rw [List.getElem?_append_left inside] at found
    exact iff_of_true (leadingBasic column (List.mem_of_getElem? found)) inside
  · rw [List.getElem?_append_right (Nat.le_of_not_lt inside)] at found
    exact iff_of_false (othersNot column (List.mem_of_getElem? found)) inside

/-- The vectors of a table that was built fit together. -/
theorem consistent_of_build (built : setup.build language = .ok table) :
    table.tabulation.Consistent := by
  obtain ⟨leading, others, columnsEq, lengthEq, -, -, fits⟩ := columns_of_build built
  obtain ⟨_, operands, -, -, -⟩ := build_eq_ok built
  obtain ⟨someBasic, order, rows, checked⟩ := checked_of_readOperands operands
  exact
    { basics_pos := by
        rw [← (readOperands_eq_ok operands).1.length_eq]
        exact List.length_pos_iff.mpr someBasic
      basics_ascending := ascending_of_checkOrder order
      rows_eq := (rows_eq built).trans (Interpretation.rowCount_eq_pow _)
      length_key := (List.length_map _).trans (List.length_map _).symm
      length_highlight := (List.length_map _).trans (List.length_map _).symm
      length_basicColumns := (List.length_map _).trans (List.length_map _).symm
      key_iff := fun position =>
        (Table.exists_key_iff fits).trans Table.exists_header_iff.symm
      length_values := by
        intro position values found
        obtain ⟨column, inTable, valuesEq⟩ := Table.getElem?_key.mp found
        exact (fits column (List.mem_of_getElem? inTable)).length_eq values valuesEq
      basic_iff := by
        intro position
        change table.basicColumns[position]? = some true ↔ position < table.basics.length
        rw [Table.getElem?_basicColumns]
        constructor
        · rintro ⟨column, found, isBasic⟩
          exact (role_eq_basic_iff_of_build built found).mp isBasic
        · intro inside
          have within : position < table.columns.length := by
            rw [columnsEq, List.length_append]
            omega
          have found := List.getElem?_eq_getElem within
          exact ⟨_, found, (role_eq_basic_iff_of_build built found).mpr inside⟩
      mains_ascending := table.pairwise_mainColumns
      length_mains := (forall₂_mainColumns built).length_eq.symm
      mains_values := by
        intro position member
        obtain ⟨column, found, isMain⟩ := Table.mem_mainColumns_iff.mp member
        constructor
        · refine Nat.le_of_not_lt fun inside => ?_
          cases isMain.symm.trans ((role_eq_basic_iff_of_build built found).mpr inside)
        · exact (Table.exists_key_iff fits).mpr ⟨column, found,
            (fits column (List.mem_of_getElem? found)).holdsValues_of_main isMain⟩
      highlight_iff := fun position =>
        Table.getElem?_highlight.trans Table.mem_mainColumns_iff.symm }

/-- The table has a row for each way to give the declared formulas truth values, within
the limit and as many as were declared. -/
theorem fits_setup_of_build (built : setup.build language = .ok table) :
    table.basics.length = setup.basics.length ∧
      table.mains.length = setup.mains.length ∧
      table.rows ≤ setup.maxRows ∧
      ∀ declared, setup.rows = some declared -> table.rows = declared := by
  obtain ⟨_, operands, -, -, -⟩ := build_eq_ok built
  obtain ⟨basicsRead, mainsRead⟩ := readOperands_eq_ok operands
  obtain ⟨-, -, rows, checked⟩ := checked_of_readOperands operands
  obtain ⟨rfl, within, asDeclared⟩ := checkedRows_eq_ok checked
  rw [rows_eq built]
  exact ⟨basicsRead.length_eq.symm, mainsRead.length_eq.symm, within, asDeclared⟩

/-- No vector lacks a place that is read or written, whatever is tabulated. The vectors of
a table fit together, and they fit the setup. -/
theorem tabulate_consistent (setup : Setup) (language : Language) :
    ∃ outcome, (setup.tabulate language).run = some outcome ∧
      ∀ table, outcome = .ok table ->
        table.Consistent ∧
        table.basics.length = setup.basics.length ∧
        table.mains.length = setup.mains.length ∧
        table.rows ≤ setup.maxRows ∧
        ∀ declared, setup.rows = some declared -> table.rows = declared := by
  refine ⟨_, setup.run_tabulate language, ?_⟩
  intro tabulation succeeds
  obtain ⟨table, built, rfl⟩ := map_eq_ok.mp succeeds
  exact ⟨consistent_of_build built, fits_setup_of_build built⟩

/-- The table of `A → ~B` has four rows, as they are declared. Behind two basic columns and
a divider, its main column is that of the arrow. -/
theorem tabulate_consistent_conditional :
    ∃ table,
      (tabulate ⟨["A", "B"], ["A → ~B"], some 4, 4⟩ .predicate).run = some (.ok table) ∧
      table.Consistent ∧ table.rows = 4 ∧ table.mainColumns = [4] ∧
      table.highlight = [false, false, false, false, true, false, false] := by
  have builds : succeedsWith
      (build ⟨["A", "B"], ["A → ~B"], some 4, 4⟩ .predicate)
      (fun table => table.mainColumns = [4] &&
        table.highlight = [false, false, false, false, true, false, false]) = true := by
    decide +kernel
  obtain ⟨table, built, tested⟩ := exists_of_succeedsWith builds
  rw [Bool.and_eq_true, decide_eq_true_eq, decide_eq_true_eq] at tested
  obtain ⟨mainColumns, highlight⟩ := tested
  have run := run_tabulate ⟨["A", "B"], ["A → ~B"], some 4, 4⟩ .predicate
  rw [built] at run
  obtain ⟨outcome, isOutcome, fits⟩ :=
    tabulate_consistent ⟨["A", "B"], ["A → ~B"], some 4, 4⟩ .predicate
  obtain rfl := Option.some.inj (run.symm.trans isOutcome)
  obtain ⟨consistent, -, -, -, asDeclared⟩ := fits table.tabulation rfl
  exact ⟨table.tabulation, run, consistent, asDeclared 4 rfl, mainColumns, highlight⟩

end Setup
end SymbolicLogic
