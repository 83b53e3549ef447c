import SymbolicLogic.Grading.AnswerSheet
import SymbolicLogic.Proofs.Truth.Consistency

/-!
# What is checked on an answer sheet

An answer sheet is compared with a table in its shape, in the cells of the columns of
values, and in the columns that are highlighted. Each check is told here by what is
written on the sheet, and the lists of faults are the ascending lists of the columns
in which the check fails.
-/

namespace SymbolicLogic

/-- The cell shows the value, if blanks at its ends and case are ignored. -/
def TruthValue.ReadsAs (cell : String) (value : Bool) : Prop :=
  (Text.trim cell.toList).map Char.toLower =
    (TruthValue.text value).toList.map Char.toLower

instance (cell : String) (value : Bool) : Decidable (TruthValue.ReadsAs cell value) :=
  inferInstanceAs (Decidable (_ = _))

namespace AnswerSheet

/-- What was written into the cell of a column in a row. -/
def cell? (sheet : AnswerSheet) (position row : Nat) : Option String :=
  sheet.cells[position]?.bind fun cells => cells[row]?

/-- The sheet has a column for each one of the table, with a cell for each row. -/
def IsShapedLike (sheet : AnswerSheet) (table : Table) : Prop :=
  sheet.cells.length = table.key.length ∧
    ∀ cells ∈ sheet.cells, cells.length = table.rows

/-- The column is left out if it is basic and basic columns are skipped. -/
def IsChecked (table : Table) (skipBasic : Bool) (position : Nat) : Prop :=
  ¬(skipBasic = true ∧ table.basicColumns[position]? = some true)

/-- If the column has values, each of its cells reads as the value in its row. -/
def IsRight (sheet : AnswerSheet) (table : Table) (position : Nat) : Prop :=
  ∀ values, table.key[position]? = some (some values) ->
    ∀ row < table.rows, ∃ value cell, values[row]? = some value ∧
      sheet.cell? position row = some cell ∧ TruthValue.ReadsAs cell value

/-- The column is checked and is not right. -/
def IsWrong
    (sheet : AnswerSheet)
    (table : Table)
    (skipBasic : Bool)
    (position : Nat) : Prop :=
  IsChecked table skipBasic position ∧ ¬sheet.IsRight table position

/-- The same columns are highlighted on the sheet and in the table. -/
def HighlightsLike (sheet : AnswerSheet) (table : Table) : Prop :=
  ∀ position < table.header.length,
    sheet.highlighted[position]? = some true ↔
      table.highlight[position]? = some true

end AnswerSheet

namespace TruthValue

variable {cell : String} {value : Bool}

theorem toNat_toLower (c : Char) :
    c.toLower.toNat =
      if 65 ≤ c.toNat ∧ c.toNat ≤ 90 then c.toNat + 32 else c.toNat := by
  by_cases capital : 65 ≤ c.toNat ∧ c.toNat ≤ 90
  · have shifted : c.toLower.toNat = (c.toNat + 32) % 2 ^ 32 :=
      (congrArg Char.toNat (dif_pos capital)).trans (UInt32.toNat_add _ _)
    rw [shifted, if_pos capital, Nat.mod_eq_of_lt (by omega)]
  · have same : c.toLower = c := dif_neg capital
    rw [same, if_neg capital]

/-- A small letter is the lower case of itself and of its capital. -/
theorem map_toLower_eq_iff
    {shown : List Char}
    (small capital : Char)
    (isSmall : 97 ≤ small.toNat ∧ small.toNat ≤ 122)
    (isCapital : capital.toNat + 32 = small.toNat) :
    shown.map Char.toLower = [small] ↔ shown = [capital] ∨ shown = [small] := by
  have lower (c : Char) : c.toLower = small ↔ c = capital ∨ c = small := by
    rw [← Char.toNat_inj, ← Char.toNat_inj, ← Char.toNat_inj, toNat_toLower]
    split <;> omega
  rw [List.map_eq_singleton_iff]
  simp only [lower]
  constructor
  · rintro ⟨c, rfl, rfl | rfl⟩
    · exact .inl rfl
    · exact .inr rfl
  · rintro (rfl | rfl)
    · exact ⟨capital, rfl, .inl rfl⟩
    · exact ⟨small, rfl, .inr rfl⟩

/-- A cell is read as a value if it shows the value. -/
theorem ofText?_eq_some_iff :
    ofText? cell = some value ↔ ReadsAs cell value := by
  rw [ofText?, ReadsAs]
  cases value with
  | true =>
      have written : (text true).toList.map Char.toLower = ['t'] := by decide
      rw [written, map_toLower_eq_iff 't' 'T' (by decide) (by decide)]
      split <;> simp_all
  | false =>
      have written : (text false).toList.map Char.toLower = ['f'] := by decide
      rw [written, map_toLower_eq_iff 'f' 'F' (by decide) (by decide)]
      split <;> simp_all

end TruthValue

/-- In some row the cell does not read as the value. -/
def TruthValue.SomeDiffers (values : List Bool) (cells : List String) : Prop :=
  ∃ (row : Nat) (value : Bool) (cell : String), values[row]? = some value ∧
    cells[row]? = some cell ∧ ¬TruthValue.ReadsAs cell value

/-- Cells differ from a column if some value of it differs. -/
theorem Column.differs_iff {column : Column} {cells : List String} :
    column.differs cells = true ↔
      ∃ values, column.values = some values ∧
        TruthValue.SomeDiffers values cells := by
  rw [Column.differs]
  cases valuesEq : column.values with
  | none => simp
  | some values =>
      simp only [List.any_eq_true, List.mem_iff_getElem?, List.getElem?_zip_eq_some,
        bne_iff_ne, ne_eq, TruthValue.ofText?_eq_some_iff]
      constructor
      · rintro ⟨⟨value, cell⟩, ⟨row, found, found'⟩, wrong⟩
        exact ⟨values, rfl, row, value, cell, found, found', wrong⟩
      · rintro ⟨_, ⟨⟩, row, value, cell, found, found', wrong⟩
        exact ⟨(value, cell), ⟨row, found, found'⟩, wrong⟩

namespace AnswerSheet

variable {sheet : AnswerSheet} {table : Table} {skipBasic : Bool} {position : Nat}

/-- The check of shapes tells whether a sheet has a column of cells for each column, as
long as the table. -/
theorem hasShape_iff : sheet.hasShape table = true ↔ sheet.IsShapedLike table := by
  simp [hasShape, IsShapedLike, Table.key]

/-- On a sheet of the right shape, a column that is not right has values and a cell
that reads otherwise. -/
theorem not_isRight_iff
    (consistent : table.tabulation.Consistent)
    (shaped : sheet.IsShapedLike table) :
    ¬sheet.IsRight table position ↔
      ∃ values cells, table.key[position]? = some (some values) ∧
        sheet.cells[position]? = some cells ∧
        TruthValue.SomeDiffers values cells := by
  constructor
  · -- The row and the shape give the cell, so that it can only be read otherwise.
    intro wrong
    simp only [IsRight, not_forall] at wrong
    obtain ⟨values, found, row, inside, none⟩ := wrong
    obtain ⟨within, -⟩ := List.getElem?_eq_some_iff.mp found
    rw [← shaped.1] at within
    have cellsEq := List.getElem?_eq_getElem within
    have inValues : row < values.length := by
      rwa [consistent.length_values position values found]
    have inCells : row < sheet.cells[position].length := by
      rwa [shaped.2 _ (List.getElem_mem _)]
    have valueEq := List.getElem?_eq_getElem inValues
    have cellEq := List.getElem?_eq_getElem inCells
    refine ⟨values, _, found, cellsEq, row, _, _, valueEq, cellEq, fun reads => ?_⟩
    exact none ⟨_, _, valueEq, by rw [cell?, cellsEq, Option.bind_some, cellEq], reads⟩
  · rintro ⟨values, cells, found, cellsEq, row, value, cell, valueEq, cellEq, wrong⟩
      right
    have inside : row < table.rows :=
      Nat.lt_of_lt_of_eq (List.getElem?_eq_some_iff.mp valueEq).1
        (consistent.length_values position values found)
    obtain ⟨value', cell', valueEq', cellEq', reads⟩ := right values found row inside
    rw [cell?, cellsEq, Option.bind_some] at cellEq'
    cases valueEq.symm.trans valueEq'
    cases cellEq.symm.trans cellEq'
    exact wrong reads

/-- Wrong columns are listed in ascending order. -/
theorem pairwise_wrongColumns
    (sheet : AnswerSheet)
    (table : Table)
    (skipBasic : Bool) : (sheet.wrongColumns table skipBasic).Pairwise (· < ·) :=
  pairwise_filterMap_zipIdx (fun _ _ => own_of_ite_not) _ 0

theorem isChecked_iff
    {column : Column}
    (inTable : table.columns[position]? = some column) :
    IsChecked table skipBasic position ↔
      (skipBasic && column.role = .basic) = false := by
  rw [IsChecked, Table.getElem?_basicColumns, inTable]
  simp

/-- The wrong columns are those that are checked and are not right. -/
theorem mem_wrongColumns_iff
    (consistent : table.tabulation.Consistent)
    (shaped : sheet.IsShapedLike table) :
    position ∈ sheet.wrongColumns table skipBasic ↔
      sheet.IsWrong table skipBasic position := by
  refine (mem_filterMap_zipIdx_iff fun _ _ => own_of_ite_not).trans ?_
  rw [IsWrong, not_isRight_iff consistent shaped]
  constructor
  · rintro ⟨⟨column, cells⟩, found, picked⟩
    obtain ⟨inTable, cellsEq⟩ := List.getElem?_zip_eq_some.mp found
    split at picked
    · cases picked
    · next kept =>
        obtain ⟨checked, differs⟩ := Bool.or_eq_false_iff.mp (Bool.eq_false_iff.mpr kept)
        obtain ⟨values, valuesEq, wrong⟩ :=
          Column.differs_iff.mp (by simpa using differs)
        exact ⟨(isChecked_iff inTable).mpr checked, values, cells,
          Table.getElem?_key.mpr ⟨column, inTable, valuesEq⟩, cellsEq, wrong⟩
  · rintro ⟨checked, values, cells, found, cellsEq, wrong⟩
    obtain ⟨column, inTable, valuesEq⟩ := Table.getElem?_key.mp found
    refine ⟨(column, cells), List.getElem?_zip_eq_some.mpr ⟨inTable, cellsEq⟩, ?_⟩
    have differs := Column.differs_iff.mpr ⟨values, valuesEq, wrong⟩
    have kept := (isChecked_iff inTable).mp checked
    rw [if_neg (by rw [kept, differs]; exact nofun)]

/-- Faults of highlighting are listed in ascending order. -/
theorem pairwise_highlightFaults
    (sheet : AnswerSheet)
    (table : Table)
    (expected : Bool) : (sheet.highlightFaults table expected).Pairwise (· < ·) :=
  pairwise_filterMap_zipIdx (fun _ _ => own_of_ite) _ 0

theorem isHighlighted_iff :
    sheet.isHighlighted position = true ↔ sheet.highlighted[position]? = some true := by
  rw [isHighlighted]
  cases sheet.highlighted[position]? with
  | none => simp
  | some flag => simp

/-- A fault is listed if the table and the sheet disagree there. -/
theorem mem_highlightFaults_iff {expected : Bool} :
    position ∈ sheet.highlightFaults table expected ↔
      table.highlight[position]? = some expected ∧
        sheet.isHighlighted position ≠ expected := by
  refine (mem_filterMap_zipIdx_iff fun _ _ => own_of_ite).trans ?_
  constructor
  · rintro ⟨highlight, found, picked⟩
    split at picked
    · next kept =>
        simp only [Bool.and_eq_true, decide_eq_true_eq, bne_iff_ne] at kept
        exact ⟨kept.1 ▸ found, kept.2⟩
    · cases picked
  · rintro ⟨found, differs⟩
    exact ⟨expected, found, if_pos (by simpa using differs)⟩

/-- There are no faults exactly if the sheet highlights what the table does. -/
theorem isEmpty_highlightFaults_iff
    (consistent : table.tabulation.Consistent) :
    ((sheet.highlightFaults table true).isEmpty &&
      (sheet.highlightFaults table false).isEmpty) = true ↔
      sheet.HighlightsLike table := by
  simp only [Bool.and_eq_true, List.isEmpty_iff, List.eq_nil_iff_forall_not_mem,
    mem_highlightFaults_iff, not_and, Decidable.not_not]
  constructor
  · rintro ⟨noneMissing, noneUnexpected⟩ position inside
    rw [← consistent.length_highlight] at inside
    have found := List.getElem?_eq_getElem inside
    rw [← isHighlighted_iff, found]
    cases expected : table.highlight[position] with
    | true => simp [noneMissing position (by rw [found, expected])]
    | false => simp [noneUnexpected position (by rw [found, expected])]
  · intro alike
    have inside {position : Nat} {expected : Bool}
        (found : table.highlight[position]? = some expected) :
        sheet.isHighlighted position = expected := by
      obtain ⟨within, -⟩ := List.getElem?_eq_some_iff.mp found
      rw [consistent.length_highlight] at within
      have same := alike position within
      rw [← isHighlighted_iff, found, Option.some_inj] at same
      exact Bool.eq_iff_iff.mpr same
    exact ⟨fun position => inside, fun position => inside⟩

end AnswerSheet
end SymbolicLogic
