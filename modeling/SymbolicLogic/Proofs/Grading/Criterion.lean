import Mathlib.Data.List.Sort
import SymbolicLogic.Proofs.Grading.Checks

/-!
# When an answer sheet is right

An answer sheet is graded against a table that was built. It is right exactly if it
has the shape of the table, the cells that are checked read as the values of the
table, and the highlighted columns are those of the table. Otherwise the first of
these conditions to fail is reported. A report on values names the wrong columns and
nothing else.
-/

namespace SymbolicLogic
namespace AnswerSheet

variable {sheet : AnswerSheet} {table : Table} {skipBasic : Bool}

theorem grade_of_not_shaped (shaped : ¬sheet.IsShapedLike table) :
    sheet.grade table skipBasic = .error (.shape sheet.cells.length
      ((sheet.cells.head?.map List.length).getD 0) table.key.length table.rows) := by
  rw [← hasShape_iff] at shaped
  rw [grade, if_pos (by simpa using shaped), Table.key, List.length_map]

/-- A sheet of the right shape fails with the list of its wrong columns, if there are any.
-/
theorem grade_of_wrong
    (consistent : table.tabulation.Consistent)
    (shaped : sheet.IsShapedLike table)
    (wrong : ∃ position, sheet.IsWrong table skipBasic position) :
    sheet.grade table skipBasic =
      .error (.wrongValues (sheet.wrongColumns table skipBasic)) := by
  obtain ⟨position, wrong⟩ := wrong
  have member := (mem_wrongColumns_iff consistent shaped).mpr wrong
  have some : (sheet.wrongColumns table skipBasic).isEmpty = false := by
    rw [List.isEmpty_eq_false_iff]
    exact List.ne_nil_of_mem member
  rw [grade, hasShape_iff.mpr shaped]
  simp [some]

/-- Otherwise its highlighting decides. -/
theorem grade_of_right
    (consistent : table.tabulation.Consistent)
    (shaped : sheet.IsShapedLike table)
    (right : ¬∃ position, sheet.IsWrong table skipBasic position) :
    sheet.grade table skipBasic =
      if (sheet.highlightFaults table true).isEmpty &&
          (sheet.highlightFaults table false).isEmpty then .ok ()
      else .error (.wrongHighlighting (sheet.highlightFaults table true)
        (sheet.highlightFaults table false)) := by
  have none : sheet.wrongColumns table skipBasic = [] := by
    rw [List.eq_nil_iff_forall_not_mem]
    intro position member
    exact right ⟨position, (mem_wrongColumns_iff consistent shaped).mp member⟩
  rw [grade, hasShape_iff.mpr shaped]
  simp [none]

/-- A sheet passes exactly if shape, values and highlighting are right. -/
theorem grade_eq_ok_iff (consistent : table.tabulation.Consistent) :
    sheet.grade table skipBasic = .ok () ↔
      sheet.IsShapedLike table ∧
        (∀ position, IsChecked table skipBasic position ->
          sheet.IsRight table position) ∧
        sheet.HighlightsLike table := by
  have noneWrong : (∀ position, IsChecked table skipBasic position ->
      sheet.IsRight table position) ↔
        ¬∃ position, sheet.IsWrong table skipBasic position := by
    simp [IsWrong]
  rw [noneWrong]
  by_cases shaped : sheet.IsShapedLike table
  · by_cases wrong : ∃ position, sheet.IsWrong table skipBasic position
    · rw [grade_of_wrong consistent shaped wrong]
      exact iff_of_false (fun passed => by cases passed) fun both => both.2.1 wrong
    · rw [grade_of_right consistent shaped wrong,
        ← isEmpty_highlightFaults_iff consistent]
      split
      · next alike => exact iff_of_true rfl ⟨shaped, wrong, alike⟩
      · next unlike =>
          exact iff_of_false (fun passed => by cases passed) fun both =>
            unlike both.2.2
  · rw [grade_of_not_shaped shaped]
    exact iff_of_false (fun passed => by cases passed) fun both => shaped both.1

/-- The copy of a table is right. -/
theorem grade_copy
    (consistent : table.tabulation.Consistent)
    (fits : ∀ column ∈ table.columns, column.Fits table.rows)
    (skipBasic : Bool) : (copy table).grade table skipBasic = .ok () := by
  rw [grade_eq_ok_iff consistent]
  refine ⟨⟨?_, ?_⟩, ?_, fun position _ => Iff.rfl⟩
  · rw [copy, Table.key, List.length_map, List.length_map]
  · intro cells member
    obtain ⟨column, isColumn, rfl⟩ := List.mem_map.mp member
    rw [Column.copied]
    split
    · next values valuesEq =>
        rw [List.length_map]
        exact (fits column isColumn).length_eq values valuesEq
    · exact List.length_replicate
  · intro position _ values found row inside
    obtain ⟨column, inTable, valuesEq⟩ := Table.getElem?_key.mp found
    have inValues : row < values.length := by
      rwa [(fits column (List.mem_of_getElem? inTable)).length_eq values valuesEq]
    refine ⟨values[row], TruthValue.text values[row], List.getElem?_eq_getElem inValues,
      ?_, TruthValue.ofText?_eq_some_iff.mp (TruthValue.ofText?_text _)⟩
    simp [cell?, copy, inTable, Column.copied, valuesEq, inValues]

/-- A sheet is right exactly if it has the shape of the table, its checked cells read
as the values of the table, and the same columns are highlighted. Otherwise the first
of these conditions to fail is reported: the numbers of columns and rows, all wrong
columns, or all columns that are wrongly highlighted or not. Sheets with the same
wrong columns are reported alike. The copy of the table is right. -/
theorem grade_exact
    {language : Language}
    {setup : Setup}
    (built : setup.build language = .ok table)
    (skipBasic : Bool) :
    (∀ sheet : AnswerSheet,
      sheet.grade table skipBasic = .ok () ↔
        sheet.IsShapedLike table ∧
          (∀ position, IsChecked table skipBasic position ->
            sheet.IsRight table position) ∧
          sheet.HighlightsLike table) ∧
    (∀ sheet : AnswerSheet, ¬sheet.IsShapedLike table ->
      sheet.grade table skipBasic = .error (.shape sheet.cells.length
        ((sheet.cells.head?.map List.length).getD 0) table.key.length table.rows)) ∧
    (∀ sheet : AnswerSheet, sheet.IsShapedLike table ->
      (∃ position, sheet.IsWrong table skipBasic position) ->
      ∃ columns, sheet.grade table skipBasic = .error (.wrongValues columns) ∧
        columns.Pairwise (· < ·) ∧
        ∀ position, position ∈ columns ↔ sheet.IsWrong table skipBasic position) ∧
    (∀ sheet other : AnswerSheet,
      sheet.IsShapedLike table -> other.IsShapedLike table ->
      (∃ position, sheet.IsWrong table skipBasic position) ->
      (∀ position, sheet.IsWrong table skipBasic position ↔
        other.IsWrong table skipBasic position) ->
      sheet.grade table skipBasic = other.grade table skipBasic) ∧
    (∀ sheet : AnswerSheet, sheet.IsShapedLike table ->
      (¬∃ position, sheet.IsWrong table skipBasic position) ->
      ¬sheet.HighlightsLike table ->
      ∃ missing unexpected,
        sheet.grade table skipBasic = .error (.wrongHighlighting missing unexpected) ∧
        missing.Pairwise (· < ·) ∧ unexpected.Pairwise (· < ·) ∧
        (∀ position : Nat, position ∈ missing ↔
          table.highlight[position]? = some true ∧
            ¬sheet.highlighted[position]? = some true) ∧
        ∀ position : Nat, position ∈ unexpected ↔
          table.highlight[position]? = some false ∧
            sheet.highlighted[position]? = some true) ∧
    (copy table).grade table skipBasic = .ok () := by
  have consistent := Setup.consistent_of_build built
  obtain ⟨_, _, -, -, -, -, fits⟩ := Setup.columns_of_build built
  refine ⟨fun sheet => grade_eq_ok_iff consistent,
    fun sheet => grade_of_not_shaped, ?_, ?_, ?_, grade_copy consistent fits skipBasic⟩
  · intro sheet shaped wrong
    exact ⟨_, grade_of_wrong consistent shaped wrong, sheet.pairwise_wrongColumns _ _,
      fun position => mem_wrongColumns_iff consistent shaped⟩
  · intro sheet other shaped shaped' wrong same
    have wrong' : ∃ position, other.IsWrong table skipBasic position := by
      simpa only [same] using wrong
    have columnsEq : sheet.wrongColumns table skipBasic =
        other.wrongColumns table skipBasic := by
      refine (sheet.pairwise_wrongColumns _ _).eq_of_mem_iff
        (other.pairwise_wrongColumns _ _) fun position => ?_
      rw [mem_wrongColumns_iff consistent shaped, same,
        mem_wrongColumns_iff consistent shaped']
    rw [grade_of_wrong consistent shaped wrong,
      grade_of_wrong consistent shaped' wrong', columnsEq]
  · intro sheet shaped right unlike
    rw [grade_of_right consistent shaped right,
      if_neg (mt (isEmpty_highlightFaults_iff consistent).mp unlike)]
    refine ⟨_, _, rfl, sheet.pairwise_highlightFaults _ _,
      sheet.pairwise_highlightFaults _ _, fun position => ?_, fun position => ?_⟩
    · rw [mem_highlightFaults_iff, ← isHighlighted_iff]
    · rw [mem_highlightFaults_iff, ← isHighlighted_iff]
      simp

/-- In the table of `~A` there are four columns, the third of which is the main one. An
empty sheet, one with empty cells and one without highlighting are told apart. -/
theorem grade_exact_negation :
    ∃ table, Setup.build ⟨["A"], ["~A"], none, 2⟩ .sentential = .ok table ∧
      (copy table).grade table false = .ok () ∧
      (⟨[], []⟩ : AnswerSheet).grade table false = .error (.shape 0 0 4 2) ∧
      (∃ columns, (⟨List.replicate 4 ["", ""], []⟩ : AnswerSheet).grade table false =
        .error (.wrongValues columns) ∧ 0 ∈ columns) ∧
      ∃ missing unexpected, (⟨(copy table).cells, []⟩ : AnswerSheet).grade table false =
        .error (.wrongHighlighting missing unexpected) ∧ 2 ∈ missing := by
  have builds : succeedsWith
      (Setup.build ⟨["A"], ["~A"], none, 2⟩ .sentential)
      (fun table => table.rows == 2 && table.key.length == 4 &&
        table.header[0]?.any HeaderItem.holdsValues &&
        table.highlight == [false, false, true, false]) = true := by
    decide +kernel
  obtain ⟨table, built, tested⟩ := exists_of_succeedsWith builds
  simp only [Bool.and_eq_true, beq_iff_eq, Option.any_eq_true] at tested
  obtain ⟨⟨⟨rowsEq, lengthEq⟩, first⟩, highlightEq⟩ := tested
  obtain ⟨accepted, shape, values, -, highlighting, copied⟩ := grade_exact built false
  obtain ⟨shaped, right, -⟩ := (accepted (copy table)).mp copied
  refine ⟨table, built, copied, ?_, ?_, ?_⟩
  · rw [shape ⟨[], []⟩ (by simp [IsShapedLike, lengthEq]), lengthEq, rowsEq]
    rfl
  · have wrong : IsWrong ⟨List.replicate 4 ["", ""], []⟩ table false 0 := by
      refine ⟨fun skipped => Bool.false_ne_true skipped.1, fun right => ?_⟩
      obtain ⟨entries, found⟩ := ((Setup.consistent_of_build built).key_iff 0).mpr first
      obtain ⟨value, _, -, ⟨⟩, reads⟩ := right entries found 0 (by rw [rowsEq]; decide)
      revert reads
      cases value <;> decide
    obtain ⟨columns, graded, -, isWrong⟩ := values ⟨List.replicate 4 ["", ""], []⟩
      (by simp [IsShapedLike, lengthEq, rowsEq]) ⟨0, wrong⟩
    exact ⟨columns, graded, (isWrong 0).mpr wrong⟩
  · have unlike : ¬HighlightsLike ⟨(copy table).cells, []⟩ table := by
      intro alike
      have third := alike 2 (by
        rw [← (Setup.consistent_of_build built).length_key, lengthEq]
        decide)
      simp [highlightEq] at third
    have noneWrong : ¬∃ position,
        IsWrong ⟨(copy table).cells, []⟩ table false position := by
      rintro ⟨position, checked, wrong⟩
      exact wrong (right position checked)
    obtain ⟨missing, unexpected, graded, -, -, isMissing, -⟩ :=
      highlighting ⟨(copy table).cells, []⟩ shaped noneWrong unlike
    exact ⟨missing, unexpected, graded, (isMissing 2).mpr (by simp [highlightEq])⟩

end AnswerSheet
end SymbolicLogic
