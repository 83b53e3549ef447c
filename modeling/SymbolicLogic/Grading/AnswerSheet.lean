import SymbolicLogic.Rendering.Report
import SymbolicLogic.Truth.Table
import SymbolicLogic.Truth.Value

/-!
# Grading an answer sheet

An answer sheet holds what someone wrote into the cells of a truth table, column
by column, and which columns they highlighted. It is right when it has the shape
of the table, every cell that is checked reads as the value of the table there,
and exactly the columns of whole main formulas are highlighted. The first of
these to fail is reported, with columns but never with cells.
-/

namespace SymbolicLogic

/-- What was written into a table. A column past the end of the list is not
highlighted. -/
structure AnswerSheet where
  cells : List (List String)
  highlighted : List Bool
  deriving DecidableEq, Repr

/-- What is wrong with an answer sheet. -/
inductive GradingError
  | shape (columns rows expectedColumns expectedRows : Nat)
  | wrongValues (columns : List Nat)
  | wrongHighlighting (missing unexpected : List Nat)
  deriving DecidableEq, Repr

namespace GradingError

/-- Column numbers with commas between them. -/
def listed (columns : List Nat) : String :=
  String.intercalate ", " (columns.map toString)

def message : GradingError -> String
  | .shape columns rows expectedColumns expectedRows =>
      "expected " ++ toString expectedColumns ++ " columns of " ++
        toString expectedRows ++ " rows, got " ++ toString columns ++
        " columns of " ++ toString rows ++ " rows"
  | .wrongValues columns =>
      "column(s) [" ++ listed columns ++ "] contain wrong values"
  | .wrongHighlighting missing unexpected =>
      "highlighting is wrong: missing [" ++ listed missing ++
        "], unexpected [" ++ listed unexpected ++ "]"

/-- Words on some columns, if there are any. -/
def remark (words : String) (columns : List Nat) : List TextRun :=
  if columns.isEmpty then [] else Report.words (words ++ listed columns)

/-- The body of the report. -/
def fragments : GradingError -> List TextRun
  | .shape columns rows expectedColumns expectedRows =>
      Report.words
        ("the table has " ++ toString columns ++ " column(s) of " ++
          toString rows ++ " row(s), " ++ toString expectedColumns ++
          " column(s) of " ++ toString expectedRows ++ " row(s) are needed")
  | .wrongValues columns =>
      Report.words ("column(s) " ++ listed columns ++ " contain wrong values")
  | .wrongHighlighting missing unexpected =>
      Report.words "highlight exactly the main-formula columns" ++
        remark "; not highlighted: " missing ++
        remark "; wrongly highlighted: " unexpected

end GradingError

instance : Reportable GradingError where
  message := GradingError.message
  report error :=
    { title := "Table not correct"
      fragments := error.fragments }

/-- A column of cells copied from a table. -/
def Column.copied (column : Column) (rows : Nat) : List String :=
  match column.values with
  | some values => values.map TruthValue.text
  | none => List.replicate rows ""

/-- Some cell does not read as the value of the column there. -/
def Column.differs (column : Column) (cells : List String) : Bool :=
  match column.values with
  | some values =>
      (values.zip cells).any fun (value, cell) =>
        TruthValue.ofText? cell != some value
  | none => false

namespace AnswerSheet

/-- The sheet of someone who copies the table. -/
def copy (table : Table) : AnswerSheet :=
  ⟨table.columns.map fun column => column.copied table.rows, table.highlight⟩

def isHighlighted (sheet : AnswerSheet) (column : Nat) : Bool :=
  sheet.highlighted[column]?.getD false

/-- The sheet has one column for each of the table, of as many rows. -/
def hasShape (sheet : AnswerSheet) (table : Table) : Bool :=
  sheet.cells.length = table.columns.length &&
    sheet.cells.all fun cells => cells.length = table.rows

/-- The columns with a wrong cell, in ascending order. -/
def wrongColumns
    (sheet : AnswerSheet)
    (table : Table)
    (skipBasic : Bool) : List Nat :=
  (table.columns.zip sheet.cells).zipIdx.filterMap
    fun ((column, cells), position) =>
      if (skipBasic && column.role = .basic) || !column.differs cells then none
      else some position

/-- The columns that are highlighted in the table or on the sheet, but not in
the other. -/
def highlightFaults
    (sheet : AnswerSheet)
    (table : Table)
    (expected : Bool) : List Nat :=
  table.highlight.zipIdx.filterMap fun (highlight, position) =>
    if highlight = expected && sheet.isHighlighted position != expected then
      some position
    else none

/-- Compare a sheet with a table; the basic columns may be left unchecked. -/
def grade
    (sheet : AnswerSheet)
    (table : Table)
    (skipBasic : Bool) : Except GradingError Unit :=
  if !sheet.hasShape table then
    .error
      (.shape sheet.cells.length ((sheet.cells.head?.map List.length).getD 0)
        table.columns.length table.rows)
  else
    let wrong := sheet.wrongColumns table skipBasic
    if !wrong.isEmpty then .error (.wrongValues wrong)
    else
      let missing := sheet.highlightFaults table true
      let unexpected := sheet.highlightFaults table false
      if missing.isEmpty && unexpected.isEmpty then .ok ()
      else .error (.wrongHighlighting missing unexpected)

end AnswerSheet
end SymbolicLogic
