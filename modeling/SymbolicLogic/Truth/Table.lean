import SymbolicLogic.Expression.Basic
import SymbolicLogic.Header.Item
import SymbolicLogic.Truth.Interpretation

/-!
# Truth tables

Seen column by column, a table is a list of columns, each below an item of the
header. A column of values belongs to a basic formula, to a part of a main
formula, or to a whole main formula; the last are the ones to be highlighted.
Seen vector by vector, it is the tabulation of its setup: the entries of the
columns, each in a vector of its own.
-/

namespace SymbolicLogic

/-- What the values of a column belong to. -/
inductive ColumnRole
  | basic
  | part
  | main
  deriving DecidableEq, Repr

/-- One column of a table. Without values it is blank. -/
structure Column where
  item : HeaderItem
  role : ColumnRole
  values : Option (List Bool)
  deriving DecidableEq, Repr

/-- A truth table, column by column. -/
structure Table where
  basics : List Formula
  mains : List Formula
  interpretations : List Interpretation
  columns : List Column

namespace Column

/-- A column of values for a basic formula. -/
def basic (runs : List TextRun) (values : List Bool) : Column :=
  ⟨.value runs, .basic, some values⟩

/-- A column without values. -/
def blank (item : HeaderItem) : Column :=
  ⟨item, .part, none⟩

/-- The value of the column in a row. -/
def value? (column : Column) (row : Nat) : Option Bool :=
  column.values.bind fun values => values[row]?

/-- Put columns of values below the value items of a header, in order. -/
def place : List HeaderItem -> List (ColumnRole × List Bool) -> List Column
  | [], _ => []
  | .value runs :: items, (role, values) :: columns =>
      ⟨.value runs, role, some values⟩ :: place items columns
  | item :: items, columns => blank item :: place items columns

end Column

namespace Table

/-- Number of rows. -/
def rows (table : Table) : Nat :=
  table.interpretations.length

/-- The items of the header. -/
def header (table : Table) : List HeaderItem :=
  table.columns.map Column.item

/-- The values of each column, where it has some. -/
def key (table : Table) : List (Option (List Bool)) :=
  table.columns.map Column.values

/-- The columns to be highlighted: those of whole main formulas. -/
def highlight (table : Table) : List Bool :=
  table.columns.map fun column => column.role = .main

/-- The columns of basic formulas. -/
def basicColumns (table : Table) : List Bool :=
  table.columns.map fun column => column.role = .basic

/-- The places of the columns of whole main formulas. -/
def mainColumns (table : Table) : List Nat :=
  table.columns.zipIdx.filterMap fun (column, position) =>
    if column.role = .main then some position else none

end Table
end SymbolicLogic
