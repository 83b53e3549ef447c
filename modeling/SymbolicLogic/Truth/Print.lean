import SymbolicLogic.Rendering.Screen
import SymbolicLogic.Truth.Table
import SymbolicLogic.Truth.Value

/-!
# Printing truth tables

A table is printed as one line for the header and one for each row. Every column
is as wide as its item, and cells are aligned in it as the item says; dividers
are bars. Highlighted columns are bold on a terminal.
-/

namespace SymbolicLogic

/-- Spaces to the left and to the right of a text in a column. -/
def Alignment.padding (alignment : Alignment) (length width : Nat) : Nat × Nat :=
  let extra := width - length
  match alignment with
  | .left => (0, extra)
  | .right => (extra, 0)
  | .center => (extra / 2, extra - extra / 2)

/-- The two sides fill up the column. -/
theorem Alignment.padding_add (alignment : Alignment) (length width : Nat) :
    (alignment.padding length width).1 + (alignment.padding length width).2 =
      width - length := by
  cases alignment <;> simp [padding]
  omega

/-- A number of spaces. -/
def Command.spaces (count : Nat) : Command :=
  .write (String.ofList (List.replicate count ' '))

/-- Commands with the padding of a column around them. -/
def HeaderItem.padded
    (item : HeaderItem)
    (length : Nat)
    (commands : List Command) : List Command :=
  let (left, right) := item.alignment.padding length item.width
  Command.spaces left :: commands ++ [Command.spaces right]

namespace Column

/-- The header of a column. -/
def headerCommands (column : Column) : List Command :=
  if column.item.isDivider then [.write "|"]
  else
    column.item.padded column.item.text.length
      (Command.ofRuns column.item.runs)

/-- The text of a cell, empty in a column without values. -/
def cellText (column : Column) (row : Nat) : String :=
  match column.value? row with
  | some value => TruthValue.text value
  | none => ""

/-- The cell of a column in a row. -/
def cellCommands (column : Column) (row : Nat) : List Command :=
  if column.item.isDivider then [.write "|"]
  else
    let cell := column.cellText row
    column.item.padded cell.length
      (if column.role = .main then
        [.setPaint { bold := true }, .write cell, .reset]
      else [.write cell])

end Column

namespace Table

/-- The table on a terminal. -/
def commands (table : Table) : List Command :=
  table.columns.flatMap Column.headerCommands ++ [.write "\n"] ++
    (List.range table.rows).flatMap fun row =>
      (table.columns.flatMap fun column => column.cellCommands row) ++
        [.write "\n"]

/-- The table as plain text. -/
def text (table : Table) : String :=
  Command.visibleText table.commands

end Table
end SymbolicLogic
