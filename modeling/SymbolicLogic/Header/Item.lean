import SymbolicLogic.Rendering.Run

/-!
# Header items

The header of a truth table is a list of items, one above each column. Values
stand below value items only; blank items hold stray brackets, and dividers
part the formulas of a table.
-/

namespace SymbolicLogic

inductive Alignment
  | left
  | center
  | right
  deriving DecidableEq, Repr

/-- One item of a header. -/
inductive HeaderItem
  | value (runs : List TextRun)
  | blank (runs : List TextRun)
  | divider
  deriving DecidableEq, Repr

namespace HeaderItem

def runs : HeaderItem -> List TextRun
  | .value runs => runs
  | .blank runs => runs
  | .divider => []

/-- The text of an item. -/
def text (item : HeaderItem) : String :=
  TextRun.plainText item.runs

/-- Values stand below the item. -/
def holdsValues : HeaderItem -> Bool
  | .value _ => true
  | _ => false

def isDivider : HeaderItem -> Bool
  | .divider => true
  | _ => false

/-- A divider is one character wide, other columns are at least two. -/
def minWidth : HeaderItem -> Nat
  | .divider => 1
  | _ => 2

/-- Every column is centred. -/
def alignment (_ : HeaderItem) : Alignment :=
  .center

/-- The width of the column below the item. -/
def width (item : HeaderItem) : Nat :=
  max item.minWidth item.text.length

/-- The places of the value items in a header. -/
def valuePositions (items : List HeaderItem) : List Nat :=
  items.zipIdx.filterMap fun (item, position) =>
    if item.holdsValues then some position else none

end HeaderItem
end SymbolicLogic
