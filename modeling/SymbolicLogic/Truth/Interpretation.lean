/-!
# Interpretations

An interpretation gives each of `n` basic formulas a truth value. Rows of a
table are numbered so that the first formula is true in the upper half and the
last one alternates: a formula is true where its bit of the row number is
clear, the first formula having the highest bit.
-/

namespace SymbolicLogic

/-- Truth values of the basic formulas, in order. -/
abbrev Interpretation := List Bool

namespace Interpretation

/-- The value of the basic formula at a place. -/
def value (interpretation : Interpretation) (place : Nat) : Bool :=
  interpretation[place]?.getD true

/-- The interpretation in a row. -/
def ofRow (n row : Nat) : Interpretation :=
  (List.range n).map fun place => !row.testBit (n - 1 - place)

/-- An interpretation of a row has a value for each formula. -/
@[simp] theorem length_ofRow (n row : Nat) : (ofRow n row).length = n := by
  simp [ofRow]

/-- The number of bits of a row number. -/
def rowBits : Nat := 64

/-- The number of rows: each formula doubles it. -/
def rowCount : Nat -> Nat
  | 0 => 1
  | n + 1 => 2 * rowCount n

/-- The greatest count that has no more bits than a row number. -/
def greatestCount : Nat := rowCount rowBits - 1

/-- The number of rows, if row numbers have enough bits. -/
def rowCount? (n : Nat) : Option Nat :=
  if n < rowBits then some (rowCount n) else none

/-- All interpretations, in the order of rows. -/
def all (n : Nat) : List Interpretation :=
  (List.range (rowCount n)).map (ofRow n)

/-- There are as many interpretations as rows. -/
@[simp] theorem length_all (n : Nat) : (all n).length = rowCount n := by
  simp [all]

/-- There is always a row. -/
theorem rowCount_pos (n : Nat) : 0 < rowCount n := by
  induction n with
  | zero => simp [rowCount]
  | succ n ih => simp [rowCount, ih]

end Interpretation
end SymbolicLogic
