import SymbolicLogic.Operator
import SymbolicLogic.Text.Blank

/-!
# Truth values

Truth is `true` and falsity is `false`; tables write them `T` and `F`.
-/

namespace SymbolicLogic

/-- The truth function of a connective. -/
def Connective.apply : Connective -> Bool -> Bool -> Bool
  | .conditional, left, right => !left || right
  | .conjunction, left, right => left && right
  | .disjunction, left, right => left || right
  | .biconditional, left, right => left == right
  | .nand, left, right => !(left && right)
  | .nor, left, right => !(left || right)

namespace TruthValue

/-- How a truth value is written. -/
def text (value : Bool) : String :=
  if value then "T" else "F"

/-- Read a truth value in either case, with blanks around it. -/
def ofText? (text : String) : Option Bool :=
  match Text.trim text.toList with
  | ['T'] | ['t'] => some true
  | ['F'] | ['f'] => some false
  | _ => none

/-- What is written reads back. -/
theorem ofText?_text (value : Bool) : ofText? (text value) = some value := by
  cases value <;> decide

end TruthValue
end SymbolicLogic
