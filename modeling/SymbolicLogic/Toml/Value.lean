import SymbolicLogic.Toml.Number

/-!
# TOML values

The values of a TOML document. Points in time keep their text, since settings
have no use for them.
-/

namespace SymbolicLogic
namespace Toml

/-- A TOML value. Entries of a table are in the order they were written. -/
inductive Value
  | string (text : String)
  | integer (number : Int)
  /-- A text in the form of an integer that stands for none, such as the mark of
  a base with no digits after it. -/
  | garbled (text : String)
  | float (number : Floating)
  | boolean (value : Bool)
  | time (text : String)
  | array (items : List Value)
  | table (entries : List (String × Value))
  deriving Inhabited

/-- The entries of a table. -/
abbrev Entries := List (String × Value)

/-- The value of a key. -/
def Entries.get? (entries : Entries) (key : String) : Option Value :=
  (entries.find? fun entry => entry.1 = key).map Prod.snd

mutual

/-- Values in which every number stands for one and can be held. -/
def Value.isReadable : Value -> Bool
  | .integer number => Toml.isBounded number
  | .garbled _ => false
  | .float number => number.isBounded
  | .array items => Value.areReadable items
  | .table entries => Value.haveReadable entries
  | _ => true

/-- Lists of such values. -/
def Value.areReadable : List Value -> Bool
  | [] => true
  | item :: items => item.isReadable && Value.areReadable items

/-- Tables of such values. -/
def Value.haveReadable : List (String × Value) -> Bool
  | [] => true
  | (_, value) :: entries => value.isReadable && Value.haveReadable entries

end

/-- A list of values is readable if each of them is. -/
theorem Value.areReadable_eq_all (items : List Value) :
    Value.areReadable items = items.all Value.isReadable := by
  induction items with
  | nil => rfl
  | cons item items ih => simp [Value.areReadable, ih]

theorem Value.haveReadable_eq_all (entries : List (String × Value)) :
    Value.haveReadable entries = entries.all fun entry => entry.2.isReadable := by
  induction entries with
  | nil => rfl
  | cons entry entries ih => simp [Value.haveReadable, ih]

end Toml
end SymbolicLogic
