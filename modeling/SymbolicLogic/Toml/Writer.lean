import SymbolicLogic.Toml.Value

/-!
# Writing TOML

Values are written on one line: strings between double quotes with everything
that could be mistaken escaped, arrays and tables inline. The entries of a
document have a line each.
-/

namespace SymbolicLogic
namespace Toml

/-- A digit in base sixteen. -/
def hexDigit (digit : Nat) : Char :=
  Nat.digitChar digit

/-- A character inside double quotes. Quotes, backslashes and controls are
given by number. -/
def quotedCharacter (c : Char) : String :=
  if c = '"' || c = '\\' || c.toNat < 0x20 || c.toNat = 0x7F then
    let digits := [c.toNat / 16, c.toNat % 16].map hexDigit
    "\\u00" ++ String.ofList digits
  else String.singleton c

/-- A string between double quotes. -/
def quoted (text : String) : String :=
  "\"" ++ String.join (text.toList.map quotedCharacter) ++ "\""

mutual

/-- The text of a value. -/
def Value.write : Value -> String
  | .string text => quoted text
  | .integer number => toString number
  | .garbled text => text
  | .float number => number.text
  | .boolean value => if value then "true" else "false"
  | .time text => text
  | .array items => "[" ++ String.intercalate ", " (Value.writeItems items) ++ "]"
  | .table entries =>
      "\x7b" ++ String.intercalate ", " (Value.writeEntries entries) ++ "\x7d"

/-- The texts of the items of an array. -/
def Value.writeItems : List Value -> List String
  | [] => []
  | item :: items => item.write :: Value.writeItems items

/-- The texts of the entries of a table. -/
def Value.writeEntries : List (String × Value) -> List String
  | [] => []
  | (key, value) :: entries =>
      (quoted key ++ " = " ++ value.write) :: Value.writeEntries entries

end

/-- The text of a document. -/
def Entries.write (entries : Entries) : String :=
  String.join ((Value.writeEntries entries).map (· ++ "\n"))

end Toml
end SymbolicLogic
