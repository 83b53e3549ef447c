import SymbolicLogic.Text.Unprintable

/-!
# Quoted text

Quoted text stands between double quotes. Quotes and backslashes are escaped,
common controls have letters, and every other character without a shape of its
own is shown by its number in base sixteen.
-/

namespace SymbolicLogic
namespace Text

/-- Digits in base sixteen, without leading zeros. -/
def hexadecimal (number : Nat) : String :=
  String.ofList (Nat.toDigits 16 number)

/-- A character inside double quotes. -/
def escaped (c : Char) : String :=
  if c = '"' then "\\\""
  else if c = '\\' then "\\\\"
  else if c = '\n' then "\\n"
  else if c = '\r' then "\\r"
  else if c = '\t' then "\\t"
  else if c = '\x00' then "\\0"
  else if isUnprintable c then "\\u\x7b" ++ hexadecimal c.toNat ++ "\x7d"
  else String.singleton c

/-- The text between double quotes. -/
def quoted (text : String) : String :=
  "\"" ++ String.join (text.toList.map escaped) ++ "\""

end Text
end SymbolicLogic
