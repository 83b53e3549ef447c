/-!
# Scanning text

A scanner reads a value off the front of a text, or fails and consumes nothing.
-/

namespace SymbolicLogic
namespace Toml

/-- A value read off the front of a text, with the text after it. -/
abbrev Scanner (α : Type) := StateT (List Char) Option α

namespace Scanner

/-- Read one character of a class. -/
def char (isMember : Char -> Bool) : Scanner Char := fun
  | [] => none
  | c :: rest => if isMember c then some (c, rest) else none

/-- Read the given characters. -/
def literal (expected : String) : Scanner Unit := fun text =>
  if expected.toList.isPrefixOf text then
    some ((), text.drop expected.length)
  else none

/-- Read all characters of a class at the front. -/
def span (isMember : Char -> Bool) : Scanner (List Char) := fun text =>
  some (text.takeWhile isMember, text.dropWhile isMember)

/-- Look at what follows without reading it. -/
def ahead (expected : String) : Scanner Bool := fun text =>
  some (expected.toList.isPrefixOf text, text)

/-- Read as many values as there are, but not more than `limit`. -/
def upTo (scanner : Scanner α) : Nat -> Scanner (List α)
  | 0 => pure []
  | limit + 1 =>
      (do
        let value <- scanner
        let values <- scanner.upTo limit
        return value :: values) <|>
      pure []

/-- Read as many values as there are; each takes a character or more. -/
def many (scanner : Scanner α) : Scanner (List α) := fun text =>
  scanner.upTo text.length text

/-- Read values with separators between them, perhaps none, and perhaps a last
separator, but not more than `limit` values. -/
def listedUpTo
    (scanner : Scanner α)
    (separator : Scanner Unit) : Nat -> Scanner (List α)
  | 0 => pure []
  | limit + 1 => do
      match <- optional scanner with
      | none => return []
      | some value =>
          match <- optional separator with
          | none => return [value]
          | some () =>
              let values <- scanner.listedUpTo separator limit
              return value :: values

/-- Read values with separators between them, perhaps none, and perhaps a last
separator. Each value takes a character or more. -/
def listed
    (scanner : Scanner α)
    (separator : Scanner Unit) : Scanner (List α) := fun text =>
  scanner.listedUpTo separator text.length text

/-- Read a value that uses up the text. -/
def whole? (scanner : Scanner α) (text : List Char) : Option α :=
  match scanner text with
  | some (value, []) => some value
  | _ => none

end Scanner
end Toml
end SymbolicLogic
