import SymbolicLogic.Toml.Scalar
import SymbolicLogic.Toml.Tree

/-!
# TOML documents

A document is a list of lines, each with a header, an assignment, or nothing,
and perhaps a comment. Arrays and inline tables may go over several lines, and
so may an assignment inside one. Keys and values nest to a fixed depth.
-/

namespace SymbolicLogic
namespace Toml

/-- A comment up to the end of the line. -/
def comment : Scanner Unit := do
  Scanner.literal "#"
  let _ <- Scanner.span fun c => !isControl c
  return ()

/-- Blanks, line ends and comments. -/
def layout : Scanner Unit := do
  let _ <- Scanner.many (newline <|> comment <|> do
    let _ <- Scanner.char isGap
    return ())
  return ()

/-- Characters of a key that is not quoted. -/
def isKeyCharacter (c : Char) : Bool :=
  c.isAlphanum || c = '_' || c = '-'

/-- A key without dots. -/
def simpleKey : Scanner String :=
  (do
    let first <- Scanner.char isKeyCharacter
    let rest <- Scanner.span isKeyCharacter
    return String.ofList (first :: rest)) <|>
  lineString '"' <|> lineString '\''

/-- The greatest number of parts of a key, and of arrays and inline tables around
a value. -/
def nestingLimit : Nat := 80

/-- A key with dots between its parts, and gaps around them. -/
def dottedKey : Scanner (List String) := do
  gap
  let first <- simpleKey
  gap
  let rest <- Scanner.many do
    Scanner.literal "."
    gap
    let key <- simpleKey
    gap
    return key
  guard (rest.length < nestingLimit)
  return first :: rest

/-- An assignment, with `space` before and after the sign. -/
def assignment
    (space : Scanner Unit)
    (value : Scanner Value) : Scanner Statement := do
  let path <- dottedKey
  space
  Scanner.literal "="
  space
  return .assign path (<- value)

/-- A comma with layout around it. -/
def comma : Scanner Unit := do
  layout
  Scanner.literal ","
  layout

/-- An array, over a scanner for its items. -/
def array (value : Scanner Value) : Scanner Value := do
  Scanner.literal "["
  layout
  let items <- Scanner.listed value comma
  layout
  Scanner.literal "]"
  return .array items

/-- An inline table, over a scanner for its values. -/
def inlineTable (value : Scanner Value) : Scanner Value := do
  Scanner.literal "\x7b"
  layout
  let statements <- Scanner.listed (assignment layout value) comma
  layout
  Scanner.literal "\x7d"
  match Entries.ofStatements? statements with
  | some entries => return .table entries
  | none => failure

/-- A value with at most `depth` arrays and inline tables around each other. -/
def valueWithin : Nat -> Scanner Value
  | 0 => scalar
  | depth + 1 =>
      scalar <|> array (valueWithin depth) <|> inlineTable (valueWithin depth)

/-- A value. -/
def value : Scanner Value :=
  valueWithin nestingLimit

/-- The header of a table, or of the next table in an array. -/
def header : Scanner Statement :=
  (do
    Scanner.literal "[["
    let path <- dottedKey
    Scanner.literal "]]"
    return .item path) <|>
  (do
    Scanner.literal "["
    let path <- dottedKey
    Scanner.literal "]"
    return .header path)

/-- A line without its end. -/
def line : Scanner (Option Statement) := do
  gap
  let statement <- optional (header <|> assignment gap value)
  gap
  let _ <- optional comment
  return statement

/-- The statements of a document. -/
def statements : Scanner (List Statement) := do
  let first <- line
  let rest <- Scanner.many do
    newline
    line
  return (first :: rest).filterMap id

/-- The table a document describes, if it is well formed. A byte order mark at
the front is passed over. -/
def Entries.ofDocument? (text : String) : Option Entries :=
  let body :=
    match text.toList with
    | '\ufeff' :: rest => rest
    | characters => characters
  (statements.whole? body).bind Entries.ofStatements?

end Toml
end SymbolicLogic
