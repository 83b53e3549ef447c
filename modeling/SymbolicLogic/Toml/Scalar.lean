import SymbolicLogic.Toml.Scanner
import SymbolicLogic.Toml.Value

/-!
# TOML scalars

Strings in their four forms, integers in four bases, numbers with a fraction,
truth values, dates and times.
-/

namespace SymbolicLogic
namespace Toml

/-- Spaces and tabs. -/
def isGap (c : Char) : Bool :=
  c = ' ' || c = '\t'

/-- Control characters other than the tab, which no string or comment may
hold. -/
def isControl (c : Char) : Bool :=
  (c.toNat < 0x20 && c != '\t') || c.toNat = 0x7F

/-- Spaces and tabs, if there are any. -/
def gap : Scanner Unit := do
  let _ <- Scanner.span isGap
  return ()

/-- A line end. -/
def newline : Scanner Unit :=
  Scanner.literal "\n" <|> Scanner.literal "\r\n"

/-! ## Strings -/

/-- The value of a digit in base sixteen. -/
def hexDigit? (c : Char) : Option Nat :=
  if '0' <= c && c <= '9' then some (c.toNat - '0'.toNat)
  else if 'a' <= c && c <= 'f' then some (c.toNat - 'a'.toNat + 10)
  else if 'A' <= c && c <= 'F' then some (c.toNat - 'A'.toNat + 10)
  else none

/-- The number with the given digits. -/
def ofDigits (base : Nat) (digits : List Nat) : Nat :=
  digits.foldl (fun number digit => base * number + digit) 0

/-- Digits in base sixteen, as many as given. -/
def hexDigits : Nat -> Scanner (List Nat)
  | 0 => pure []
  | count + 1 => do
      let c <- Scanner.char fun c => (hexDigit? c).isSome
      let digits <- hexDigits count
      return (hexDigit? c).getD 0 :: digits

/-- A character by its number. -/
def numbered (count : Nat) : Scanner Char := do
  let number := ofDigits 16 (<- hexDigits count)
  if number.isValidChar then return Char.ofNat number else failure

/-- What stands for a character after a backslash. -/
def escapeLetters : List (Char × Char) :=
  [('b', '\x08'), ('t', '\t'), ('n', '\n'), ('f', '\x0c'), ('r', '\r'),
    ('e', '\x1b'), ('"', '"'), ('\\', '\\')]

/-- An escaped character. -/
def escape : Scanner Char := do
  Scanner.literal "\\"
  let c <- Scanner.char fun _ => true
  match escapeLetters.find? fun pair => pair.1 = c with
  | some pair => return pair.2
  | none =>
      if c = 'x' then numbered 2
      else if c = 'u' then numbered 4
      else if c = 'U' then numbered 8
      else failure

/-- A character that stands for itself between the given quotes. -/
def verbatim (quote : Char) : Scanner Char :=
  Scanner.char fun c => c != quote && !isControl c

/-- A string on one line. Escapes are read between double quotes only. -/
def lineString (quote : Char) : Scanner String := do
  let mark := String.singleton quote
  Scanner.literal mark
  let content <- Scanner.many
    (if quote = '"' then
      escape <|> Scanner.char fun c => c != '"' && c != '\\' && !isControl c
    else verbatim quote)
  Scanner.literal mark
  return String.ofList content

/-- A line end after a backslash, with all blanks and line ends after it. -/
def continuation : Scanner (List Char) := do
  Scanner.literal "\\"
  gap
  newline
  let _ <- Scanner.many (newline <|> do
    let _ <- Scanner.char isGap
    return ())
  return []

/-- A piece of a string over several lines. -/
def linesPiece (quote : Char) : Scanner (List Char) :=
  let plain : Scanner (List Char) := do
    let c <- Scanner.char fun c =>
      c != quote && !isControl c && !(quote = '"' && c = '\\')
    return [c]
  let lineEnd : Scanner (List Char) :=
    (do
      Scanner.literal "\n"
      return ['\n']) <|>
    (do
      Scanner.literal "\r\n"
      return ['\r', '\n'])
  let single : Scanner (List Char) := do
    if <- Scanner.ahead (String.ofList (List.replicate 3 quote)) then failure
    else
      let c <- Scanner.char (· = quote)
      return [c]
  let escaped : Scanner (List Char) :=
    if quote = '"' then (do return [<- escape]) <|> continuation else failure
  escaped <|> plain <|> lineEnd <|> single

/-- A string over several lines. A line end directly after the opening marks
does not belong to it, and up to two quotes may stand before the closing
marks. -/
def linesString (quote : Char) : Scanner String := do
  let marks := String.ofList (List.replicate 3 quote)
  Scanner.literal marks
  let _ <- optional newline
  let pieces <- Scanner.many (linesPiece quote)
  Scanner.literal marks
  let extra <- Scanner.upTo (Scanner.char (· = quote)) 2
  return String.ofList (pieces.flatten ++ extra)

/-- A string in any of its forms. -/
def string : Scanner String :=
  linesString '"' <|> linesString '\'' <|> lineString '"' <|> lineString '\''

/-! ## Numbers -/

/-- Digits of a base. -/
def isDigitOf (base : Nat) (c : Char) : Bool :=
  ((hexDigit? c).map fun digit => decide (digit < base)).getD false

/-- Whether every underscore stands between two digits. -/
def isGrouped (isDigit : Char -> Bool) : List Char -> Bool
  | [] => true
  | [c] => c != '_'
  | c :: '_' :: next :: rest =>
      isDigit c && isDigit next && isGrouped isDigit (next :: rest)
  | c :: rest => c != '_' && isGrouped isDigit rest

/-- The number that digits of a base stand for, underscores passed over. -/
def natural? (base : Nat) (text : List Char) : Option Nat :=
  let digits := text.filter (· != '_')
  if !digits.isEmpty && digits.all (isDigitOf base) then
    some (ofDigits base (digits.filterMap hexDigit?))
  else none

/-- A decimal number without needless zeros in front. -/
def decimal? (text : List Char) : Option Nat :=
  if text.head? = some '0' && (text.filter Char.isDigit).length > 1 then none
  else natural? 10 text

/-- The sign of a number, if it has one, and the text after it. -/
def signed : List Char -> Option Char × List Char
  | '+' :: body => (some '+', body)
  | '-' :: body => (some '-', body)
  | text => (none, text)

/-- A number with a sign. -/
def withSign (sign : Option Char) (number : Nat) : Int :=
  if sign = some '-' then -number else number

/-- The base that is marked in front of a text, and the text after the mark. -/
def based? : List Char -> Option (Nat × List Char)
  | '0' :: 'x' :: digits => some (16, digits)
  | '0' :: 'o' :: digits => some (8, digits)
  | '0' :: 'b' :: digits => some (2, digits)
  | _ => none

/-- The form of an integer after the mark of its base. It may lack digits. -/
def isBasedForm (base : Nat) (digits : List Char) : Bool :=
  digits.all (fun c => c = '_' || isDigitOf base c) &&
    isGrouped (isDigitOf 16) digits

/-- The form of a decimal integer after its sign: no needless zero in front, and
nothing but digits up to the first underscore. After it come any characters that
do not make another kind of number, with digits, if only of base sixteen, around
the underscores. -/
def isDecimalForm (body : List Char) : Bool :=
  let rest := body.dropWhile Char.isDigit
  !body.isEmpty &&
    (body = ['0'] || body.head? != some '0') &&
    (rest.isEmpty || rest.head? = some '_') &&
    rest.all (fun c => c != '.' && c != 'e' && c != 'E') &&
    isGrouped (isDigitOf 16) body

/-- A text in the form of an integer. Only decimal integers have signs. -/
def integer? (text : List Char) : Option Value :=
  let ofDigits := fun base sign digits =>
    match natural? base digits with
    | some number => Value.integer (withSign sign number)
    | none => Value.garbled (String.ofList text)
  match based? text with
  | some (base, digits) =>
      if isBasedForm base digits then some (ofDigits base none digits) else none
  | none =>
      let (sign, body) := signed text
      if isDecimalForm body then some (ofDigits 10 sign body) else none

/-- What stands before and after the first character of a class. -/
def parted? (isMark : Char -> Bool) (text : List Char) :
    Option (List Char × List Char) :=
  match text.dropWhile fun c => !isMark c with
  | [] => none
  | _ :: rest => some (text.takeWhile fun c => !isMark c, rest)

/-- The coefficient and the power of ten of a number without a sign that has a
fraction, an exponent, or both. -/
def scientific? (text : List Char) : Option (Nat × Int) := do
  let isMark := fun c => c = 'e' || c = 'E'
  let (mantissa, exponent) <-
    match parted? isMark text with
    | none => some (text, 0)
    | some (mantissa, exponent) =>
        let (sign, digits) := signed exponent
        (natural? 10 digits).map fun power => (mantissa, withSign sign power)
  match parted? (· = '.') mantissa with
  | none =>
      let coefficient <- decimal? mantissa
      if (parted? isMark text).isSome then return (coefficient, exponent)
      else none
  | some (whole, fraction) =>
      let _ <- decimal? whole
      let _ <- natural? 10 fraction
      let coefficient <- natural? 10 (whole ++ fraction)
      let places := (fraction.filter (· != '_')).length
      return (coefficient, exponent - places)

/-- A number with a fraction or an exponent, or one of the two special words. -/
def floating? (text : List Char) : Option Floating :=
  let (sign, body) := signed text
  let isNegative := decide (sign = some '-')
  if body = "inf".toList then some (.infinite isNegative)
  else if body = "nan".toList then some .undefined
  else if isGrouped Char.isDigit body then
    (scientific? body).map fun (coefficient, exponent) =>
      .finite isNegative coefficient exponent
  else none

/-! ## Dates and times -/

/-- A number that starts with the digits `read` and goes on for `count` more. -/
def digitsAfter (read count : Nat) : Scanner Nat :=
  match count with
  | 0 => pure read
  | count + 1 => do
      let c <- Scanner.char Char.isDigit
      digitsAfter (10 * read + (c.toNat - '0'.toNat)) count

/-- A number of a fixed count of decimal digits. -/
def digits (count : Nat) : Scanner Nat :=
  digitsAfter 0 count

/-- The number of days in a month. -/
def monthLength (year month : Nat) : Nat :=
  if month = 2 then
    if year % 4 = 0 && (year % 100 != 0 || year % 400 = 0) then 29 else 28
  else if month = 4 || month = 6 || month = 9 || month = 11 then 30
  else 31

/-- A calendar date. -/
def date : Scanner Unit := do
  let year <- digits 4
  Scanner.literal "-"
  let month <- digits 2
  Scanner.literal "-"
  let day <- digits 2
  guard (1 <= month && month <= 12 && 1 <= day && day <= monthLength year month)

/-- Hours and minutes. -/
def clock : Scanner Unit := do
  let hours <- digits 2
  Scanner.literal ":"
  let minutes <- digits 2
  guard (hours <= 23 && minutes <= 59)

/-- Seconds, perhaps with a fraction. -/
def seconds : Scanner Unit := do
  Scanner.literal ":"
  let count <- digits 2
  guard (count <= 60)
  let _ <- optional do
    Scanner.literal "."
    let _ <- Scanner.char Char.isDigit
    let _ <- Scanner.span Char.isDigit
  return ()

/-- A time of day; seconds may be missing. -/
def timeOfDay : Scanner Unit := do
  clock
  let _ <- optional seconds
  return ()

/-- An offset from universal time. -/
def offset : Scanner Unit :=
  (do
    let _ <- Scanner.char fun c => c = 'Z' || c = 'z'
    return ()) <|>
  (do
    let _ <- Scanner.char fun c => c = '+' || c = '-'
    clock)

/-- A date, a time of day, or both, and then perhaps an offset. -/
def pointInTime : Scanner Unit :=
  timeOfDay <|> do
    date
    let _ <- optional do
      let _ <- Scanner.char fun c => c = 'T' || c = 't' || c = ' '
      timeOfDay
      let _ <- optional offset
      return ()
    return ()

/-- The text of a date, of a time of day, or of both. -/
def isTime (text : List Char) : Bool :=
  (Scanner.whole? pointInTime text).isSome

/-! ## Bare values -/

/-- Characters of a value that is not quoted: all but blanks, line ends and those
that structure a document. -/
def isBare (c : Char) : Bool :=
  !" \t\r\n#,=[]\x7b\x7d".toList.contains c

/-- A value that is not quoted. A date may be parted by a space from a time. -/
def bare : Scanner Value := do
  let first <- Scanner.span isBare
  let second <-
    if (Scanner.whole? date first).isSome then
      (do
        Scanner.literal " "
        let digit <- Scanner.char Char.isDigit
        let rest <- Scanner.span isBare
        return ' ' :: digit :: rest) <|>
      pure []
    else pure []
  let text := first ++ second
  if text = "true".toList then return .boolean true
  else if text = "false".toList then return .boolean false
  else if let some number := integer? text then return number
  else if let some number := floating? text then return .float number
  else if isTime text then return .time (String.ofList text)
  else failure

/-- A value with no values inside it. -/
def scalar : Scanner Value :=
  (do return .string (<- string)) <|> bare

end Toml
end SymbolicLogic
