import SymbolicLogic.Settings.Basic
import SymbolicLogic.Toml.Document
import SymbolicLogic.Toml.Writer

/-!
# Settings as TOML documents

Settings are read from a TOML document. Keys that are missing take their
defaults, those of a language from the sentential language, and unknown keys are
passed over, but not numbers that are too large or stand for none. Every
language must be valid. A record may also be given as an array of its fields in
order; nothing is asked of further items.
-/

namespace SymbolicLogic
namespace Settings

open Toml

/-- The fields of a record, given as a table or as an array in the order of
`names`. What stands under other names must be readable; a point in time is a
table with nothing but other names. -/
def fields? (names : List String) : Value -> Option Entries
  | .table entries =>
      if entries.all fun (name, value) => names.contains name || value.isReadable
      then some entries
      else none
  | .array items => some (names.zip items)
  | .time _ => some []
  | _ => none

/-- Read a field if it is there, and use a default if it is not. -/
def fieldOr
    (entries : Entries)
    (name : String)
    (default : α)
    (read? : Value -> Option α) : Option α :=
  match entries.get? name with
  | some value => read? value
  | none => some default

/-- A natural number below a limit. -/
def natural? (limit : Nat) : Value -> Option Nat
  | .integer (.ofNat number) => if number < limit then some number else none
  | _ => none

def boolean? : Value -> Option Bool
  | .boolean value => some value
  | _ => none

def string? : Value -> Option String
  | .string text => some text
  | _ => none

/-- The glyphs of a class, written one after the other. -/
def glyphs? (value : Value) : Option (List Char) :=
  (string? value).map String.toList

/-- One glyph. -/
def glyph? (value : Value) : Option Char :=
  match glyphs? value with
  | some [c] => some c
  | _ => none

/-- An array of records. -/
def array? (read? : Value -> Option α) : Value -> Option (List α)
  | .array items => items.mapM read?
  | _ => none

/-- An infix relation; the complement may be missing. -/
def infixRelation? (value : Value) : Option InfixRelation := do
  let entries <- fields? ["symbol", "complement"] value
  let symbol <- entries.get? "symbol"
  let complement <- fieldOr entries "complement" none fun c => (glyph? c).map some
  return ⟨<- glyph? symbol, complement⟩

/-- A bracket pair. -/
def brackets? (value : Value) : Option Brackets := do
  let entries <- fields? ["open", "close"] value
  let opening <- entries.get? "open"
  let closing <- entries.get? "close"
  return ⟨<- glyph? opening, <- glyph? closing⟩

/-- The names of the fields of a language, in order. -/
def languageFields : List String :=
  ["name", "letters", "constants", "variables", "functions", "infix_relations",
    "infix_functions", "negation", "conditional", "conjunction", "disjunction",
    "biconditional", "nand", "nor", "universal", "existential", "divider",
    "brackets", "formula_metas", "term_metas", "variable_metas", "any_metas"]

/-- A language; `base` gives what is missing. -/
def languageOver? (base : Language) (value : Value) : Option Language := do
  let entries <- fields? languageFields value
  let glyphsOr := fun name (default : Language -> List Char) =>
    fieldOr entries name (default base) glyphs?
  return {
    name := <- fieldOr entries "name" base.name string?
    letters := <- glyphsOr "letters" Language.letters
    constants := <- glyphsOr "constants" Language.constants
    objectVariables := <- glyphsOr "variables" Language.objectVariables
    functions := <- glyphsOr "functions" Language.functions
    infixRelations := <-
      fieldOr entries "infix_relations" base.infixRelations
        (array? infixRelation?)
    infixFunctions := <- glyphsOr "infix_functions" Language.infixFunctions
    negation := <- glyphsOr "negation" Language.negation
    conditional := <- glyphsOr "conditional" Language.conditional
    conjunction := <- glyphsOr "conjunction" Language.conjunction
    disjunction := <- glyphsOr "disjunction" Language.disjunction
    biconditional := <- glyphsOr "biconditional" Language.biconditional
    nand := <- glyphsOr "nand" Language.nand
    nor := <- glyphsOr "nor" Language.nor
    universal := <- glyphsOr "universal" Language.universal
    existential := <- glyphsOr "existential" Language.existential
    divider := <-
      fieldOr entries "divider" base.divider fun c =>
        (glyph? c).map some
    brackets := <-
      fieldOr entries "brackets" base.brackets (array? brackets?)
    formulaMetas := <- glyphsOr "formula_metas" Language.formulaMetas
    termMetas := <- glyphsOr "term_metas" Language.termMetas
    variableMetas := <- glyphsOr "variable_metas" Language.variableMetas
    anyMetas := <- glyphsOr "any_metas" Language.anyMetas }

/-- A language; the sentential language gives what is missing. -/
def language? (value : Value) : Option Language :=
  languageOver? .sentential value

/-- The names of the fields of settings. -/
def settingsFields : List String :=
  ["max_rows", "max_attempts", "skip_basic_columns", "languages"]

/-- Settings from the entries of a document, languages not yet checked. -/
def ofEntries? (entries : Entries) : Option Settings := do
  let entries <- fields? settingsFields (.table entries)
  let initial : Settings := {}
  return {
    maxRows := <- fieldOr entries "max_rows" initial.maxRows (natural? UInt64.size)
    maxAttempts := <-
      fieldOr entries "max_attempts" initial.maxAttempts (natural? UInt32.size)
    skipBasicColumns := <-
      fieldOr entries "skip_basic_columns" initial.skipBasicColumns boolean?
    languages := <-
      fieldOr entries "languages" initial.languages (array? language?) }

/-- Decode settings from a text, and check their languages. -/
def decodeWith
    (decode? : String -> Option Settings)
    (text : String) : Except SettingsError Settings :=
  match decode? text with
  | none => .error .malformed
  | some settings =>
      match settings.languages.forM Language.validate with
      | .ok () => .ok settings
      | .error error => .error (.language error)

/-- Settings from the text of a document. -/
def ofDocument (text : String) : Except SettingsError Settings :=
  decodeWith (fun text => (Entries.ofDocument? text).bind ofEntries?) text

/-- Settings from a file, given what is in it if it can be read. -/
def ofFile
    (path : String)
    (content : Option String) : Except SettingsError Settings :=
  match content with
  | some text => ofDocument text
  | none => .error (.unreadable path)

/-- An infix relation as a table. -/
def infixRelationValue (relation : InfixRelation) : Value :=
  .table
    (("symbol", .string (String.singleton relation.symbol)) ::
      relation.complement.toList.map fun c =>
        ("complement", .string (String.singleton c)))

/-- A bracket pair as a table. -/
def bracketsValue (brackets : Brackets) : Value :=
  .table
    [("open", .string (String.singleton brackets.opening)),
      ("close", .string (String.singleton brackets.closing))]

/-- A language as a table. A missing divider is left out. -/
def languageValue (language : Language) : Value :=
  let glyphs := fun (members : List Char) => Value.string (String.ofList members)
  .table
    ([("name", .string language.name),
      ("letters", glyphs language.letters),
      ("constants", glyphs language.constants),
      ("variables", glyphs language.objectVariables),
      ("functions", glyphs language.functions),
      ("infix_relations", .array (language.infixRelations.map infixRelationValue)),
      ("infix_functions", glyphs language.infixFunctions),
      ("negation", glyphs language.negation),
      ("conditional", glyphs language.conditional),
      ("conjunction", glyphs language.conjunction),
      ("disjunction", glyphs language.disjunction),
      ("biconditional", glyphs language.biconditional),
      ("nand", glyphs language.nand),
      ("nor", glyphs language.nor),
      ("universal", glyphs language.universal),
      ("existential", glyphs language.existential)] ++
      (language.divider.toList.map fun c =>
        ("divider", .string (String.singleton c))) ++
      [("brackets", .array (language.brackets.map bracketsValue)),
        ("formula_metas", glyphs language.formulaMetas),
        ("term_metas", glyphs language.termMetas),
        ("variable_metas", glyphs language.variableMetas),
        ("any_metas", glyphs language.anyMetas)])

/-- The text of a document that holds the settings. -/
def toDocument (settings : Settings) : String :=
  Entries.write
    [("max_rows", .integer settings.maxRows),
      ("max_attempts", .integer settings.maxAttempts),
      ("skip_basic_columns", .boolean settings.skipBasicColumns),
      ("languages", .array (settings.languages.map languageValue))]

end Settings
end SymbolicLogic
