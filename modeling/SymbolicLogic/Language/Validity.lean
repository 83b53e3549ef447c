import SymbolicLogic.Language.Basic
import SymbolicLogic.Rendering.Report
import SymbolicLogic.Text.Blank

/-!
# Valid languages

A language is valid when no glyph is used twice and no glyph is blank or one of
the marks that the notation itself uses. Glyphs are checked class by class; the
first one at fault is the one reported.
-/

namespace SymbolicLogic

/-- What a glyph is used as. -/
inductive GlyphUse
  | letter
  | constant
  | objectVariable
  | function
  | infixFunction
  | negation
  | connective (connective : Connective)
  | quantifier (quantifier : Quantifier)
  | formulaMeta
  | termMeta
  | variableMeta
  | anyMeta
  | infixRelation
  | complement
  | divider
  | opening
  | closing
  deriving DecidableEq, Repr

/-- The name of a use in messages. -/
def GlyphUse.name : GlyphUse -> String
  | .letter => "letter"
  | .constant => "constant"
  | .objectVariable => "variable"
  | .function => "function"
  | .infixFunction => "infix function"
  | .negation => "negation"
  | .connective .conditional => "conditional"
  | .connective .conjunction => "conjunction"
  | .connective .disjunction => "disjunction"
  | .connective .biconditional => "biconditional"
  | .connective .nand => "nand"
  | .connective .nor => "nor"
  | .quantifier .universal => "universal quantifier"
  | .quantifier .existential => "existential quantifier"
  | .formulaMeta => "formula metavariable"
  | .termMeta => "term metavariable"
  | .variableMeta => "variable metavariable"
  | .anyMeta => "any-expression metavariable"
  | .infixRelation => "infix relation"
  | .complement => "infix relation complement"
  | .divider => "divider"
  | .opening => "open bracket"
  | .closing => "close bracket"

/-- What is wrong with a language, or with the name of one. -/
inductive LanguageError
  | unknown (name : String)
  | overlapping (language : String) (glyph : Char) (first second : GlyphUse)
  | reserved (language : String) (glyph : Char) (use : GlyphUse)
  deriving DecidableEq, Repr

namespace LanguageError

def message : LanguageError -> String
  | .unknown name => "unknown object language `" ++ name ++ "`"
  | .overlapping language glyph first second =>
      "language `" ++ language ++ "`: glyph `" ++ String.singleton glyph ++
        "` is used both as " ++ first.name ++ " and as " ++ second.name
  | .reserved language glyph use =>
      "language `" ++ language ++ "`: glyph `" ++ String.singleton glyph ++
        "` (" ++ use.name ++ ") is reserved"

end LanguageError

instance : Reportable LanguageError where
  message := LanguageError.message
  report error :=
    { title := "Configuration error"
      fragments := Report.words error.message }

namespace Language

/-- The marks of argument lists and pending substitutions. -/
def reservedGlyphs : List Char :=
  [',', '/', '^', '_']

/-- The glyphs of an infix relation with their uses. -/
def relationUses (relation : InfixRelation) : List (Char × GlyphUse) :=
  (relation.symbol, .infixRelation) ::
    (relation.complement.toList.map fun c => (c, .complement))

/-- The glyphs of a bracket pair with their uses. -/
def bracketUses (brackets : Brackets) : List (Char × GlyphUse) :=
  [(brackets.opening, .opening), (brackets.closing, .closing)]

/-- Every glyph of a language with its use, class by class. -/
def glyphUses (language : Language) : List (Char × GlyphUse) :=
  let used := fun (glyphs : List Char) (use : GlyphUse) =>
    glyphs.map fun c => (c, use)
  used language.letters .letter ++
    used language.constants .constant ++
    used language.objectVariables .objectVariable ++
    used language.functions .function ++
    used language.infixFunctions .infixFunction ++
    used language.negation .negation ++
    (Connective.all.flatMap fun connective =>
      used (language.glyphs connective) (.connective connective)) ++
    used language.universal (.quantifier .universal) ++
    used language.existential (.quantifier .existential) ++
    used language.formulaMetas .formulaMeta ++
    used language.termMetas .termMeta ++
    used language.variableMetas .variableMeta ++
    used language.anyMetas .anyMeta ++
    language.infixRelations.flatMap relationUses ++
    used language.divider.toList .divider ++
    language.brackets.flatMap bracketUses

/-- A glyph that no language may use. -/
def isReserved (c : Char) : Bool :=
  reservedGlyphs.contains c || Text.isBlank c

/-- Check uses in order, given the ones before them. -/
def checkUses
    (name : String)
    (earlier : List (Char × GlyphUse)) :
    List (Char × GlyphUse) -> Except LanguageError Unit
  | [] => .ok ()
  | (glyph, use) :: later =>
      if isReserved glyph then .error (.reserved name glyph use)
      else
        match earlier.find? fun before => before.1 = glyph with
        | some (_, first) => .error (.overlapping name glyph first use)
        | none => checkUses name (earlier ++ [(glyph, use)]) later

/-- Check that no glyph is reserved or used twice. -/
def validate (language : Language) : Except LanguageError Unit :=
  checkUses language.name [] language.glyphUses

end Language
end SymbolicLogic
