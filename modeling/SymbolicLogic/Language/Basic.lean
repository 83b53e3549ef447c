import SymbolicLogic.Operator
import SymbolicLogic.Symbol

/-!
# Object languages

A language lists the glyphs of each class. A connective may have several
glyphs; the first one is its primary glyph. Nothing here asks that classes be
disjoint: look-ups go through the classes in a fixed order and the first hit
wins.
-/

namespace SymbolicLogic

/-- An infix relation and, where there is one, the glyph of its complement. -/
structure InfixRelation where
  symbol : Char
  complement : Option Char
  deriving DecidableEq, Repr

/-- The symbol table of one object language. -/
structure Language where
  name : String
  letters : List Char
  constants : List Char
  objectVariables : List Char
  functions : List Char
  infixRelations : List InfixRelation
  infixFunctions : List Char
  negation : List Char
  conditional : List Char
  conjunction : List Char
  disjunction : List Char
  biconditional : List Char
  nand : List Char
  nor : List Char
  universal : List Char
  existential : List Char
  divider : Option Char
  brackets : List Brackets
  formulaMetas : List Char
  termMetas : List Char
  variableMetas : List Char
  anyMetas : List Char
  deriving DecidableEq, Repr

/-- Glyphs that serve as operators when text is cut into header items. -/
structure OperatorSet where
  unary : List Char
  binary : List Char
  binders : List Char
  deriving DecidableEq, Repr

namespace OperatorSet

def isUnary (operators : OperatorSet) (c : Char) : Bool :=
  operators.unary.contains c

def isBinary (operators : OperatorSet) (c : Char) : Bool :=
  operators.binary.contains c

def isBinder (operators : OperatorSet) (c : Char) : Bool :=
  operators.binders.contains c

/-- Unary and binary glyphs are operators; binders are not. -/
def contains (operators : OperatorSet) (c : Char) : Bool :=
  operators.isUnary c || operators.isBinary c

end OperatorSet

namespace Language

/-- Sentence letters and truth-functional connectives. -/
def sentential : Language where
  name := "Sentential"
  letters := "ABCDEFGHIJKLMNOPQRSTUVWXYZ".toList
  constants := []
  objectVariables := []
  functions := []
  infixRelations := []
  infixFunctions := []
  negation := ['~', '¬']
  conditional := ['→', '⊃']
  conjunction := ['∧', '&']
  disjunction := ['∨']
  biconditional := ['↔', '≡']
  nand := ['↑']
  nor := ['↓']
  universal := []
  existential := []
  divider := none
  brackets := [.round, .square, .curly]
  formulaMetas := "αβγδεζηθικλμ".toList
  termMetas := "ρστυφχψω".toList
  variableMetas := "νξπ".toList
  anyMetas := "ΓΔΘΛΞΠΣΦΨΩ".toList

/-- The sentential language with terms, relations and quantifiers. -/
def predicate : Language :=
  { sentential with
    name := "Predicate"
    constants := "abcdeijklmnopqrst".toList
    objectVariables := "uvwxyz".toList
    functions := "fgh".toList
    infixRelations := [⟨'=', some '≠'⟩, ⟨'<', some '≮'⟩, ⟨'≤', some '≰'⟩]
    infixFunctions := "+×*".toList
    universal := ['∀']
    existential := ['∃']
    divider := some ':' }

/-- The glyphs of a connective. -/
def glyphs (language : Language) : Connective -> List Char
  | .conditional => language.conditional
  | .conjunction => language.conjunction
  | .disjunction => language.disjunction
  | .biconditional => language.biconditional
  | .nand => language.nand
  | .nor => language.nor

/-- The glyph of a negation that no text wrote, as behind `a ≠ b`. -/
def primaryNegation (language : Language) : Char :=
  language.negation.headD '~'

/-- The first glyph of a connective, if the language has the connective. -/
def primaryGlyph? (language : Language) (connective : Connective) : Option Char :=
  (language.glyphs connective).head?

def isNegation (language : Language) (c : Char) : Bool :=
  language.negation.contains c

/-- The connective a glyph writes. -/
def connective? (language : Language) (c : Char) : Option Connective :=
  Connective.all.find? fun connective => (language.glyphs connective).contains c

/-- The quantifier a glyph writes. -/
def quantifier? (language : Language) (c : Char) : Option Quantifier :=
  if language.universal.contains c then some .universal
  else if language.existential.contains c then some .existential
  else none

/-- The bracket pair a character opens. -/
def opening? (language : Language) (c : Char) : Option Brackets :=
  language.brackets.find? fun pair => pair.opening = c

/-- The bracket pair a character closes. -/
def closing? (language : Language) (c : Char) : Option Brackets :=
  language.brackets.find? fun pair => pair.closing = c

/-- The infix relation a glyph writes. -/
def infixRelation? (language : Language) (c : Char) : Option InfixRelation :=
  language.infixRelations.find? fun relation => relation.symbol = c

/-- The infix relation whose complement a glyph writes. -/
def complementOf? (language : Language) (c : Char) : Option InfixRelation :=
  language.infixRelations.find? fun relation => relation.complement = some c

/-- The operators of the language: negations, connectives and quantifiers. -/
def operatorSet (language : Language) : OperatorSet where
  unary := language.negation
  binary := Connective.all.flatMap language.glyphs
  binders := language.universal ++ language.existential

end Language
end SymbolicLogic
