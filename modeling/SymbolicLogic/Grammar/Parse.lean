import SymbolicLogic.Grammar.Formula
import SymbolicLogic.Rendering.Report

/-!
# Reading text

A text is cut into tokens of a language and read as a formula, as a term, or as
an expression of either sort. A text that could be both is a formula.
-/

namespace SymbolicLogic

/-- Why a text is not an expression. -/
inductive ParseFailure
  | lexical (error : LexicalError)
  | ungrammatical
  deriving DecidableEq, Repr

namespace ParseFailure

def message : ParseFailure -> String
  | .lexical error => error.message
  | .ungrammatical => "parse error"

end ParseFailure

/-- A text that is not an expression, and why. -/
structure ParseError where
  text : String
  failure : ParseFailure
  deriving DecidableEq, Repr

instance : Reportable ParseError where
  message error :=
    "cannot parse `" ++ error.text ++ "`: " ++ error.failure.message
  report error :=
    { title := "Not a well-formed expression"
      fragments :=
        Report.quoted error.text ++ Report.words (": " ++ error.failure.message) }

namespace Language

/-- Read a whole text by a rule. -/
def parseBy
    (language : Language)
    (rule : Rule α)
    (text : String) : Except ParseError α :=
  match language.tokens text with
  | .error error => .error ⟨text, .lexical error⟩
  | .ok tokens =>
      match rule.whole? tokens with
      | some value => .ok value
      | none => .error ⟨text, .ungrammatical⟩

/-- The negation symbol behind a complement glyph. -/
def negationSymbol (language : Language) : Symbol :=
  ⟨String.singleton language.primaryNegation, .connective⟩

/-- Read a text as a formula. -/
def parseFormula
    (language : Language)
    (text : String) : Except ParseError Formula :=
  language.parseBy (Grammar.outermost language.negationSymbol) text

/-- Read a text as a term, which may carry a pending substitution. -/
def parseTerm
    (language : Language)
    (text : String) : Except ParseError Term :=
  language.parseBy (Grammar.transformable Grammar.term) text

/-- Read a text as a formula if it is one, and else as a term. If it is neither
the failure is that of reading a formula. -/
def parseExpression
    (language : Language)
    (text : String) : Except ParseError Expression :=
  match language.parseFormula text with
  | .ok formula => .ok (.formula formula)
  | .error error =>
      match language.parseTerm text with
      | .ok term => .ok (.term term)
      | .error _ => .error error

/-- A text is a sentence of the language when it reads as a formula. -/
def isSentence (language : Language) (text : String) : Bool :=
  (language.parseFormula text).isOk

end Language
end SymbolicLogic
