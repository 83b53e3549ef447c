import SymbolicLogic.Language.Basic
import SymbolicLogic.Token.Lexeme

/-!
# Tokens

A token is a lexeme together with its part in the notation of a language. The
classes of a language are tried in a fixed order. Brackets, operators,
relations, infix functions and the four punctuation marks take no index.
-/

namespace SymbolicLogic

/-- A symbol in its part in the notation. -/
inductive Token
  | opening (brackets : Brackets)
  | closing (brackets : Brackets)
  | comma
  | slash
  | caret
  | underscore
  | negation (symbol : Symbol)
  | connective (symbol : Symbol) (connective : Connective)
  | quantifier (symbol : Symbol) (quantifier : Quantifier)
  | divider (symbol : Symbol)
  | infixRelation (symbol : Symbol)
  /-- A complement glyph with the relation it negates. -/
  | complement (relation symbol : Symbol)
  | infixFunction (symbol : Symbol)
  | letter (symbol : Symbol)
  | constant (symbol : Symbol)
  | objectVariable (symbol : Symbol)
  | function (symbol : Symbol)
  | formulaMeta (symbol : Symbol)
  | termMeta (symbol : Symbol)
  | variableMeta (symbol : Symbol)
  | anyMeta (symbol : Symbol)
  deriving DecidableEq, Repr

namespace Token

/-- The text of a token. -/
def text : Token -> String
  | .opening brackets => String.singleton brackets.opening
  | .closing brackets => String.singleton brackets.closing
  | .comma => ","
  | .slash => "/"
  | .caret => "^"
  | .underscore => "_"
  | .negation symbol | .connective symbol _ | .quantifier symbol _
  | .divider symbol | .infixRelation symbol | .complement _ symbol
  | .infixFunction symbol | .letter symbol | .constant symbol
  | .objectVariable symbol | .function symbol | .formulaMeta symbol
  | .termMeta symbol | .variableMeta symbol | .anyMeta symbol => symbol.text

end Token

/-- Why a text cannot be cut into tokens. -/
inductive LexicalError
  /-- The text is not empty but holds no symbol. -/
  | blank
  | unrecognized (text language : String)
  | strayIndex (glyph : Char) (text : String)
  deriving DecidableEq, Repr

namespace LexicalError

def message : LexicalError -> String
  | .blank => "lexing error"
  | .unrecognized text language =>
      "lexing error: unrecognized symbol `" ++ text ++ "` in language `" ++
        language ++ "`"
  | .strayIndex glyph text =>
      "lexing error: `" ++ String.singleton glyph ++
        "` cannot carry an index, found `" ++ text ++ "`"

end LexicalError

namespace Language

/-- The token of a glyph that takes no index. -/
def fixedToken? (language : Language) (c : Char) : Option Token :=
  let symbol := fun role => Symbol.mk (String.singleton c) role
  if let some brackets := language.opening? c then some (.opening brackets)
  else if let some brackets := language.closing? c then some (.closing brackets)
  else if language.isNegation c then some (.negation (symbol .connective))
  else if let some connective := language.connective? c then
    some (.connective (symbol .connective) connective)
  else if let some quantifier := language.quantifier? c then
    some (.quantifier (symbol .quantifier) quantifier)
  else if language.divider = some c then some (.divider (symbol .divider))
  else if (language.infixRelation? c).isSome then
    some (.infixRelation (symbol .infixRelation))
  else if let some relation := language.complementOf? c then
    some (.complement ⟨String.singleton relation.symbol, .infixRelation⟩
      (symbol .infixRelation))
  else if language.infixFunctions.contains c then
    some (.infixFunction (symbol .infixFunction))
  else if c = ',' then some .comma
  else if c = '/' then some .slash
  else if c = '^' then some .caret
  else if c = '_' then some .underscore
  else none

/-- The token of a glyph that may carry an index. -/
def indexedToken? (language : Language) (lexeme : Lexeme) : Option Token :=
  let c := lexeme.glyph
  let symbol := fun role => Symbol.mk lexeme.text role
  if language.letters.contains c then some (.letter (symbol .sentenceLetter))
  else if language.constants.contains c then some (.constant (symbol .constant))
  else if language.objectVariables.contains c then
    some (.objectVariable (symbol .objectVariable))
  else if language.functions.contains c then some (.function (symbol .function))
  else if language.formulaMetas.contains c then
    some (.formulaMeta (symbol .formulaMeta))
  else if language.termMetas.contains c then some (.termMeta (symbol .termMeta))
  else if language.variableMetas.contains c then
    some (.variableMeta (symbol .variableMeta))
  else if language.anyMetas.contains c then some (.anyMeta (symbol .anyMeta))
  else none

/-- The token a lexeme is in a language. -/
def classify
    (language : Language)
    (lexeme : Lexeme) : Except LexicalError Token :=
  match language.fixedToken? lexeme.glyph with
  | some token =>
      if lexeme.index.isEmpty then .ok token
      else .error (.strayIndex lexeme.glyph lexeme.text)
  | none =>
      match language.indexedToken? lexeme with
      | some token => .ok token
      | none => .error (.unrecognized lexeme.text language.name)

/-- The tokens of a text; the first lexeme that is no token is the error. -/
def tokens
    (language : Language)
    (text : String) : Except LexicalError (List Token) :=
  match Lexeme.ofText text.toList with
  | [] => if text.isEmpty then .ok [] else .error .blank
  | lexemes => lexemes.mapM language.classify

end Language
end SymbolicLogic
