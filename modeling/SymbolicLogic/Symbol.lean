import SymbolicLogic.Text.Quoted

/-!
# Symbols

A symbol is the text of a letter, relation, term symbol, operator or
metavariable, with the class its position or its language gave it. Symbols are
told apart by their text alone: the node of an expression that holds a symbol
already says what the symbol is for.
-/

namespace SymbolicLogic

/-- What a symbol is for in its language. -/
inductive SymbolClass
  | sentenceLetter
  | relation
  | infixRelation
  | constant
  | objectVariable
  | function
  | infixFunction
  | connective
  | quantifier
  | divider
  | formulaMeta
  | termMeta
  | variableMeta
  | anyMeta
  deriving DecidableEq, Repr

namespace SymbolClass

/-- Every class. -/
def all : List SymbolClass :=
  [.sentenceLetter, .relation, .infixRelation, .constant, .objectVariable,
    .function, .infixFunction, .connective, .quantifier, .divider, .formulaMeta,
    .termMeta, .variableMeta, .anyMeta]

/-- The name of a class. -/
def name : SymbolClass -> String
  | .sentenceLetter => "SentenceLetter"
  | .relation => "Relation"
  | .infixRelation => "InfixRelation"
  | .constant => "Constant"
  | .objectVariable => "Variable"
  | .function => "Function"
  | .infixFunction => "InfixFunction"
  | .connective => "Connective"
  | .quantifier => "Quantifier"
  | .divider => "Divider"
  | .formulaMeta => "FormulaMeta"
  | .termMeta => "TermMeta"
  | .variableMeta => "VariableMeta"
  | .anyMeta => "AnyMeta"

/-- The class of a name. -/
def ofName? (name : String) : Option SymbolClass :=
  all.find? fun role => role.name = name

theorem ofName?_name (role : SymbolClass) : ofName? role.name = some role := by
  cases role <;> rfl

end SymbolClass

/-- A symbol of an object language. -/
structure Symbol where
  text : String
  role : SymbolClass
  deriving DecidableEq, Repr

namespace Symbol

/-- Symbols are the same when their texts are, whatever their classes. -/
def same (a b : Symbol) : Bool :=
  a.text == b.text

/-- Symbols are the same if their texts are. -/
@[simp] theorem same_iff (a b : Symbol) :
    a.same b = true ↔ a.text = b.text := by
  simp [same]

/-- Symbols are ordered as their texts are, by code points. -/
def order (a b : Symbol) : Ordering :=
  if a.text < b.text then .lt else if a.text = b.text then .eq else .gt

/-- Equal in order are exactly the symbols that are the same. -/
theorem order_eq_iff (a b : Symbol) :
    a.order b = .eq ↔ a.text = b.text := by
  unfold order
  split
  · next less =>
      constructor
      · intro impossible
        cases impossible
      · intro equal
        exact absurd (equal ▸ less) (String.lt_irrefl b.text)
  · split <;> simp_all

/-- A description that shows the class and the quoted text. -/
def described (symbol : Symbol) : String :=
  symbol.role.name ++ "(" ++ Text.quoted symbol.text ++ ")"

/-- The same text under another class. -/
def withRole (symbol : Symbol) (role : SymbolClass) : Symbol :=
  { symbol with role }

/-- Giving a symbol another class leaves it the same symbol. -/
theorem same_withRole (symbol : Symbol) (role : SymbolClass) :
    (symbol.withRole role).same symbol = true := by
  simp [withRole]

end Symbol

/-- A pair of characters that enclose a group. -/
structure Brackets where
  opening : Char
  closing : Char
  deriving DecidableEq, Repr

namespace Brackets

/-- The pair for a group that must be enclosed and has no pair of its own. -/
def round : Brackets := ⟨'(', ')'⟩

def square : Brackets := ⟨'[', ']'⟩

def curly : Brackets := ⟨'\x7b', '\x7d'⟩

end Brackets
end SymbolicLogic
