import SymbolicLogic.Expression.Basic

/-!
# Kinds and parts of expressions

Each node has a kind and a list of children. A pending substitution is not a
child: neither the level of a node nor its children see it, while a
metavariable inside it does make the expression schematic.
-/

namespace SymbolicLogic

/-- The kinds of nodes, in the order in which they are numbered. -/
inductive ExpressionKind
  | anyExpression
  | sentenceLetter
  | relation
  | infixRelation
  | negation
  | conditional
  | conjunction
  | disjunction
  | biconditional
  | nand
  | nor
  | universal
  | existential
  | boundedUniversal
  | boundedExistential
  | restrictedUniversal
  | restrictedExistential
  | constant
  | objectVariable
  | function
  | infixFunction
  | formulaMeta
  | complexFormulaMeta
  | termMeta
  | complexTermMeta
  | variableMeta
  deriving DecidableEq, Repr

/-- What an expression of some kind may stand for. -/
inductive ExpressionCategory
  | anyExpression
  | formula
  | term
  deriving DecidableEq, Repr

namespace ExpressionKind

/-- Every kind, in numbering order. -/
def all : List ExpressionKind :=
  [.anyExpression, .sentenceLetter, .relation, .infixRelation, .negation,
    .conditional, .conjunction, .disjunction, .biconditional, .nand, .nor,
    .universal, .existential, .boundedUniversal, .boundedExistential,
    .restrictedUniversal, .restrictedExistential, .constant, .objectVariable,
    .function, .infixFunction, .formulaMeta, .complexFormulaMeta, .termMeta,
    .complexTermMeta, .variableMeta]

/-- The kind with a given number. -/
def ofNumber? (number : Nat) : Option ExpressionKind :=
  all[number]?

def category : ExpressionKind -> ExpressionCategory
  | .anyExpression => .anyExpression
  | .constant | .objectVariable | .function | .infixFunction | .termMeta
  | .complexTermMeta | .variableMeta => .term
  | _ => .formula

def isMetavariable : ExpressionKind -> Bool
  | .anyExpression | .formulaMeta | .complexFormulaMeta | .termMeta
  | .complexTermMeta | .variableMeta => true
  | _ => false

def isQuantifier : ExpressionKind -> Bool
  | .universal | .existential | .boundedUniversal | .boundedExistential
  | .restrictedUniversal | .restrictedExistential => true
  | _ => false

/-- Negation and the binary connectives. -/
def isTruthFunctional : ExpressionKind -> Bool
  | .negation | .conditional | .conjunction | .disjunction | .biconditional
  | .nand | .nor => true
  | _ => false

def ofConnective : Connective -> ExpressionKind
  | .conditional => .conditional
  | .conjunction => .conjunction
  | .disjunction => .disjunction
  | .biconditional => .biconditional
  | .nand => .nand
  | .nor => .nor

/-- The kind of a quantified formula. -/
def ofQuantifier : Quantifier -> Restriction -> ExpressionKind
  | .universal, .unrestricted => .universal
  | .existential, .unrestricted => .existential
  | .universal, .bounded .. => .boundedUniversal
  | .existential, .bounded .. => .boundedExistential
  | .universal, .restricted .. => .restrictedUniversal
  | .existential, .restricted .. => .restrictedExistential

end ExpressionKind

/-- Whether a term is schematic, and over what. -/
inductive TermSort
  | ordinary
  | schematic
  /-- Stands for an object-language variable only. -/
  | schematicVariable
  deriving DecidableEq, Repr

namespace TermShape

def kind : TermShape -> ExpressionKind
  | .leaf .constant _ => .constant
  | .leaf .objectVariable _ => .objectVariable
  | .leaf .termMeta _ => .termMeta
  | .leaf .variableMeta _ => .variableMeta
  | .leaf .anyMeta _ => .anyExpression
  | .apply .function .. => .function
  | .apply .complexMeta .. => .complexTermMeta
  | .operation .. => .infixFunction

def sort : TermShape -> TermSort
  | .leaf .termMeta _ | .leaf .anyMeta _ | .apply .complexMeta .. => .schematic
  | .leaf .variableMeta _ => .schematicVariable
  | _ => .ordinary

/-- The terms a shape is built from, in the order they are written. -/
def children : TermShape -> List Term
  | .leaf .. => []
  | .apply _ _ args _ => args
  | .operation _ left right _ => [left, right]

end TermShape

namespace FormulaShape

def kind : FormulaShape -> ExpressionKind
  | .leaf .letter _ => .sentenceLetter
  | .leaf .formulaMeta _ => .formulaMeta
  | .leaf .anyMeta _ => .anyExpression
  | .relation .. => .relation
  | .comparison .. => .infixRelation
  | .complexMeta .. => .complexFormulaMeta
  | .negation .. => .negation
  | .binary _ connective .. => .ofConnective connective
  | .quantified _ quantifier _ restriction _ =>
      .ofQuantifier quantifier restriction

/-- What a restriction puts between the bound variable and the scope. -/
def restrictionChildren : Restriction -> List Expression
  | .unrestricted => []
  | .bounded _ bound _ => [.term bound]
  | .restricted _ formula _ => [.formula formula]

/-- The parts of a shape, in the order they are written. -/
def children : FormulaShape -> List Expression
  | .leaf .. => []
  | .relation _ args => args.map .term
  | .complexMeta _ params _ => params.map .term
  | .comparison _ left right _ => [.term left, .term right]
  | .negation _ operand => [.formula operand]
  | .binary _ _ left right _ => [.formula left, .formula right]
  | .quantified _ _ boundVariable restriction scope =>
      .term boundVariable :: (restrictionChildren restriction ++ [.formula scope])

/-- The formulas the main operator applies to. -/
def operands : FormulaShape -> List Formula
  | .negation _ operand => [operand]
  | .binary _ _ left right _ => [left, right]
  | .quantified _ _ _ _ scope => [scope]
  | _ => []

end FormulaShape

namespace Expression

def kind : Expression -> ExpressionKind
  | .formula f => f.shape.kind
  | .term t => t.shape.kind

def children : Expression -> List Expression
  | .formula f => f.shape.children
  | .term t => t.shape.children.map .term

/-- Sentences are the formulas. -/
def isSentence : Expression -> Bool
  | .formula _ => true
  | .term _ => false

end Expression

mutual

/-- Nesting level: one more than the deepest child, zero for a leaf. -/
def Term.level : Term -> Nat
  | .plain shape => shape.level
  | .transformed shape .. => shape.level

def TermShape.level : TermShape -> Nat
  | .leaf .. => 0
  | .apply _ _ args _ => Term.levelAll args
  | .operation _ left right _ => max (left.level + 1) (right.level + 1)

/-- One more than the deepest of the terms, zero without terms. -/
def Term.levelAll : List Term -> Nat
  | [] => 0
  | term :: terms => max (term.level + 1) (Term.levelAll terms)

end

mutual

/-- Nesting level: one more than the deepest child, zero for a leaf. -/
def Formula.level : Formula -> Nat
  | .plain shape => shape.level
  | .transformed shape _ => shape.level

def FormulaShape.level : FormulaShape -> Nat
  | .leaf .. => 0
  | .relation _ args => Term.levelAll args
  | .complexMeta _ params _ => Term.levelAll params
  | .comparison _ left right _ => max (left.level + 1) (right.level + 1)
  | .negation _ operand => operand.level + 1
  | .binary _ _ left right _ => max (left.level + 1) (right.level + 1)
  | .quantified _ _ boundVariable restriction scope =>
      max (boundVariable.level + 1) (max restriction.level (scope.level + 1))

/-- One more than the level of what the restriction holds. -/
def Restriction.level : Restriction -> Nat
  | .unrestricted => 0
  | .bounded _ bound _ => bound.level + 1
  | .restricted _ formula _ => formula.level + 1

end

def Expression.level : Expression -> Nat
  | .formula f => f.level
  | .term t => t.level

mutual

/-- A metavariable occurs somewhere, pending substitutions included. -/
def Term.isSchematic : Term -> Bool
  | .plain shape => shape.isSchematic
  | .transformed shape target replacement _ =>
      shape.isSchematic || target.isSchematic || replacement.isSchematic

def TermShape.isSchematic : TermShape -> Bool
  | .leaf kind _ => kind != .constant && kind != .objectVariable
  | .apply head _ args _ => head == .complexMeta || Term.anySchematic args
  | .operation _ left right _ => left.isSchematic || right.isSchematic

def Term.anySchematic : List Term -> Bool
  | [] => false
  | term :: terms => term.isSchematic || Term.anySchematic terms

end

/-- A list of terms is schematic if one of them is. -/
theorem Term.anySchematic_eq_any (terms : List Term) :
    Term.anySchematic terms = terms.any Term.isSchematic := by
  induction terms with
  | nil => rfl
  | cons term terms ih => simp [Term.anySchematic, ih]

/-- A metavariable occurs in one of the two parts of the substitution. -/
def Transform.isSchematic (transform : Transform) : Bool :=
  transform.target.isSchematic || transform.replacement.isSchematic

mutual

/-- A metavariable occurs somewhere, pending substitutions included. -/
def Formula.isSchematic : Formula -> Bool
  | .plain shape => shape.isSchematic
  | .transformed shape transform => shape.isSchematic || transform.isSchematic

def FormulaShape.isSchematic : FormulaShape -> Bool
  | .leaf kind _ => kind != .letter
  | .relation _ args => Term.anySchematic args
  | .complexMeta .. => true
  | .comparison _ left right _ => left.isSchematic || right.isSchematic
  | .negation _ operand => operand.isSchematic
  | .binary _ _ left right _ => left.isSchematic || right.isSchematic
  | .quantified _ _ boundVariable restriction scope =>
      boundVariable.isSchematic || restriction.isSchematic || scope.isSchematic

def Restriction.isSchematic : Restriction -> Bool
  | .unrestricted => false
  | .bounded _ bound _ => bound.isSchematic
  | .restricted _ formula _ => formula.isSchematic

end

def Expression.isSchematic : Expression -> Bool
  | .formula f => f.isSchematic
  | .term t => t.isSchematic

namespace Formula

/-- A formula is basic when it has no parts or when some part is a term. A
quantified formula is basic: its bound variable is a part. -/
def isBasic (formula : Formula) : Bool :=
  formula.shape.children.isEmpty ||
    formula.shape.children.any fun child => !child.isSentence

/-- Without parts a formula is basic, and so it is with a term among them. -/
theorem isBasic_eq_false_iff (formula : Formula) :
    formula.isBasic = false ↔
      (∃ symbol operand, formula.shape = .negation symbol operand) ∨
        ∃ symbol connective left right brackets,
          formula.shape = .binary symbol connective left right brackets := by
  cases shapeEquation : formula.shape <;>
    simp [isBasic, shapeEquation, FormulaShape.children, Expression.isSentence]
  case relation symbol args => cases args <;> simp
  case complexMeta symbol params brackets => cases params <;> simp

end Formula
end SymbolicLogic
