/-!
# Operators

The truth-functional connectives of two places and the two quantifiers. Which
glyphs write them is up to the language.
-/

namespace SymbolicLogic

/-- The binary truth-functional connectives. -/
inductive Connective
  | conditional
  | conjunction
  | disjunction
  | biconditional
  | nand
  | nor
  deriving DecidableEq, Repr

namespace Connective

/-- Every connective, in the order in which glyphs are looked up. -/
def all : List Connective :=
  [.conditional, .conjunction, .disjunction, .biconditional, .nand, .nor]

/-- The name of a connective. -/
def name : Connective -> String
  | .conditional => "Conditional"
  | .conjunction => "Conjunction"
  | .disjunction => "Disjunction"
  | .biconditional => "Biconditional"
  | .nand => "Nand"
  | .nor => "Nor"

theorem mem_all (connective : Connective) : connective ∈ all := by
  cases connective <;> decide

end Connective

/-- The quantifiers. -/
inductive Quantifier
  | universal
  | existential
  deriving DecidableEq, Repr

/-- The name of a quantifier. -/
def Quantifier.name : Quantifier -> String
  | .universal => "Universal"
  | .existential => "Existential"

end SymbolicLogic
