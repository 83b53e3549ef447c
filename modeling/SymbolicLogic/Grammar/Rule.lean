import SymbolicLogic.Token.Basic

/-!
# Grammar rules

A rule reads a value off the front of a token list, or fails and consumes
nothing. Alternatives are ordered: the first one that succeeds is taken, and a
later failure does not come back to it. Repetition is greedy.
-/

namespace SymbolicLogic

/-- A value read off the front of a token list, with the tokens after it. -/
abbrev Rule (α : Type) := StateT (List Token) Option α

namespace Rule

/-- Read one token that `select?` accepts. -/
def token (select? : Token -> Option α) : Rule α := fun
  | [] => none
  | token :: rest => (select? token).map fun value => (value, rest)

/-- Read one given token. -/
def exactly (expected : Token) : Rule Unit :=
  token fun found => if found = expected then some () else none

/-- Read as many values as there are, but not more than `limit`. -/
def upTo (rule : Rule α) : Nat -> Rule (List α)
  | 0 => pure []
  | limit + 1 =>
      (do
        let value <- rule
        let values <- rule.upTo limit
        return value :: values) <|>
      pure []

/-- Read as many values as there are. A rule that consumes a token each time
cannot succeed more often than there are tokens. -/
def many (rule : Rule α) : Rule (List α) := fun tokens =>
  rule.upTo tokens.length tokens

/-- Read one value or more with separators between them. -/
def separatedBy (rule : Rule α) (separator : Rule Unit) : Rule (List α) := do
  let first <- rule
  let others <- many (do separator; rule)
  return first :: others

/-- Read a value inside a pair of matching brackets. -/
def bracketed (rule : Rule α) : Rule (α × Brackets) := do
  let opened <- token fun
    | .opening brackets => some brackets
    | _ => none
  let value <- rule
  let closed <- token fun
    | .closing brackets => some brackets
    | _ => none
  if opened = closed then return (value, opened) else failure

/-- Read a value that uses up all tokens. -/
def whole? (rule : Rule α) (tokens : List Token) : Option α :=
  match rule tokens with
  | some (value, []) => some value
  | _ => none

/-- Tie a recursive rule: `step` describes it in terms of itself, at a nesting
depth one smaller. -/
def nested (step : Rule α -> Rule α) : Nat -> Rule α
  | 0 => failure
  | depth + 1 => step (nested step depth)

/-- The rule that `step` describes in terms of itself. When each use of itself
comes after a token, nesting is never deeper than there are tokens. -/
def recursive (step : Rule α -> Rule α) : Rule α := fun tokens =>
  nested step tokens.length tokens

end Rule
end SymbolicLogic
