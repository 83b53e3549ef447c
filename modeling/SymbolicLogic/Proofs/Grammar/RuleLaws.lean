import SymbolicLogic.Grammar.Rule

/-!
# Laws of grammar rules

What a rule reads is told by two families of laws. The equations compute a rule
on a token list whose front is known. The inversions take a successful reading
apart into the readings it was made of. `Reads` collects the latter: whatever
the rule returns belongs to the tokens it used up.
-/

namespace SymbolicLogic
namespace Rule

variable {α β : Type} {tokens rest : List Token}

@[simp] theorem pure_apply (value : α) (tokens : List Token) :
    (pure value : Rule α) tokens = some (value, tokens) := rfl

@[simp] theorem failure_apply (tokens : List Token) :
    (failure : Rule α) tokens = none := rfl

theorem bind_apply
    (rule : Rule α)
    (next : α -> Rule β)
    (tokens : List Token) :
    (rule >>= next) tokens =
      (rule tokens).bind fun result => next result.1 result.2 := rfl

theorem orElse_apply (first second : Rule α) (tokens : List Token) :
    (first <|> second) tokens = (first tokens <|> second tokens) := rfl

theorem optional_apply (rule : Rule α) (tokens : List Token) :
    (optional rule) tokens =
      match rule tokens with
      | some (value, rest) => some (some value, rest)
      | none => some (none, tokens) := by
  change ((some <$> rule) <|> pure none : Rule (Option α)) tokens = _
  rw [orElse_apply]
  cases found : rule tokens with
  | none =>
      have mapped : (some <$> rule : Rule (Option α)) tokens = none := by
        change (rule tokens).bind _ = none
        rw [found]
        rfl
      rw [mapped]
      rfl
  | some result =>
      have mapped : (some <$> rule : Rule (Option α)) tokens =
          some (some result.1, result.2) := by
        change (rule tokens).bind _ = _
        rw [found]
        rfl
      rw [mapped]
      rfl

@[simp] theorem token_nil (select? : Token -> Option α) :
    Rule.token select? [] = none := rfl

@[simp] theorem token_cons
    (select? : Token -> Option α)
    (token : Token)
    (rest : List Token) :
    Rule.token select? (token :: rest) =
      (select? token).map fun value => (value, rest) := rfl

/-- A sequence goes on with what its first rule reads. -/
theorem bind_of_eq_some
    {rule : Rule α}
    {next : α -> Rule β}
    {value : α}
    (found : rule tokens = some (value, rest)) :
    (rule >>= next) tokens = next value rest := by
  rw [bind_apply, found]
  rfl

theorem bind_of_eq_none
    {rule : Rule α}
    {next : α -> Rule β}
    (missing : rule tokens = none) :
    (rule >>= next) tokens = none := by
  rw [bind_apply, missing]
  rfl

theorem token_bind_of_eq_some
    {select? : Token -> Option α}
    {next : α -> Rule β}
    {token : Token}
    {value : α}
    (selected : select? token = some value) :
    (Rule.token select? >>= next) (token :: rest) = next value rest := by
  rw [bind_apply, token_cons, selected]
  rfl

/-- An alternative that reads something is the only one tried. -/
theorem orElse_of_eq_some
    {first second : Rule α}
    {result : α × List Token}
    (found : first tokens = some result) :
    (first <|> second) tokens = some result := by
  rw [orElse_apply, found]
  rfl

/-- After an alternative that reads nothing the next one is tried. -/
theorem orElse_of_eq_none
    {first second : Rule α}
    (missing : first tokens = none) :
    (first <|> second) tokens = second tokens := by
  rw [orElse_apply, missing]
  rfl

theorem exactly_of_eq (expected : Token) (rest : List Token) :
    Rule.exactly expected (expected :: rest) = some ((), rest) := by
  simp [Rule.exactly]

theorem exactly_of_ne
    {expected found : Token}
    (different : found ≠ expected)
    (rest : List Token) :
    Rule.exactly expected (found :: rest) = none := by
  simp [Rule.exactly, different]

theorem bracketed_of_eq_some
    {rule : Rule α}
    {value : α}
    (brackets : Brackets)
    (found : rule tokens = some (value, .closing brackets :: rest)) :
    Rule.bracketed rule (.opening brackets :: tokens) =
      some ((value, brackets), rest) := by
  simp [Rule.bracketed, bind_apply, found]

/-- A group is not read when what stands inside is not followed by a closing
bracket. -/
theorem bracketed_of_not_closing
    {rule : Rule α}
    (brackets : Brackets)
    (openEnded : ∀ value rest closed,
      rule tokens ≠ some (value, .closing closed :: rest)) :
    Rule.bracketed rule (.opening brackets :: tokens) = none := by
  cases found : rule tokens with
  | none => simp [Rule.bracketed, bind_apply, found]
  | some result =>
      obtain ⟨value, remaining⟩ := result
      cases remaining with
      | nil => simp [Rule.bracketed, bind_apply, found]
      | cons token remaining =>
          cases token
          case closing closed =>
            exact absurd found (openEnded value remaining closed)
          all_goals simp [Rule.bracketed, bind_apply, found]

/-- A sequence that reads something has read a part first. -/
theorem bind_eq_some
    {rule : Rule α}
    {next : α -> Rule β}
    {result : β × List Token}
    (found : (rule >>= next) tokens = some result) :
    ∃ value middle, rule tokens = some (value, middle) ∧
      next value middle = some result := by
  rw [bind_apply, Option.bind_eq_some_iff] at found
  obtain ⟨⟨value, middle⟩, first, second⟩ := found
  exact ⟨value, middle, first, second⟩

theorem pure_eq_some
    {value value' : α}
    (found : (pure value : Rule α) tokens = some (value', rest)) :
    value' = value ∧ rest = tokens := by
  simp only [pure_apply, Option.some.injEq, Prod.mk.injEq] at found
  exact ⟨found.1.symm, found.2.symm⟩

/-- A choice that reads something reads it by one alternative. -/
theorem orElse_eq_some
    {first second : Rule α}
    {result : α × List Token}
    (found : (first <|> second) tokens = some result) :
    first tokens = some result ∨
      (first tokens = none ∧ second tokens = some result) := by
  rw [orElse_apply] at found
  cases tried : first tokens with
  | none =>
      rw [tried] at found
      exact .inr ⟨rfl, found⟩
  | some value =>
      rw [tried] at found
      exact .inl found

theorem optional_eq_some
    {rule : Rule α}
    {value? : Option α}
    (found : (optional rule) tokens = some (value?, rest)) :
    (∃ value, value? = some value ∧ rule tokens = some (value, rest)) ∨
      (value? = none ∧ rule tokens = none ∧ rest = tokens) := by
  rw [optional_apply] at found
  cases tried : rule tokens with
  | none =>
      rw [tried] at found
      simp only [Option.some.injEq, Prod.mk.injEq] at found
      exact .inr ⟨found.1.symm, rfl, found.2.symm⟩
  | some result =>
      rw [tried] at found
      simp only [Option.some.injEq, Prod.mk.injEq] at found
      obtain ⟨rfl, rfl⟩ := found
      exact .inl ⟨result.1, rfl, rfl⟩

theorem token_eq_some
    {select? : Token -> Option α}
    {value : α}
    (found : Rule.token select? tokens = some (value, rest)) :
    ∃ token, tokens = token :: rest ∧ select? token = some value := by
  cases tokens with
  | nil => simp at found
  | cons token after =>
      simp only [token_cons, Option.map_eq_some_iff, Prod.mk.injEq] at found
      obtain ⟨selected, accepted, rfl, rfl⟩ := found
      exact ⟨token, rfl, accepted⟩

theorem exactly_eq_some
    {expected : Token}
    {value : Unit}
    (found : Rule.exactly expected tokens = some (value, rest)) :
    tokens = expected :: rest := by
  obtain ⟨token, rfl, accepted⟩ := token_eq_some found
  by_cases equal : token = expected
  · rw [equal]
  · simp [equal] at accepted

theorem opening_eq_some
    {brackets : Brackets}
    (found : (Rule.token fun
      | .opening brackets => some brackets
      | _ => none) tokens = some (brackets, rest)) :
    tokens = .opening brackets :: rest := by
  obtain ⟨token, rfl, accepted⟩ := token_eq_some found
  cases token <;> simp at accepted
  rw [accepted]

theorem closing_eq_some
    {brackets : Brackets}
    (found : (Rule.token fun
      | .closing brackets => some brackets
      | _ => none) tokens = some (brackets, rest)) :
    tokens = .closing brackets :: rest := by
  obtain ⟨token, rfl, accepted⟩ := token_eq_some found
  cases token <;> simp at accepted
  rw [accepted]

/-- What is read in brackets stands between a bracket and its counterpart. -/
theorem bracketed_eq_some
    {rule : Rule α}
    {value : α}
    {brackets : Brackets}
    (found : Rule.bracketed rule tokens = some ((value, brackets), rest)) :
    ∃ inner, tokens = .opening brackets :: inner ∧
      rule inner = some (value, .closing brackets :: rest) := by
  obtain ⟨opened, inner, opens, found⟩ := bind_eq_some found
  obtain ⟨value', middle, inside, found⟩ := bind_eq_some found
  obtain ⟨closed, after, closes, found⟩ := bind_eq_some found
  rw [opening_eq_some opens]
  rw [closing_eq_some closes] at inside
  by_cases equal : opened = closed
  · subst closed
    simp at found
    obtain ⟨⟨rfl, rfl⟩, rfl⟩ := found
    exact ⟨inner, rfl, inside⟩
  · simp [equal] at found

/-- What the rule returns belongs, by `meaning`, to the tokens it used up. -/
def Reads (rule : Rule α) (meaning : List Token -> α -> Prop) : Prop :=
  ∀ ⦃tokens value rest⦄, rule tokens = some (value, rest) ->
    ∃ used, tokens = used ++ rest ∧ meaning used value

/-- The rule uses up at least one token whenever it succeeds. -/
def Consumes (rule : Rule α) : Prop :=
  ∀ ⦃tokens value rest⦄, rule tokens = some (value, rest) ->
    rest.length < tokens.length

/-- On no tokens a rule that consumes reads nothing. -/
theorem Consumes.eq_none_of_nil
    {rule : Rule α}
    (consumes : rule.Consumes) : rule [] = none := by
  cases found : rule [] with
  | none => rfl
  | some result => exact absurd (consumes found) (by simp)

end Rule
end SymbolicLogic
