import SymbolicLogic.Grammar.Formula
import SymbolicLogic.Proofs.Grammar.Sequence

/-!
# Recursive rules

A recursive rule is unrolled to a depth that the number of tokens gives. That
the depth never shows follows from two properties of the steps: each consumes a
token before it comes back to itself, and it comes back on what is left. So the
rules for terms and formulas satisfy the equations by which they are described.
-/

namespace SymbolicLogic
namespace Rule

variable {α β : Type}

/-- On fewer than `bound` tokens two rules give the same result, and it uses up
at least `least` of them. -/
def Agree (bound least : Nat) (first second : Rule α) : Prop :=
  ∀ tokens : List Token, tokens.length < bound ->
    first tokens = second tokens ∧
      ∀ value rest, first tokens = some (value, rest) ->
        rest.length + least ≤ tokens.length

namespace Agree

variable {bound least : Nat} {first second : Rule α}

/-- Rules that agree on longer lists, and use up more, agree on shorter ones. -/
theorem weaken
    (agree : Agree bound least first second)
    {bound' least' : Nat}
    (boundLe : bound' ≤ bound)
    (leastLe : least' ≤ least) : Agree bound' least' first second := by
  intro tokens short
  obtain ⟨equal, uses⟩ := agree tokens (by omega)
  refine ⟨equal, fun value rest found => ?_⟩
  have := uses value rest found
  omega

theorem refl_of_consumes (consumes : first.Consumes) :
    Agree bound 1 first first :=
  fun _ _ => ⟨rfl, fun _ _ found => consumes found⟩

theorem token (select? : Token -> Option α) :
    Agree bound 1 (Rule.token select?) (Rule.token select?) := by
  apply refl_of_consumes
  intro tokens value rest found
  obtain ⟨token, rfl, -⟩ := token_eq_some found
  exact Nat.lt_succ_self _

theorem pure (value : α) : Agree bound 0 (pure value) (pure value) := by
  intro tokens _
  refine ⟨rfl, fun value' rest found => ?_⟩
  obtain ⟨-, rfl⟩ := pure_eq_some found
  exact Nat.le_refl _

theorem failure : Agree bound least (failure : Rule α) failure :=
  fun _ _ => ⟨rfl, fun _ _ found => by simp at found⟩

/-- Alternatives of rules that agree do. -/
theorem orElse
    {first' second' : Rule α}
    (left : Agree bound least first second)
    (right : Agree bound least first' second') :
    Agree bound least (first <|> first') (second <|> second') := by
  intro tokens short
  obtain ⟨leftEqual, leftUses⟩ := left tokens short
  obtain ⟨rightEqual, rightUses⟩ := right tokens short
  refine ⟨by rw [orElse_apply, orElse_apply, leftEqual, rightEqual], ?_⟩
  intro value rest found
  rcases orElse_eq_some found with found | ⟨-, found⟩
  · exact leftUses value rest found
  · exact rightUses value rest found

/-- After a rule that uses up `used` tokens the bound is lower by as many. -/
theorem bind
    {used : Nat}
    {next next' : α -> Rule β}
    (agree : Agree (bound + used) used first second)
    (agreeNext : ∀ value, Agree bound least (next value) (next' value)) :
    Agree (bound + used) (least + used) (first >>= next) (second >>= next') := by
  intro tokens short
  obtain ⟨equal, uses⟩ := agree tokens short
  cases found : first tokens with
  | none =>
      refine ⟨?_, fun value rest impossible => ?_⟩
      · rw [bind_of_eq_none found, bind_of_eq_none (equal ▸ found)]
      · rw [bind_of_eq_none found] at impossible
        cases impossible
  | some result =>
      obtain ⟨value, middle⟩ := result
      have left := uses value middle found
      obtain ⟨nextEqual, nextUses⟩ := agreeNext value middle (by omega)
      refine ⟨?_, fun value' rest read => ?_⟩
      · rw [bind_of_eq_some found, bind_of_eq_some (equal ▸ found), nextEqual]
      · rw [bind_of_eq_some found] at read
        have := nextUses value' rest read
        omega

/-- The form of `bind` for a first rule that need not use up anything. -/
theorem bind_weak
    {next next' : α -> Rule β}
    (agree : Agree bound 0 first second)
    (agreeNext : ∀ value, Agree bound least (next value) (next' value)) :
    Agree bound least (first >>= next) (second >>= next') :=
  @bind _ _ bound least _ _ 0 _ _ agree agreeNext

theorem optional (agree : Agree bound 0 first second) :
    Agree bound 0 (optional first) (optional second) := by
  intro tokens short
  obtain ⟨equal, uses⟩ := agree tokens short
  refine ⟨by rw [optional_apply, optional_apply, equal], ?_⟩
  intro value rest found
  rcases optional_eq_some found with ⟨inner, -, read⟩ | ⟨-, -, rfl⟩
  · exact uses inner rest read
  · exact Nat.le_refl _

theorem many (agree : Agree bound 0 first second) :
    Agree bound 0 first.many second.many := by
  have upTo (limit : Nat) :
      Agree bound 0 (first.upTo limit) (second.upTo limit) := by
    induction limit with
    | zero => exact pure []
    | succ limit inductionHypothesis =>
        exact orElse
          (agree.bind_weak fun _ =>
            inductionHypothesis.bind_weak fun _ => pure _)
          (pure [])
  exact fun tokens short => upTo tokens.length tokens short

theorem separatedBy
    (agree : Agree bound 0 first second)
    (separator : Rule Unit)
    (agreeSeparator : Agree bound 0 separator separator) :
    Agree bound 0 (first.separatedBy separator)
      (second.separatedBy separator) :=
  agree.bind_weak fun _ =>
    (many (agreeSeparator.bind_weak fun _ => agree)).bind_weak fun _ => pure _

/-- The opening bracket is used up before what stands inside is read. -/
theorem bracketed (agree : Agree bound 0 first second) :
    Agree (bound + 1) 1 first.bracketed second.bracketed := by
  refine (token _).bind fun opened => ?_
  refine agree.bind_weak fun value => ?_
  refine ((token _).weaken (Nat.le_refl _) (Nat.zero_le _)).bind_weak
    fun closed => ?_
  by_cases equal : opened = closed
  · rw [if_pos equal]
    exact pure _
  · rw [if_neg equal]
    exact failure

end Agree

/-- The step comes back to itself only after it used up a token, and only on
what is left. -/
def Guarded (step : Rule α -> Rule α) : Prop :=
  ∀ ⦃bound first second⦄, Agree bound 1 first second ->
    Agree (bound + 1) 1 (step first) (step second)

section

variable {step : Rule α -> Rule α}

/-- A depth that the tokens do not reach makes no difference. -/
theorem Guarded.agree_nested
    (guarded : Guarded step)
    {bound depth depth' : Nat}
    (within : bound ≤ depth)
    (within' : bound ≤ depth') :
    Agree (bound + 1) 1 (nested step depth) (nested step depth') := by
  induction bound generalizing depth depth' with
  | zero =>
      have unread (depth : Nat) : nested step depth [] = none := by
        cases depth with
        | zero => rfl
        | succ depth =>
            have none_below : Agree 0 1 (nested step depth)
                (nested step depth) := fun _ short => absurd short (by simp)
            have uses := (guarded none_below [] (by simp)).2
            cases found : step (nested step depth) [] with
            | none => exact found
            | some result =>
                have impossible := uses result.1 result.2 found
                simp at impossible
      intro tokens short
      obtain rfl : tokens = [] := List.length_eq_zero_iff.mp (by omega)
      refine ⟨by rw [unread, unread], fun value rest found => ?_⟩
      rw [unread] at found
      cases found
  | succ bound inductionHypothesis =>
      obtain ⟨depth, rfl⟩ : ∃ n, depth = n + 1 := ⟨depth - 1, by omega⟩
      obtain ⟨depth', rfl⟩ : ∃ n, depth' = n + 1 := ⟨depth' - 1, by omega⟩
      exact guarded (inductionHypothesis (by omega) (by omega))

/-- The recursive rule consumes, and equals each unrolling that is deep
enough. -/
theorem Guarded.agree_recursive
    (guarded : Guarded step)
    {bound depth : Nat}
    (within : bound ≤ depth) :
    Agree (bound + 1) 1 (recursive step) (nested step depth) := by
  intro tokens short
  exact guarded.agree_nested (Nat.le_refl tokens.length) (by omega) tokens
    (by omega)

/-- A guarded recursion uses up tokens. -/
theorem Guarded.consumes (guarded : Guarded step) :
    (recursive step).Consumes := by
  intro tokens value rest found
  exact (guarded.agree_recursive (Nat.le_refl tokens.length) tokens
    (Nat.lt_succ_self _)).2 value rest found

/-- A recursive rule satisfies the equation that describes it. -/
theorem Guarded.recursive_eq (guarded : Guarded step) :
    recursive step = step (recursive step) := by
  funext tokens
  have unrolled := guarded.agree_recursive
    (Nat.le_succ tokens.length) tokens (Nat.lt_succ_self _)
  have below := guarded (guarded.agree_recursive (Nat.le_refl tokens.length))
    tokens (by omega)
  exact unrolled.1.trans below.1.symm

end

end Rule

namespace Grammar

open Rule

section

variable {bound : Nat} {first second : Rule Term}

/-- Reading a token where nothing need be used up. -/
private theorem agree_token (select? : Token -> Option α) :
    Agree bound 0 (Rule.token select?) (Rule.token select?) :=
  (Agree.token _).weaken (Nat.le_refl _) (Nat.zero_le _)

theorem agree_transform (agree : Agree bound 0 first second) :
    Agree (bound + 1) 1 (transform first) (transform second) := by
  refine .orElse ?_ ?_
  · refine (Agree.bracketed ?_).bind fun _ => .pure _
    exact agree.bind_weak fun _ => (agree_token _).bind_weak fun _ =>
      agree.bind_weak fun _ => .pure _
  · refine (Agree.token _).bind fun _ => ?_
    exact agree.bind_weak fun _ => (agree_token _).bind_weak fun _ =>
      agree.bind_weak fun _ => .pure _

/-- What comes after the carrier need not use up anything. -/
private theorem agree_pending
    (agree : Agree bound 0 first second)
    (carrier : Term) :
    Agree bound 0
      (do
        match <- optional (transform first) with
        | some pending => return carrier.withTransform pending
        | none => return carrier)
      (do
        match <- optional (transform second) with
        | some pending => return carrier.withTransform pending
        | none => return carrier) := by
  refine Agree.bind_weak (Agree.optional ?_) fun pending? => ?_
  · exact (agree_transform agree).weaken (Nat.le_succ _) (Nat.zero_le _)
  · cases pending? <;> exact .pure _

theorem agree_transformable (agree : Agree bound 0 first second) :
    Agree bound 0 (transformable first) (transformable second) :=
  agree.bind_weak (agree_pending agree)

theorem agree_arguments (agree : Agree bound 0 first second) :
    Agree (bound + 1) 1 (arguments first) (arguments second) :=
  .bracketed ((agree_transformable agree).separatedBy _ (agree_token _))

theorem agree_application (agree : Agree bound 0 first second) :
    Agree (bound + 1) 1 (application first) (application second) := by
  have agreeArguments : Agree bound 0 (arguments first) (arguments second) :=
    (agree_arguments agree).weaken (Nat.le_succ _) (Nat.zero_le _)
  exact .orElse
    ((Agree.token _).bind fun _ => agreeArguments.bind_weak fun _ => .pure _)
    ((Agree.token _).bind fun _ => agreeArguments.bind_weak fun _ => .pure _)

theorem agree_operation (agree : Agree bound 0 first second) :
    Agree (bound + 1) 1 (operation first) (operation second) := by
  have agreeSide := agree_transformable agree
  refine (Agree.bracketed ?_).bind fun _ => .pure _
  exact agreeSide.bind_weak fun _ => (agree_token _).bind_weak fun _ =>
    agreeSide.bind_weak fun _ => .pure _

/-- The rule for terms calls itself behind a token only. -/
theorem guarded_termOver : Guarded termOver := by
  intro bound first second agree
  have weak := agree.weaken (Nat.le_refl _) (Nat.zero_le 1)
  exact .orElse (agree_application weak)
    (.orElse (agree_operation weak) (.token _))

end

/-- A term is an application, an operation or a leaf. -/
theorem term_eq : term = termOver term :=
  guarded_termOver.recursive_eq

theorem consumes_term : term.Consumes :=
  guarded_termOver.consumes

theorem consumes_transformable : (transformable term).Consumes := by
  intro tokens value rest found
  have agree : Agree (tokens.length + 1) 1 term term :=
    .refl_of_consumes consumes_term
  have weak := agree.weaken (Nat.le_succ _) (Nat.zero_le _)
  exact (agree.bind (agree_pending weak) tokens (Nat.lt_succ_self _)).2 value
    rest found

section

variable {bound : Nat} {first second : Rule Formula}

private theorem agree_term : Agree bound 1 term term :=
  .refl_of_consumes consumes_term

private theorem agree_term_weak : Agree bound 0 term term :=
  agree_term.weaken (Nat.le_refl _) (Nat.zero_le _)

theorem agree_comparison (negationSymbol : Symbol) :
    Agree (bound + 1) 1 (comparison negationSymbol)
      (comparison negationSymbol) :=
  .orElse
    (agree_term.bind fun _ => (agree_token _).bind_weak fun _ =>
      agree_term_weak.bind_weak fun _ => .pure _)
    (agree_term.bind fun _ => (agree_token _).bind_weak fun _ =>
      agree_term_weak.bind_weak fun _ => .pure _)

theorem agree_formulaMeta : Agree (bound + 1) 1 formulaMeta formulaMeta := by
  refine (Agree.token _).bind fun _ => ?_
  refine Agree.bind_weak (Agree.optional ?_) fun params? => ?_
  · exact (Agree.bracketed (agree_term_weak.separatedBy _
      (agree_token _))).weaken (Nat.le_succ _) (Nat.zero_le _)
  · cases params? <;> exact .pure _

theorem agree_atomic : Agree (bound + 1) 1 atomic atomic := by
  refine (Agree.token _).bind fun _ => agree_term_weak.many.bind_weak fun args => ?_
  cases args <;> exact .pure _

theorem agree_quantifier : Agree (bound + 1) 1 quantifier quantifier :=
  (Agree.token _).bind fun _ => (agree_token _).bind_weak fun _ => .pure _

theorem agree_quantification (agree : Agree bound 0 first second) :
    Agree (bound + 1) 1 (quantification first) (quantification second) := by
  have agreeQuantifier : Agree bound 0 quantifier quantifier :=
    agree_quantifier.weaken (Nat.le_succ _) (Nat.zero_le _)
  refine .orElse ?_ (.orElse ?_ ?_)
  · exact agree_quantifier.bind fun _ => .pure _
  · refine (Agree.bracketed ?_).bind fun _ => .pure _
    exact agreeQuantifier.bind_weak fun _ => (agree_token _).bind_weak fun _ =>
      agree_term_weak.bind_weak fun _ => .pure _
  · refine (Agree.bracketed ?_).bind fun _ => .pure _
    exact agreeQuantifier.bind_weak fun _ => (agree_token _).bind_weak fun _ =>
      agree.bind_weak fun _ => .pure _

theorem agree_binary (agree : Agree bound 0 first second) :
    Agree (bound + 1) 1 (binary first) (binary second) := by
  refine (Agree.bracketed ?_).bind fun _ => .pure _
  exact agree.bind_weak fun _ => (agree_token _).bind_weak fun _ =>
    agree.bind_weak fun _ => .pure _

/-- The rule for formulas calls itself behind a token only. -/
theorem guarded_formulaOver (negationSymbol : Symbol) :
    Guarded (formulaOver negationSymbol) := by
  intro bound first second agree
  have weak := agree.weaken (Nat.le_refl _) (Nat.zero_le 1)
  have agreeNegation : Agree (bound + 1) 1 (negation first) (negation second) :=
    (Agree.token _).bind fun _ => weak.bind_weak fun _ => .pure _
  have agreeQuantified :
      Agree (bound + 1) 1 (quantified first) (quantified second) :=
    (agree_quantification weak).bind fun _ => weak.bind_weak fun _ => .pure _
  refine Agree.bind ((agree_comparison negationSymbol).orElse
    (agree_formulaMeta.orElse ((Agree.token _).orElse (agree_atomic.orElse
      (agreeNegation.orElse (agreeQuantified.orElse
        (agree_binary weak))))))) fun carrier => ?_
  · refine Agree.bind_weak (Agree.optional ?_) fun pending? => ?_
    · exact (agree_transform agree_term_weak).weaken (Nat.le_succ _)
        (Nat.zero_le _)
    · cases pending? <;> exact .pure _

end

/-- A formula is one of the alternatives, with a substitution or without. -/
theorem formula_eq (negationSymbol : Symbol) :
    formula negationSymbol =
      formulaOver negationSymbol (formula negationSymbol) :=
  (guarded_formulaOver negationSymbol).recursive_eq

end Grammar
end SymbolicLogic
