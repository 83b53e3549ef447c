import SymbolicLogic.Proofs.Session.Presentation
import SymbolicLogic.Proofs.Session.Repetition

/-!
# Failures that are final

A match fails for good, unless it has failed because a metavariable had no value. What
was matched before the failure is matched again in every later session, without any
change, so the run arrives at the same place. There it meets the same error: keys that
were known are the same keys later, they have the same values, and a pattern that was
compared as a whole is resolved to the same expression. Only a missing value can be
added.
-/

namespace SymbolicLogic

open Session Matching

namespace Matching

/-- In the session, and whenever values are added to it, the run fails with the error. -/
def Refused
    (matching : Matching Unit)
    (error : MatchError)
    (session : Session) : Prop :=
  ∀ later, session.Extends later -> (matching.runFrom later).1 = .error error

/-- What a run comes to, it comes to from then on, unless a value was missing. -/
structure Lasts (matching : Matching Unit) : Prop extends matching.Repeats where
  refused {before after : Session} {error : MatchError} :
    matching.runFrom before = (.error error, after) ->
    error.kind ≠ .unresolvedDependency ->
    matching.Refused error after

namespace Lasts

variable {matching next : Matching Unit}

/-- A run that does nothing succeeds in every later session too. -/
theorem pure : Lasts (Pure.pure ()) where
  toRepeats := .pure
  refused failed := by cases failed

/-- A run that only fails does so in every later session too. -/
theorem throw (error : MatchError) : Lasts (MonadExcept.throw error) where
  toRepeats := .throw error
  refused failed _ later _ := by
    cases failed
    rfl

/-- What differed once is resolved to the same expression later, and differs again. -/
theorem comparison (pattern concrete : Expression) :
    (Matching.comparison pattern concrete).Lasts where
  toRepeats := .comparison pattern concrete
  refused {before after error} failed other later larger := by
    rw [runFrom_comparison] at failed ⊢
    cases bound : pattern.unbound? before with
    | some dependency =>
        rw [bound] at failed
        cases failed
        exact absurd rfl other
    | none =>
        rw [bound] at failed
        dsimp only at failed
        split at failed
        · cases failed
        · next different =>
            cases failed
            obtain ⟨bound, -, resolved⟩ := Expression.readBy_of_extends larger bound
            rw [bound, resolved]
            dsimp only
            rw [if_neg different]

/-- If the first run has succeeded, it changes nothing when it is repeated, and the second
one begins in the session in which its outcome is known. -/
theorem bind (first : matching.Lasts) (second : next.Lasts) :
    (matching >>= fun _ => next).Lasts where
  toRepeats := first.toRepeats.bind second.toRepeats
  refused {before after error} failed other later larger := by
    rw [runFrom_bind] at failed ⊢
    rcases outcome : matching.runFrom before with ⟨error' | _, middle⟩
    · rw [outcome] at failed
      cases failed
      have again := first.refused outcome other later larger
      generalize matching.runFrom later = run at again ⊢
      obtain ⟨result, final⟩ := run
      cases again
      rfl
    · rw [outcome] at failed
      dsimp only at failed
      have grown := second.grows middle
      rw [failed] at grown
      rw [first.settled outcome later (grown.preserves.trans larger)]
      exact second.refused failed other later larger

/-- A mismatch remains a mismatch of the larger expressions. -/
theorem widening (pattern concrete : Expression) (lasts : matching.Lasts) :
    (matching.widening pattern concrete).Lasts where
  toRepeats := lasts.toRepeats.widening pattern concrete
  refused {before after error} failed other later larger := by
    rw [runFrom_widening] at failed ⊢
    rcases outcome : matching.runFrom before with ⟨error' | _, middle⟩
    · rw [outcome] at failed
      cases failed
      rw [MatchError.kind_widened] at other
      rw [lasts.refused outcome other later larger]
      rfl
    · rw [outcome] at failed
      cases failed

end Lasts
end Matching

/-- The only error of a key is a missing value. -/
theorem Session.kind_of_resolvedKey_eq_error
    {session : Session}
    {metavariable : Metavariable}
    {error : MatchError}
    (missing : session.resolvedKey metavariable = .error error) :
    error.kind = .unresolvedDependency := by
  rw [resolvedKey] at missing
  split at missing
  · cases missing
    rfl
  · cases missing

namespace Metavariable

variable {metavariable : Metavariable} {value : Expression} {before after : Session}
  {error : MatchError}

/-- A binding fails by the family of the metavariable or by the value that its key has
already, and neither of them changes. -/
theorem refused_bind
    (failed : (metavariable.bind value).runFrom before = (.error error, after))
    (other : error.kind ≠ .unresolvedDependency) :
    (metavariable.bind value).Refused error after := by
  intro later larger
  cases eq_of_runFrom_bind_eq_error failed
  rw [runFrom_bind] at failed ⊢
  split at failed
  · next accepts =>
      rw [if_pos accepts]
      split at failed
      · next missing =>
          cases failed
          exact absurd (kind_of_resolvedKey_eq_error missing) other
      · next key known =>
          rw [larger.resolvedKey_eq_ok known]
          split at failed
          · next existing bound =>
              split at failed
              · cases failed
              · next different =>
                  cases failed
                  dsimp only
                  rw [larger key existing bound]
                  dsimp only
                  rw [if_neg different]
          · cases failed
  · next refuses =>
      cases failed
      rw [if_neg refuses]

/-- Once a metavariable has met a value, meeting it again ends in the same way. -/
theorem lasts_meet
    (metavariable : Metavariable)
    (value : Expression) : (metavariable.meet value).Lasts where
  toRepeats := .meet metavariable value
  refused {_ _ _} failed other later larger := by
    have entered : later.Extends (later.enter metavariable) :=
      (metavariable.growsTo_enter later).preserves
    exact refused_bind failed other _ (larger.trans entered)

end Metavariable

/-- Lasting outcomes are kept by the steps of matching. -/
theorem Matching.RunLaw.lasts : RunLaw Lasts fun _ => True where
  pure := .pure
  throw := .throw
  comparison := .comparison
  meet metavariable {concrete} _ := metavariable.lasts_meet concrete
  bind := .bind
  widening pattern concrete _ := .widening pattern concrete

theorem Term.lasts_matchAgainst (pattern concrete : Term) :
    (pattern.matchAgainst concrete).Lasts :=
  RunLaw.lasts.term Expression.hereditary_true pattern concrete trivial

theorem Formula.lasts_matchAgainst (pattern concrete : Formula) :
    (pattern.matchAgainst concrete).Lasts :=
  RunLaw.lasts.formula Expression.hereditary_true pattern concrete trivial

/-- Matching an expression again ends in the same way, with the same error if it failed. -/
theorem Expression.lasts_matchAgainst (pattern concrete : Expression) :
    (pattern.matchAgainst concrete).Lasts :=
  RunLaw.lasts.expression Expression.hereditary_true pattern concrete trivial

namespace Session

/-- A match that has failed by another error than a missing value fails by the same
error after any further operations: on formulas, on terms, and on expressions of any
sort. -/
theorem failure_final
    (before after : Session)
    (error : MatchError)
    (other : error.kind ≠ .unresolvedDependency)
    (operations : List Operation) :
    let later := after.performAll operations
    (∀ pattern concrete : Formula,
      (pattern.matchAgainst concrete).runFrom before = (.error error, after) ->
      ((pattern.matchAgainst concrete).runFrom later).1 = .error error) ∧
    (∀ pattern concrete : Term,
      (pattern.matchAgainst concrete).runFrom before = (.error error, after) ->
      ((pattern.matchAgainst concrete).runFrom later).1 = .error error) ∧
    ∀ pattern concrete : Expression,
      (pattern.matchAgainst concrete).runFrom before = (.error error, after) ->
      ((pattern.matchAgainst concrete).runFrom later).1 = .error error := by
  intro later
  have larger : after.Extends later :=
    (after.growsTo_performAll operations).preserves
  refine ⟨fun pattern concrete failed => ?_, fun pattern concrete failed => ?_,
    fun pattern concrete failed => ?_⟩
  · exact (pattern.lasts_matchAgainst concrete).refused failed other later larger
  · exact (pattern.lasts_matchAgainst concrete).refused failed other later larger
  · exact (pattern.lasts_matchAgainst concrete).refused failed other later larger

/-- `A → A` does not match `P → Q`: when it comes to `Q`, `A` stands for `P`. It still
does when `B` has been bound, and `A` has not been bound to `Q`. -/
theorem failure_final_conflict :
    let letter (text : String) : Formula := .leaf .letter ⟨text, .sentenceLetter⟩
    let schema (text : String) : Formula := .leaf .formulaMeta ⟨text, .formulaMeta⟩
    let implies (left right : Formula) : Formula :=
      .plain (.binary ⟨"→", .connective⟩ .conditional left right none)
    let pattern := implies (schema "A") (schema "A")
    let concrete := implies (letter "P") (letter "Q")
    let error : MatchError := .variableConflict (.formula (schema "A"))
      (.formula (letter "P")) (.formula (letter "Q"))
    let after := empty.perform (.matchFormula pattern concrete)
    let later := after.performAll
      [.bind ⟨.formula, ⟨"B", .formulaMeta⟩, []⟩ (.formula (letter "P")),
        .bind ⟨.formula, ⟨"A", .formulaMeta⟩, []⟩ (.formula (letter "Q"))]
    (pattern.matchAgainst concrete).runFrom empty = (.error error, after) ∧
      ((pattern.matchAgainst concrete).runFrom later).1 = .error error := by
  intro letter schema implies pattern concrete error after later
  have failed :
      (pattern.matchAgainst concrete).runFrom empty = (.error error, after) := rfl
  have other : error.kind ≠ .unresolvedDependency := by decide
  obtain ⟨formulas, -, -⟩ := failure_final empty after error other
    [.bind ⟨.formula, ⟨"B", .formulaMeta⟩, []⟩ (.formula (letter "P")),
      .bind ⟨.formula, ⟨"A", .formulaMeta⟩, []⟩ (.formula (letter "Q"))]
  exact ⟨failed, formulas pattern concrete failed⟩

end Session
end SymbolicLogic
