import SymbolicLogic.Proofs.Session.Permanence
import SymbolicLogic.Proofs.Session.Walk

/-!
# Matching again

A match that has succeeded is settled: repeated in the session that it has left, or in
any later one, it succeeds and changes nothing. For its metavariables are entered, their
keys are known and their values are for good, and so is what a pattern with a
substitution is resolved to. Parts that were matched early are settled at the end as
well, whatever has been bound after them.
-/

namespace SymbolicLogic

open Session Matching

/-- In the session, and whenever values are added to it, the run succeeds and changes
nothing. -/
def Matching.Settled (matching : Matching Unit) (session : Session) : Prop :=
  ∀ later, session.Extends later -> matching.Succeeds later later

namespace Matching.Settled

variable {matching next : Matching Unit} {session later : Session}

/-- A settled run succeeds and changes nothing. -/
theorem succeeds (settled : matching.Settled session) :
    matching.Succeeds session session :=
  settled session (.refl session)

/-- A settled run stays settled in larger sessions. -/
theorem of_extends
    (settled : matching.Settled session)
    (larger : session.Extends later) : matching.Settled later :=
  fun _ larger' => settled _ (larger.trans larger')

/-- A settled run followed by a settled run is settled. -/
theorem bind
    (settled : matching.Settled session)
    (settledNext : next.Settled session) :
    (matching >>= fun _ => next).Settled session := by
  intro later larger
  rw [succeeds_bind]
  exact ⟨later, settled later larger, settledNext later larger⟩

end Matching.Settled

/-- Nothing is entered for a metavariable that has a value. -/
theorem Session.enter_of_get?
    {session : Session}
    {metavariable : Metavariable}
    {value : Expression}
    (found : session.get? metavariable = some value) :
    session.enter metavariable = session := by
  obtain ⟨key, known, bound⟩ := get?_eq_some.mp found
  obtain ⟨binding, present, -⟩ := Option.bind_eq_some_iff.mp bound
  rw [enter, known]
  dsimp only
  rw [register, present]
  rfl

/-- A metavariable that was bound can be met again. -/
theorem Metavariable.Bound.settled
    {metavariable : Metavariable}
    {value : Expression}
    {before after : Session}
    (bound : metavariable.Bound value before after) :
    (metavariable.meet value).Settled after := by
  obtain ⟨existing, found, same⟩ := bound.exists_get?
  intro later larger
  have kept := larger.get?_eq_some found
  obtain ⟨key, known, has⟩ := get?_eq_some.mp kept
  rw [Metavariable.succeeds_meet_iff, enter_of_get? kept]
  exact .found bound.accepts known has same

namespace Matching

/-- Wherever the run has succeeded, it is settled. -/
structure Repeats (matching : Matching Unit) : Prop where
  grows : matching.Grows
  settled {before after : Session} :
    matching.Succeeds before after -> matching.Settled after

namespace Repeats

variable {matching next : Matching Unit}

theorem pure : Repeats (Pure.pure ()) where
  grows := StepLaw.growth.runLaw.pure
  settled _ _ _ := succeeds_pure.mpr rfl

theorem throw (error : MatchError) : Repeats (MonadExcept.throw error) where
  grows := StepLaw.growth.runLaw.throw error
  settled succeeds := by cases succeeds

/-- What was compared once is resolved to the same expression later. -/
theorem comparison (pattern concrete : Expression) :
    (Matching.comparison pattern concrete).Repeats where
  grows := StepLaw.growth.runLaw.comparison pattern concrete
  settled {before after} succeeds later larger := by
    obtain ⟨⟨bound, compared⟩, rfl⟩ := succeeds_comparison.mp succeeds
    obtain ⟨bound, -, resolved⟩ := Expression.readBy_of_extends larger bound
    exact succeeds_comparison.mpr ⟨⟨bound, resolved ▸ compared⟩, rfl⟩

/-- Meeting a metavariable with a value can be repeated. -/
theorem meet (metavariable : Metavariable) (concrete : Expression) :
    (metavariable.meet concrete).Repeats where
  grows := StepLaw.growth.meet metavariable trivial
  settled succeeds := (Metavariable.succeeds_meet_iff.mp succeeds).settled

/-- The second run only adds values to the session in which the first one is settled. -/
theorem bind (first : matching.Repeats) (second : next.Repeats) :
    (matching >>= fun _ => next).Repeats where
  grows := StepLaw.growth.runLaw.bind first.grows second.grows
  settled succeeds := by
    obtain ⟨middle, matched, others⟩ := succeeds_bind.mp succeeds
    have grown := second.grows middle
    rw [others] at grown
    exact ((first.settled matched).of_extends grown.preserves).bind
      (second.settled others)

theorem widening (pattern concrete : Expression) (repeats : matching.Repeats) :
    (matching.widening pattern concrete).Repeats where
  grows := StepLaw.growth.runLaw.widening pattern concrete repeats.grows
  settled succeeds later larger :=
    succeeds_widening.mpr (repeats.settled (succeeds_widening.mp succeeds) later larger)

end Repeats

/-- Repeatability is kept by the steps of matching. -/
theorem RunLaw.repeats : RunLaw Repeats fun _ => True where
  pure := .pure
  throw := .throw
  comparison := .comparison
  meet metavariable {concrete} _ := .meet metavariable concrete
  bind := .bind
  widening pattern concrete _ := .widening pattern concrete

end Matching

/-- A pattern that has matched is settled. -/
theorem Expression.settled_matchAgainst
    {pattern concrete : Expression}
    {before after : Session}
    (succeeds : (pattern.matchAgainst concrete).Succeeds before after) :
    (pattern.matchAgainst concrete).Settled after :=
  (RunLaw.repeats.expression hereditary_true pattern concrete trivial).settled succeeds

namespace Session

/-- A match that has succeeded can be repeated at once, and after any further operations,
whatever their outcome. It succeeds each time and leaves the session as it is. -/
theorem matching_repeatable
    (pattern concrete : Expression)
    (before after : Session)
    (succeeds : (pattern.matchAgainst concrete).Succeeds before after) :
    (pattern.matchAgainst concrete).Succeeds after after ∧
      ∀ operations,
        let later := after.performAll operations
        (pattern.matchAgainst concrete).Succeeds later later := by
  have settled := Expression.settled_matchAgainst succeeds
  exact ⟨settled.succeeds, fun operations =>
    settled _ (after.growsTo_performAll operations).preserves⟩

/-- When `Ft ∧ A(t)` is matched with `Fa ∧ P`, the parameter of `A(t)` becomes known on
the way. After another match the match is repeated. -/
theorem matching_repeatable_parameter :
    let symbol : Symbol := ⟨"t", .termMeta⟩
    let letter : Formula := .leaf .letter ⟨"P", .sentenceLetter⟩
    let conjunction (term : Term) (right : Formula) : Expression :=
      .formula (.plain (.binary ⟨"∧", .connective⟩ .conjunction
        (.plain (.relation ⟨"F", .relation⟩ [term])) right none))
    let pattern := conjunction (.leaf .termMeta symbol)
      (.plain (.complexMeta ⟨"A", .formulaMeta⟩ [.leaf .termMeta symbol] .round))
    let concrete := conjunction (.leaf .constant ⟨"a", .constant⟩) letter
    let after := empty.perform (.matchExpression pattern concrete)
    let later := after.performAll
      [.matchFormula (.leaf .formulaMeta ⟨"B", .formulaMeta⟩) letter]
    (pattern.matchAgainst concrete).Succeeds empty after ∧
      after.boundCount = 2 ∧ later.boundCount = 3 ∧
      (pattern.matchAgainst concrete).Succeeds after after ∧
      (pattern.matchAgainst concrete).Succeeds later later := by
  intro symbol letter conjunction pattern concrete after later
  have succeeds : (pattern.matchAgainst concrete).Succeeds empty after := by rfl
  obtain ⟨again, always⟩ := matching_repeatable pattern concrete empty after succeeds
  exact ⟨succeeds, by decide +kernel, by decide +kernel, again, always _⟩

end Session
end SymbolicLogic
