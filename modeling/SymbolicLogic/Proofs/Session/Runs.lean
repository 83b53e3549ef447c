import SymbolicLogic.Proofs.Session.Stability

/-!
# Runs of matching

A run succeeds if its parts do, one after the other; a failing part ends it, and
what was bound before stays. Binding a metavariable is the only step that gives
a value. It either fails and changes nothing, or it finds or enters a value that
is the same as the one given.
-/

namespace SymbolicLogic

open Session

/-- A mismatch becomes one of the larger expressions, and any other error stays. -/
def MatchError.widened (pattern concrete : Expression) : MatchError -> MatchError
  | .shapeMismatch .. => .shapeMismatch pattern concrete
  | error => error

namespace Matching

/-- From the first session the run succeeds, and leaves the second. -/
def Succeeds (matching : Matching Unit) (before after : Session) : Prop :=
  matching.runFrom before = (.ok (), after)

variable {matching next : Matching Unit} {before after session : Session}
  {error : MatchError}

/-- A sequence of runs stops at the first error. -/
theorem runFrom_bind
    (matching : Matching Unit)
    (next : Unit -> Matching Unit)
    (session : Session) :
    (matching >>= next).runFrom session =
      match matching.runFrom session with
      | (.ok (), middle) => (next ()).runFrom middle
      | (.error error, middle) => (.error error, middle) := by
  simp only [bind, ExceptT.bind, ExceptT.mk, runFrom, ExceptT.run, StateT.run,
    StateT.bind, ExceptT.bindCont]
  rcases matching session with ⟨_ | _, _⟩ <;> rfl

/-- A widened run fails where the run does, with the error told of the whole expressions. -/
theorem runFrom_widening
    (matching : Matching Unit)
    (pattern concrete : Expression)
    (session : Session) :
    (matching.widening pattern concrete).runFrom session =
      ((matching.runFrom session).1.mapError (MatchError.widened pattern concrete),
        (matching.runFrom session).2) := by
  simp only [widening, tryCatch, tryCatchThe, MonadExceptOf.tryCatch,
    ExceptT.tryCatch, bind, ExceptT.mk, runFrom, ExceptT.run, StateT.run,
    StateT.bind]
  rcases matching session with ⟨error | _, _⟩
  · cases error <;> rfl
  · rfl

theorem runFrom_get (next : Session -> Matching Unit) (session : Session) :
    (get >>= next).runFrom session = (next session).runFrom session := rfl

/-- A part that succeeds without a session is passed over. -/
theorem runFrom_ok
    {α : Type}
    (value : α)
    (next : α -> Matching Unit)
    (session : Session) :
    Matching.runFrom (do
        let found <- (.ok value : Except MatchError α)
        next found) session =
      (next value).runFrom session := rfl

@[simp] theorem succeeds_pure :
    (pure () : Matching Unit).Succeeds before after ↔ after = before := by
  constructor
  · intro succeeds
    cases succeeds
    rfl
  · rintro rfl
    rfl

@[simp] theorem not_succeeds_throw :
    ¬(throw error : Matching Unit).Succeeds before after :=
  nofun

/-- A sequence of runs succeeds if both do, through a session between them. -/
@[simp] theorem succeeds_bind :
    (matching >>= fun _ => next).Succeeds before after ↔
      ∃ middle, matching.Succeeds before middle ∧ next.Succeeds middle after := by
  rw [Succeeds, runFrom_bind]
  unfold Succeeds
  rcases matching.runFrom before with ⟨error | _, middle⟩ <;> simp

@[simp] theorem succeeds_modify {change : Session -> Session} :
    (modify change : Matching Unit).Succeeds before after ↔
      after = change before := by
  constructor
  · intro succeeds
    cases succeeds
    rfl
  · rintro rfl
    rfl

/-- A widened run succeeds where the run does. -/
@[simp] theorem succeeds_widening {pattern concrete : Expression} :
    (matching.widening pattern concrete).Succeeds before after ↔
      matching.Succeeds before after := by
  rw [Succeeds, runFrom_widening, Succeeds]
  rcases matching.runFrom before with ⟨error | _, middle⟩
  · exact iff_of_false (fun failed => by cases failed) fun failed => by cases failed
  · exact Iff.rfl

/-- A run on a condition succeeds where the condition holds. -/
@[simp] theorem succeeds_ite {condition : Prop} [Decidable condition] :
    (if condition then matching else throw error).Succeeds before after ↔
      condition ∧ matching.Succeeds before after := by
  split <;> simp [*]

/-- Once all metavariables of a pattern have values, what it is resolved to is compared
with the concrete expression, carried out. -/
def comparison (pattern concrete : Expression) : Matching Unit := do
  let session <- get
  if let some dependency := pattern.unbound? session then
    throw (.unresolvedDependency pattern dependency)
  unless (pattern.readBy (.resolve session)).same concrete.carryOut do
    throw (.shapeMismatch pattern concrete.carryOut)

/-- Nothing is entered and nothing is bound. -/
theorem runFrom_comparison (pattern concrete : Expression) (session : Session) :
    (comparison pattern concrete).runFrom session =
      match pattern.unbound? session with
      | some dependency =>
          (.error (.unresolvedDependency pattern dependency), session)
      | none =>
          if (pattern.readBy (.resolve session)).same concrete.carryOut then
            (.ok (), session)
          else (.error (.shapeMismatch pattern concrete.carryOut), session) := by
  rw [comparison, runFrom_get]
  cases pattern.unbound? session with
  | some dependency => rfl
  | none =>
      cases (pattern.readBy (.resolve session)).same concrete.carryOut <;> rfl

/-- A comparison succeeds if the pattern is bound and resolves to the same, and changes
nothing. -/
theorem succeeds_comparison {pattern concrete : Expression} :
    (comparison pattern concrete).Succeeds before after ↔
      (pattern.unbound? before = none ∧
        (pattern.readBy (.resolve before)).same concrete.carryOut = true) ∧
      after = before := by
  rw [Succeeds, runFrom_comparison]
  cases pattern.unbound? before with
  | some dependency => simp
  | none =>
      cases (pattern.readBy (.resolve before)).same concrete.carryOut <;>
        simp [eq_comm]

end Matching

open Matching

namespace Metavariable

variable {metavariable : Metavariable} {value : Expression}
  {before after : Session}

/-- Binding a metavariable looks at the sort of the value, at the key and at what is known
of it, in this order. -/
theorem runFrom_bind
    (metavariable : Metavariable)
    (value : Expression)
    (session : Session) :
    (metavariable.bind value).runFrom session =
      if metavariable.family.accepts value then
        match session.resolvedKey metavariable with
        | .error error => (.error error, session)
        | .ok key =>
            match session.value? key with
            | some existing =>
                if existing.same value then (.ok (), session)
                else
                  (.error (.variableConflict metavariable.toExpression existing
                    value), session)
            | none => (.ok (), (session.register key).assign key value)
      else
        (.error (.kindMismatch metavariable.symbol metavariable.family value),
          session) := by
  unfold Metavariable.bind
  cases metavariable.family.accepts value with
  | false => rfl
  | true =>
      cases known : session.resolvedKey metavariable with
      | error error =>
          simp only [Matching.runFrom_get, known, if_true]
          rfl
      | ok key =>
          simp only [Matching.runFrom_get, known, if_true]
          rw [Matching.runFrom_ok]
          cases session.value? key with
          | none => rfl
          | some existing =>
              dsimp only
              cases existing.same value <;> rfl

/-- A binding that succeeds leaves a value that is the same as the one given. -/
inductive Bound
    (metavariable : Metavariable)
    (value : Expression)
    (before : Session) : Session -> Prop
  /-- There was such a value already. -/
  | found
      {key : Metavariable}
      {existing : Expression}
      (accepts : metavariable.family.accepts value = true)
      (known : before.resolvedKey metavariable = .ok key)
      (bound : before.value? key = some existing)
      (same : existing.same value = true) :
      Bound metavariable value before before
  /-- There was none, and the value is entered. -/
  | entered
      {key : Metavariable}
      (accepts : metavariable.family.accepts value = true)
      (known : before.resolvedKey metavariable = .ok key)
      (unbound : before.value? key = none) :
      Bound metavariable value before
        ((before.register key).assign key value)

/-- Binding succeeds exactly as `Bound` says. -/
theorem succeeds_bind_iff :
    (metavariable.bind value).Succeeds before after ↔
      metavariable.Bound value before after := by
  rw [Succeeds, runFrom_bind]
  constructor
  · intro succeeds
    split at succeeds
    · next accepts =>
        split at succeeds
        · cases succeeds
        · next key known =>
            split at succeeds
            · next existing bound =>
                split at succeeds
                · next same =>
                    cases succeeds
                    exact .found accepts known bound same
                · cases succeeds
            · next unbound =>
                cases succeeds
                exact .entered accepts known unbound
    · cases succeeds
  · rintro (⟨accepts, known, bound, same⟩ | ⟨accepts, known, unbound⟩)
    · simp [accepts, known, bound, same]
    · simp [accepts, known, unbound]

/-- A binding that fails changes nothing. -/
theorem eq_of_runFrom_bind_eq_error
    {error : MatchError}
    (failed : (metavariable.bind value).runFrom before = (.error error, after)) :
    after = before := by
  rw [runFrom_bind] at failed
  split at failed
  · split at failed
    · cases failed
      rfl
    · split at failed
      · split at failed
        · cases failed
        · cases failed
          rfl
      · cases failed
  · cases failed
    rfl

end Metavariable
end SymbolicLogic
