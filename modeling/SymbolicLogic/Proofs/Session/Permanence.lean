import SymbolicLogic.Proofs.Session.Growth

/-!
# Bindings are for good

A session is made from the empty one by entering metavariables, binding them and
matching, whether or not these succeed. Each of these steps grows the session, so
a value that was found for a metavariable is found from then on, and every value
is of the sort of its metavariable.
-/

namespace SymbolicLogic

open Session

/-- What changes a session. -/
inductive Session.Operation
  /-- A metavariable is looked up, with or without parameters. -/
  | enter (metavariable : Metavariable)
  | bind (metavariable : Metavariable) (value : Expression)
  | matchFormula (pattern concrete : Formula)
  | matchTerm (pattern concrete : Term)
  | matchExpression (pattern concrete : Expression)

/-- The run that an operation is. -/
def Session.Operation.run : Operation -> Matching Unit
  | .enter metavariable => modify fun session => session.enter metavariable
  | .bind metavariable value => metavariable.bind value
  | .matchFormula pattern concrete => pattern.matchAgainst concrete
  | .matchTerm pattern concrete => pattern.matchAgainst concrete
  | .matchExpression pattern concrete => pattern.matchAgainst concrete

namespace Session

/-- The session after an operation, whatever its outcome. -/
def perform (session : Session) (operation : Operation) : Session :=
  (operation.run.runFrom session).2

/-- The session after some operations, one after the other. -/
def performAll (session : Session) (operations : List Operation) : Session :=
  operations.foldl perform session

/-- Every operation lets a session grow. -/
theorem growsTo_perform (session : Session) (operation : Operation) :
    session.GrowsTo (session.perform operation) := by
  cases operation with
  | enter metavariable => exact metavariable.growsTo_enter session
  | bind metavariable value => exact metavariable.grows_bind value session
  | matchFormula pattern concrete =>
      exact pattern.grows_matchAgainst concrete session
  | matchTerm pattern concrete =>
      exact pattern.grows_matchAgainst concrete session
  | matchExpression pattern concrete =>
      exact pattern.grows_matchAgainst concrete session

/-- A session grows with every sequence of operations. -/
theorem growsTo_performAll (session : Session) (operations : List Operation) :
    session.GrowsTo (session.performAll operations) := by
  induction operations generalizing session with
  | nil => exact .refl
  | cons operation operations inductionHypothesis =>
      exact (session.growsTo_perform operation).trans (inductionHypothesis _)

/-- After any operations, every value is accepted by the family of its key; the
value that a metavariable has then is the one it has after any further
operations; and a binding either fails and changes nothing, or gives its
metavariable a value that is the same as the one asked for and changes no other
key. -/
theorem bindings_permanent (operations : List Operation) :
    let session := empty.performAll operations
    session.IsWellSorted ∧
    (∀ later metavariable value,
      session.get? metavariable = some value ->
      (session.performAll later).get? metavariable = some value) ∧
    ∀ (metavariable : Metavariable) (value : Expression),
      (∃ error,
        (metavariable.bind value).runFrom session = (.error error, session)) ∨
      ∃ key after,
        session.resolvedKey metavariable = .ok key ∧
        (metavariable.bind value).runFrom session = (.ok (), after) ∧
        (∃ found, after.get? metavariable = some found ∧
          found.same value = true) ∧
        ∀ other, key.same other = false ->
          after.find? other = session.find? other := by
  intro session
  have grown : empty.GrowsTo session := empty.growsTo_performAll operations
  refine ⟨grown.isWellSorted .empty, ?_, ?_⟩
  · intro later metavariable value found
    exact (session.growsTo_performAll later).preserves.get?_eq_some found
  · intro metavariable value
    rcases outcome : (metavariable.bind value).runFrom session
      with ⟨error | _, after⟩
    · cases Metavariable.eq_of_runFrom_bind_eq_error outcome
      exact .inl ⟨error, rfl⟩
    · have bound := Metavariable.succeeds_bind_iff.mp outcome
      obtain ⟨key, known⟩ := bound.exists_key
      exact .inr ⟨key, after, known, rfl, bound.exists_get?,
        fun _ different => bound.find?_of_other known different⟩

/-- A metavariable that was bound to `P` still has this value after an attempt to
bind it to `Q`. -/
theorem bindings_permanent_conflict :
    let key : Metavariable := ⟨.formula, ⟨"A", .formulaMeta⟩, []⟩
    let letter (text : String) : Expression :=
      .formula (.leaf .letter ⟨text, .sentenceLetter⟩)
    let session := empty.performAll [.bind key (letter "P")]
    session.get? key = some (letter "P") ∧
      (session.perform (.bind key (letter "Q"))).get? key =
        some (letter "P") := by
  intro key letter session
  have found : session.get? key = some (letter "P") := rfl
  obtain ⟨-, permanent, -⟩ := bindings_permanent [.bind key (letter "P")]
  exact ⟨found, permanent [.bind key (letter "Q")] key (letter "P") found⟩

end Session
end SymbolicLogic
