import SymbolicLogic.Proofs.Session.Induction

/-!
# Matching only adds bindings

Whether it succeeds or fails on the way, matching does nothing to a session but
enter metavariables and give values to some that have none.
-/

namespace SymbolicLogic

open Session

/-- Wherever the run begins, and however it ends, the session grows. -/
def Matching.Grows (matching : Matching Unit) : Prop :=
  matching.Relates GrowsTo

open Matching

/-- Entering a metavariable leaves all values as they are. -/
@[simp] theorem Session.value?_enter
    (session : Session)
    (metavariable key : Metavariable) :
    (session.enter metavariable).value? key = session.value? key := by
  rw [enter]
  split
  · exact session.value?_register _ key
  · rfl

namespace Metavariable

variable (metavariable : Metavariable) (value : Expression)

/-- A session grows when a metavariable is entered. -/
theorem growsTo_enter (session : Session) :
    session.GrowsTo (session.enter metavariable) := by
  rw [enter]
  split
  · next key _ => exact .register .refl key
  · exact .refl

/-- Resolving the parameters of a metavariable leaves its family as it is. -/
theorem family_eq_of_resolvedKey
    {metavariable key : Metavariable}
    {session : Session}
    (known : session.resolvedKey metavariable = .ok key) :
    key.family = metavariable.family := by
  rw [← (resolvedKey_eq_ok.mp known).2]
  rfl

section Bound

variable {metavariable value} {before after : Session}

/-- A session grows when a metavariable is bound. -/
theorem growsTo_of_bound
    (bound : metavariable.Bound value before after) :
    before.GrowsTo after := by
  cases bound with
  | found => exact .refl
  | entered accepts known unbound =>
      rw [← family_eq_of_resolvedKey known] at accepts
      exact .bind .refl accepts ⟨metavariable, known⟩ unbound

/-- A metavariable is bound to values of its own sort only. -/
theorem Bound.accepts (bound : metavariable.Bound value before after) :
    metavariable.family.accepts value = true := by
  cases bound with
  | found accepts => exact accepts
  | entered accepts => exact accepts

/-- A metavariable is bound under a key, so its parameters have values. -/
theorem Bound.exists_key
    (bound : metavariable.Bound value before after) :
    ∃ key, before.resolvedKey metavariable = .ok key := by
  cases bound with
  | @found key _ _ known => exact ⟨key, known⟩
  | @entered key _ known => exact ⟨key, known⟩

/-- A metavariable that was bound has a value that is the same as the one
given. -/
theorem Bound.exists_get?
    (bound : metavariable.Bound value before after) :
    ∃ found, after.get? metavariable = some found ∧
      found.same value = true := by
  have larger := (growsTo_of_bound bound).preserves
  cases bound with
  | @found key existing _ known bound same =>
      exact ⟨existing, get?_eq_some.mpr ⟨key, known, bound⟩, same⟩
  | @entered key _ known =>
      exact ⟨value, get?_eq_some.mpr ⟨key, larger.resolvedKey_eq_ok known,
        before.value?_bound value key.same_refl⟩, value.same_refl⟩

/-- Binding a metavariable concerns no other key. -/
theorem Bound.find?_of_other
    (bound : metavariable.Bound value before after)
    {key other : Metavariable}
    (known : before.resolvedKey metavariable = .ok key)
    (different : key.same other = false) :
    after.find? other = before.find? other := by
  cases bound with
  | found => rfl
  | entered _ known' =>
      rw [known] at known'
      cases known'
      exact before.find?_bound_of_other value different

/-- Binding a metavariable brings in no other value than the one given. -/
theorem Bound.value?_eq_or
    (bound : metavariable.Bound value before after)
    {key : Metavariable}
    {found : Expression}
    (has : after.value? key = some found) :
    before.value? key = some found ∨ found = value := by
  cases bound with
  | found => exact .inl has
  | @entered entered _ _ _ =>
      cases same : entered.same key with
      | true =>
          rw [before.value?_bound value same] at has
          exact .inr (Option.some.inj has).symm
      | false =>
          rw [before.value?_bound_of_other value same] at has
          exact .inl has

end Bound

theorem grows_bind : (metavariable.bind value).Grows := by
  intro session
  rcases outcome : (metavariable.bind value).runFrom session with ⟨_ | _, after⟩
  · rw [eq_of_runFrom_bind_eq_error outcome]
    exact .refl
  · exact growsTo_of_bound (succeeds_bind_iff.mp outcome)

/-- A session grows when a metavariable meets a value, even if this fails. -/
theorem growsTo_meet (session : Session) :
    session.GrowsTo ((metavariable.meet value).runFrom session).2 :=
  (metavariable.growsTo_enter session).trans
    (metavariable.grows_bind value (session.enter metavariable))

/-- Meeting a metavariable brings in no other value than the one given. -/
theorem value?_meet_eq_or
    (session : Session)
    {key : Metavariable}
    {found : Expression}
    (has : ((metavariable.meet value).runFrom session).2.value? key = some found) :
    session.value? key = some found ∨ found = value := by
  have entered : (metavariable.meet value).runFrom session =
      (metavariable.bind value).runFrom (session.enter metavariable) := rfl
  rw [entered] at has
  rw [← session.value?_enter metavariable key]
  rcases outcome : (metavariable.bind value).runFrom (session.enter metavariable)
    with ⟨_ | _, after⟩
  · rw [outcome, eq_of_runFrom_bind_eq_error outcome] at has
    exact .inl has
  · rw [outcome] at has
    exact (succeeds_bind_iff.mp outcome).value?_eq_or has

end Metavariable

/-- Growth is kept by the steps of matching. -/
theorem Matching.StepLaw.growth : StepLaw GrowsTo fun _ => True where
  refl _ := .refl
  trans := .trans
  meet metavariable {concrete} _ := metavariable.growsTo_meet concrete

theorem Expression.hereditary_true : Hereditary fun _ => True :=
  ⟨fun _ _ => trivial, fun _ => trivial, fun _ _ => ⟨trivial, trivial⟩⟩

theorem Term.grows_matchAgainst (pattern concrete : Term) :
    (pattern.matchAgainst concrete).Grows :=
  StepLaw.growth.runLaw.term Expression.hereditary_true pattern concrete trivial

theorem Formula.grows_matchAgainst (pattern concrete : Formula) :
    (pattern.matchAgainst concrete).Grows :=
  StepLaw.growth.runLaw.formula Expression.hereditary_true pattern concrete trivial

/-- A session grows when an expression is matched, even if this fails. -/
theorem Expression.grows_matchAgainst (pattern concrete : Expression) :
    (pattern.matchAgainst concrete).Grows :=
  StepLaw.growth.runLaw.expression Expression.hereditary_true pattern concrete trivial

end SymbolicLogic
