import SymbolicLogic.Proofs.Expression.Nodes
import SymbolicLogic.Proofs.Session.Runs

/-!
# Induction on matching

Matching is put together from tests and comparisons, which change nothing, and from
metavariables that are met with a part of the concrete expression. So what holds of each
of these, and of runs that are put together from runs of which it holds, holds of matching
as a whole. In particular, what relates the sessions before and after each meeting relates
those before and after a match.
-/

namespace SymbolicLogic

/-- What holds of an expression holds of its parts, and of the carrier and both sides of
a pending substitution. -/
structure Expression.Hereditary (allowed : Expression -> Prop) : Prop where
  part {whole part : Expression} (member : part ∈ whole.children) :
    allowed whole -> allowed part
  carrier {whole : Expression} : allowed whole -> allowed whole.withoutTransform
  sides {whole : Expression} {transform : Transform}
    (pending : whole.transform? = some transform) :
    allowed whole ->
      allowed (.term transform.target) ∧ allowed (.term transform.replacement)

namespace Matching

/-- What holds of the steps of matching and is kept when runs are put together: of steps
that change nothing, of meeting a metavariable with an expression that is allowed, and of
steps one after the other. -/
structure RunLaw
    (holds : Matching Unit -> Prop)
    (allowed : Expression -> Prop) : Prop where
  pure : holds (Pure.pure ())
  throw (error : MatchError) : holds (MonadExcept.throw error)
  comparison (pattern concrete : Expression) :
    holds (Matching.comparison pattern concrete)
  meet (metavariable : Metavariable) {concrete : Expression} :
    allowed concrete -> holds (metavariable.meet concrete)
  bind {matching next : Matching Unit} :
    holds matching -> holds next -> holds (matching >>= fun _ => next)
  widening (pattern concrete : Expression) {matching : Matching Unit} :
    holds matching -> holds (matching.widening pattern concrete)

namespace RunLaw

variable {holds : Matching Unit -> Prop} {allowed : Expression -> Prop}

mutual

/-- The law holds of matching terms. -/
theorem term
    (law : RunLaw holds allowed)
    (hereditary : Expression.Hereditary allowed)
    (pattern concrete : Term)
    (are : allowed (.term concrete)) : holds (pattern.matchAgainst concrete) := by
  match pattern with
  | .plain shape => exact law.termShape hereditary shape concrete are
  | .transformed shape target replacement stacked =>
      rw [Term.matchAgainst.eq_def]
      dsimp only
      split
      · obtain ⟨targets, replacements⟩ := hereditary.sides rfl are
        exact law.bind (law.termShape hereditary shape _ (hereditary.carrier are))
          (law.bind (law.term hereditary target _ targets)
            (law.term hereditary replacement _ replacements))
      · next shape' =>
          exact law.comparison (.term (.transformed shape target replacement stacked))
            (.term (.plain shape'))

theorem termShape
    (law : RunLaw holds allowed)
    (hereditary : Expression.Hereditary allowed)
    (pattern : TermShape)
    (concrete : Term)
    (are : allowed (.term concrete)) : holds (pattern.matchAgainst concrete) := by
  have parts : ∀ part ∈ (Expression.term concrete).children, allowed part :=
    fun _ member => hereditary.part member are
  rw [TermShape.matchAgainst.eq_def]
  match pattern with
  | .leaf kind symbol =>
      dsimp only
      split
      · exact law.meet _ are
      · split
        · split
          · exact law.pure
          · exact law.throw _
        · exact law.throw _
  | .apply .complexMeta symbol params _ =>
      have meets := law.meet ⟨.complexTerm, symbol, params⟩ are
      dsimp only
      split
      · split
        · exact law.bind (law.terms hereditary params _ (List.forall_mem_map.mp parts)) meets
        · exact meets
      · exact meets
  | .apply .function symbol args _ =>
      dsimp only
      split
      · split
        · exact law.terms hereditary args _ (List.forall_mem_map.mp parts)
        · exact law.throw _
      · exact law.throw _
  | .operation symbol left right _ =>
      dsimp only
      split
      · split
        · exact law.bind (law.term hereditary left _ (parts _ List.mem_cons_self))
            (law.term hereditary right _
              (parts _ (List.mem_cons_of_mem _ List.mem_cons_self)))
        · exact law.throw _
      · exact law.throw _

/-- The law holds of matching lists of terms. -/
theorem terms
    (law : RunLaw holds allowed)
    (hereditary : Expression.Hereditary allowed)
    (patterns concretes : List Term)
    (are : ∀ concrete ∈ concretes, allowed (.term concrete)) :
    holds (Term.matchAll patterns concretes) := by
  match patterns, concretes with
  | pattern :: patterns, concrete :: concretes =>
      obtain ⟨first, others⟩ := List.forall_mem_cons.mp are
      exact law.bind (law.term hereditary pattern concrete first)
        (law.terms hereditary patterns concretes others)
  | [], _ | _ :: _, [] => exact law.pure

end

mutual

/-- The law holds of matching formulas. -/
theorem formula
    (law : RunLaw holds allowed)
    (hereditary : Expression.Hereditary allowed)
    (pattern concrete : Formula)
    (are : allowed (.formula concrete)) :
    holds (pattern.matchAgainst concrete) := by
  match pattern with
  | .plain shape => exact law.formulaShape hereditary shape concrete are
  | .transformed shape transform =>
      rw [Formula.matchAgainst.eq_def]
      dsimp only
      split
      · obtain ⟨targets, replacements⟩ := hereditary.sides rfl are
        exact law.bind (law.formulaShape hereditary shape _ (hereditary.carrier are))
          (law.bind (law.term hereditary _ _ targets)
            (law.term hereditary _ _ replacements))
      · next shape' =>
          exact law.comparison (.formula (.transformed shape transform))
            (.formula (.plain shape'))

theorem formulaShape
    (law : RunLaw holds allowed)
    (hereditary : Expression.Hereditary allowed)
    (pattern : FormulaShape)
    (concrete : Formula)
    (are : allowed (.formula concrete)) :
    holds (pattern.matchAgainst concrete) := by
  have parts : ∀ part ∈ (Expression.formula concrete).children, allowed part :=
    fun _ member => hereditary.part member are
  rw [FormulaShape.matchAgainst.eq_def]
  match pattern with
  | .leaf kind symbol =>
      dsimp only
      split
      · exact law.meet _ are
      · split
        · split
          · exact law.pure
          · exact law.throw _
        · exact law.throw _
  | .complexMeta symbol params _ =>
      have meets := law.meet ⟨.complexFormula, symbol, params⟩ are
      dsimp only
      split
      · split
        · exact law.bind
            (law.terms hereditary params _ (List.forall_mem_map.mp parts)) meets
        · exact meets
      · exact meets
  | .relation symbol args =>
      dsimp only
      split
      · split
        · exact law.terms hereditary args _ (List.forall_mem_map.mp parts)
        · exact law.throw _
      · exact law.throw _
  | .comparison symbol left right _ =>
      dsimp only
      split
      · split
        · obtain ⟨lefts, others⟩ := List.forall_mem_cons.mp parts
          exact law.bind (law.term hereditary left _ lefts)
            (law.term hereditary right _ (List.forall_mem_singleton.mp others))
        · exact law.throw _
      · exact law.throw _
  | .negation symbol operand =>
      dsimp only
      split
      · split
        · exact law.formula hereditary operand _ (List.forall_mem_singleton.mp parts)
        · exact law.throw _
      · exact law.throw _
  | .binary symbol connective left right _ =>
      dsimp only
      split
      · split
        · obtain ⟨lefts, others⟩ := List.forall_mem_cons.mp parts
          exact law.bind (law.formula hereditary left _ lefts)
            (law.formula hereditary right _ (List.forall_mem_singleton.mp others))
        · exact law.throw _
      · exact law.throw _
  | .quantified symbol quantifier boundVariable restriction scope =>
      dsimp only
      split
      · obtain ⟨binders, others⟩ := List.forall_mem_cons.mp parts
        obtain ⟨restrictions, scopes⟩ := List.forall_mem_append.mp others
        have scopeKept := law.formula hereditary scope _ (List.forall_mem_singleton.mp scopes)
        split
        · refine law.bind (law.widening _ _ ?_) scopeKept
          exact law.bind (law.term hereditary boundVariable _ binders)
            (law.restrictedBy hereditary restriction _ restrictions (law.throw _))
        · exact law.bind (law.throw _) scopeKept
      · exact law.throw _

/-- The law holds of matching restrictions, if it holds of what is done when they differ. -/
theorem restrictedBy
    (law : RunLaw holds allowed)
    (hereditary : Expression.Hereditary allowed)
    (pattern concrete : Restriction)
    (are : ∀ part ∈ FormulaShape.restrictionChildren concrete, allowed part)
    {mismatch : Matching Unit}
    (mismatched : holds mismatch) :
    holds (pattern.matchAgainst concrete mismatch) := by
  rw [Restriction.matchAgainst.eq_def]
  split
  · exact law.pure
  · next relation bound _ _ _ _ =>
      split
      · exact law.term hereditary bound _ (List.forall_mem_singleton.mp are)
      · exact mismatched
  · next divider body _ _ _ _ =>
      split
      · exact law.formula hereditary body _ (List.forall_mem_singleton.mp are)
      · exact mismatched
  · exact mismatched

end

/-- The law holds of matching any expressions, if the concrete one is allowed. -/
theorem expression
    (law : RunLaw holds allowed)
    (hereditary : Expression.Hereditary allowed)
    (pattern concrete : Expression)
    (are : allowed concrete) : holds (pattern.matchAgainst concrete) := by
  rw [Expression.matchAgainst.eq_def]
  split
  · exact law.formula hereditary _ _ are
  · exact law.term hereditary _ _ are
  · split
    · exact law.meet _ are
    · exact law.throw _
  · split
    · exact law.meet _ are
    · exact law.throw _

end RunLaw

/-- Wherever the run begins, and however it ends, the session at the beginning is
related to the one at the end. -/
def Relates
    (relation : Session -> Session -> Prop)
    (matching : Matching Unit) : Prop :=
  ∀ session : Session, relation session (matching.runFrom session).2

/-- Sessions are related across steps of matching: steps that change nothing, steps one
after the other, and meeting a metavariable with an expression that is allowed. -/
structure StepLaw
    (relation : Session -> Session -> Prop)
    (allowed : Expression -> Prop) : Prop where
  refl (session : Session) : relation session session
  trans {before middle after : Session} :
    relation before middle -> relation middle after -> relation before after
  meet (metavariable : Metavariable) {concrete : Expression} :
    allowed concrete -> (metavariable.meet concrete).Relates relation

/-- What relates the sessions of each step relates those of a run. -/
theorem StepLaw.runLaw
    {relation : Session -> Session -> Prop}
    {allowed : Expression -> Prop}
    (law : StepLaw relation allowed) : RunLaw (Relates relation) allowed where
  pure := law.refl
  throw _ := law.refl
  comparison pattern concrete session := by
    rw [runFrom_comparison]
    cases pattern.unbound? session with
    | some dependency => exact law.refl session
    | none =>
        dsimp only
        split
        · exact law.refl session
        · exact law.refl session
  meet := law.meet
  bind {matching _} first second session := by
    have across := first session
    rw [runFrom_bind]
    rcases outcome : matching.runFrom session with ⟨error | _, middle⟩
    · rw [outcome] at across
      exact across
    · rw [outcome] at across
      exact law.trans across (second middle)
  widening _ _ {matching} relates session := by
    rw [runFrom_widening]
    exact relates session

end Matching
end SymbolicLogic
