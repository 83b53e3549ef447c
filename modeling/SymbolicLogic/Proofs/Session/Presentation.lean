import SymbolicLogic.Proofs.Session.Alike

/-!
# Presentation has no influence

However patterns and expressions are written, and in whatever order a session was
filled, matching succeeds or fails in the same way and leaves sessions that are
alike. Each step of matching is compared with the same step on standard forms:
what is asked about a node does not depend on how it is written.
-/

namespace SymbolicLogic

open Session

/-- The kinds of errors of matching. -/
inductive MatchErrorKind
  | variableConflict
  | unresolvedDependency
  | shapeMismatch
  | kindMismatch
  deriving DecidableEq, Repr

def MatchError.kind : MatchError -> MatchErrorKind
  | .variableConflict .. => .variableConflict
  | .unresolvedDependency .. => .unresolvedDependency
  | .shapeMismatch .. => .shapeMismatch
  | .kindMismatch .. => .kindMismatch

/-- A mismatch of larger expressions is still a mismatch. -/
@[simp] theorem MatchError.kind_widened
    (pattern concrete : Expression)
    (error : MatchError) : (error.widened pattern concrete).kind = error.kind := by
  cases error <;> rfl

/-- Widening an error to the whole expressions leaves its kind as it is. -/
theorem MatchError.mapError_kind_widened
    (pattern concrete : Expression)
    (outcome : Except MatchError Unit) :
    (outcome.mapError (MatchError.widened pattern concrete)).mapError
      MatchError.kind = outcome.mapError MatchError.kind := by
  cases outcome with
  | error error => exact congrArg Except.error (error.kind_widened pattern concrete)
  | ok => rfl

namespace Matching

/-- Both succeed, or both fail with errors of one kind; and the sessions that they
leave are alike. -/
structure EndAlike (left right : Except MatchError Unit × Session) : Prop where
  outcomes :
    left.1.mapError MatchError.kind = right.1.mapError MatchError.kind
  sessions : left.2.Alike right.2

/-- From sessions that are alike the runs end alike. -/
def Alike (left right : Matching Unit) : Prop :=
  ∀ session session' : Session, session.Alike session' ->
    EndAlike (left.runFrom session) (right.runFrom session')

namespace Alike

variable {left right third next next' : Matching Unit}
  {error error' : MatchError}

theorem symm (alike : left.Alike right) : right.Alike left := by
  intro session session' sessions
  have ends := alike session' session sessions.symm
  exact ⟨ends.outcomes.symm, ends.sessions.symm⟩

theorem trans
    (alike : left.Alike right)
    (alike' : right.Alike third) : left.Alike third := by
  intro session session' sessions
  have first := alike session session (.refl session)
  have second := alike' session session' sessions
  exact ⟨first.outcomes.trans second.outcomes,
    first.sessions.trans second.sessions⟩

theorem pure : (Pure.pure () : Matching Unit).Alike (Pure.pure ()) :=
  fun _ _ sessions => ⟨rfl, sessions⟩

theorem throw (kinds : error.kind = error'.kind) :
    (MonadExcept.throw error : Matching Unit).Alike (MonadExcept.throw error') :=
  fun _ _ sessions => ⟨congrArg Except.error kinds, sessions⟩

/-- Alike runs that are followed by alike runs are alike. -/
theorem bind
    (alike : left.Alike right)
    (alikeNext : next.Alike next') :
    (left >>= fun _ => next).Alike (right >>= fun _ => next') := by
  intro session session' sessions
  obtain ⟨outcomes, afterwards⟩ := alike session session' sessions
  rw [runFrom_bind, runFrom_bind]
  generalize left.runFrom session = first, right.runFrom session' = second
    at outcomes afterwards ⊢
  rcases first with ⟨_ | _, middle⟩ <;> rcases second with ⟨_ | _, middle'⟩
  · exact ⟨outcomes, afterwards⟩
  · cases outcomes
  · cases outcomes
  · exact alikeNext middle middle' afterwards

/-- Changes of the session that keep likeness are alike runs. -/
theorem modify
    {change change' : Session -> Session}
    (alike : ∀ session session', session.Alike session' ->
      (change session).Alike (change' session')) :
    (modify change : Matching Unit).Alike (modify change') :=
  fun session session' sessions => ⟨rfl, alike session session' sessions⟩

theorem ite
    {condition : Prop}
    [Decidable condition]
    (alike : left.Alike right)
    (alike' : next.Alike next') :
    (if condition then left else next).Alike
      (if condition then right else next') := by
  split
  · exact alike
  · exact alike'

/-- Errors may be widened to different expressions. -/
theorem widening
    (alike : left.Alike right)
    (pattern concrete pattern' concrete' : Expression) :
    (left.widening pattern concrete).Alike
      (right.widening pattern' concrete') := by
  intro session session' sessions
  obtain ⟨outcomes, afterwards⟩ := alike session session' sessions
  rw [runFrom_widening, runFrom_widening]
  refine ⟨?_, afterwards⟩
  rw [MatchError.mapError_kind_widened, MatchError.mapError_kind_widened]
  exact outcomes

/-- Wholes are compared alike. -/
theorem comparison
    {pattern pattern' concrete concrete' : Expression}
    (patterns : pattern.same pattern' = true)
    (concretes : concrete.same concrete' = true) :
    (Matching.comparison pattern concrete).Alike
      (Matching.comparison pattern' concrete') := by
  intro session session' sessions
  have unbound := sessions.unbound?_eq_none_iff patterns
  rw [runFrom_comparison, runFrom_comparison,
    Expression.same_congr (Expression.same_readBy sessions.resolve patterns)
      (Expression.same_carryOut concretes)]
  cases first : pattern.unbound? session with
  | some symbol =>
      cases second : pattern'.unbound? session' with
      | some symbol' => exact ⟨rfl, sessions⟩
      | none => simp [first, second] at unbound
  | none =>
      cases second : pattern'.unbound? session' with
      | some symbol' => simp [first, second] at unbound
      | none =>
          dsimp only
          split
          · exact ⟨rfl, sessions⟩
          · exact ⟨rfl, sessions⟩

end Alike
end Matching

open Matching

namespace Metavariable

variable {metavariable metavariable' : Metavariable}
  {value value' : Expression} {session session' : Session}

/-- The metavariable written in the standard way. -/
theorem same_written
    (family : MetaFamily)
    (symbol : Symbol)
    (params : List Term) :
    Metavariable.same ⟨family, symbol, params⟩
      ⟨family, symbol.standard, Term.standardAll params⟩ = true :=
  (same_iff _ _).mpr ⟨rfl, rfl, (Term.standardAll_standardAll params).symm⟩

/-- The same metavariable has the same key, or parameters without a value in both
sessions. -/
theorem resolvedKey_alike
    (alike : session.Alike session')
    (same : metavariable.same metavariable' = true) :
    (∃ error error', session.resolvedKey metavariable = .error error ∧
      session'.resolvedKey metavariable' = .error error' ∧
      error.kind = error'.kind) ∨
    ∃ key key', session.resolvedKey metavariable = .ok key ∧
      session'.resolvedKey metavariable' = .ok key' ∧ key.same key' = true := by
  have unbound := alike.unboundAmong?_eq_none_iff same
  rw [resolvedKey, resolvedKey]
  cases first : Term.unboundAmong? metavariable.params session with
  | some symbol =>
      cases second : Term.unboundAmong? metavariable'.params session' with
      | some symbol' => exact .inl ⟨_, _, rfl, rfl, rfl⟩
      | none => simp [first, second] at unbound
  | none =>
      cases second : Term.unboundAmong? metavariable'.params session' with
      | some symbol' => simp [first, second] at unbound
      | none => exact .inr ⟨_, _, rfl, rfl, alike.key same⟩

/-- Metavariables that are the same are bound alike to values that are the same. -/
theorem alike_bind
    (same : metavariable.same metavariable' = true)
    (values : value.same value' = true) :
    (metavariable.bind value).Alike (metavariable'.bind value') := by
  intro session session' sessions
  have families := ((same_iff _ _).mp same).1
  rw [runFrom_bind, runFrom_bind, families, MetaFamily.accepts_eq_of_same _ values]
  split
  · rcases resolvedKey_alike sessions same with
      ⟨error, error', known, known', kinds⟩ | ⟨key, key', known, known', keys⟩
    · rw [known, known']
      exact ⟨congrArg Except.error kinds, sessions⟩
    · have existing := sessions.value? keys
      rw [known, known']
      dsimp only
      generalize session.value? key = old, session'.value? key' = old'
        at existing ⊢
      cases existing with
      | none => exact ⟨rfl, (sessions.register keys).assign keys values⟩
      | @some old old' olds =>
          dsimp only
          rw [Expression.same_congr olds values]
          split
          · exact ⟨rfl, sessions⟩
          · exact ⟨rfl, sessions⟩
  · exact ⟨rfl, sessions⟩

/-- Metavariables that are the same meet alike values that are the same. -/
theorem alike_meet
    (same : metavariable.same metavariable' = true)
    (values : value.same value' = true) :
    (metavariable.meet value).Alike (metavariable'.meet value') := by
  refine .bind (.modify fun session session' sessions => ?_)
    (alike_bind same values)
  rw [enter, enter]
  rcases resolvedKey_alike sessions same with
    ⟨error, error', known, known', -⟩ | ⟨key, key', known, known', keys⟩
  · rw [known, known']
    exact sessions
  · rw [known, known']
    exact sessions.register keys

end Metavariable

mutual

/-- A match of terms is alike to the match of their standard forms. -/
theorem Term.alike_standard (pattern concrete : Term) :
    (pattern.matchAgainst concrete).Alike
      (pattern.standard.matchAgainst concrete.standard) := by
  match pattern with
  | .plain shape => exact TermShape.alike_standard shape concrete
  | .transformed shape target replacement stacked =>
      cases concrete with
      | transformed shape' target' replacement' =>
          exact .bind (TermShape.alike_standard shape (.plain shape'))
            (.bind (Term.alike_standard target target')
              (Term.alike_standard replacement replacement'))
      | plain shape' =>
          have compared := Matching.Alike.comparison
            (Expression.same_of_standard
              (.term (.transformed shape target replacement stacked)))
            (Expression.same_of_standard (.term (.plain shape')))
          exact compared

theorem TermShape.alike_standard (pattern : TermShape) (concrete : Term) :
    (pattern.matchAgainst concrete).Alike
      (pattern.standard.matchAgainst concrete.standard) := by
  have concretes := Expression.same_of_standard (.term concrete)
  rw [TermShape.matchAgainst.eq_def, TermShape.matchAgainst.eq_def]
  match pattern with
  | .leaf kind symbol =>
      simp only [TermShape.standard]
      cases kind.family? with
      | some family =>
          exact Metavariable.alike_meet (Metavariable.same_written family symbol [])
            concretes
      | none =>
          rcases concrete with (_ | _ | _) | _
          · simp only [Term.standard, TermShape.standard, Symbol.same_standard]
            exact .ite .pure (.throw rfl)
          · exact .throw rfl
          · exact .throw rfl
          · exact .throw rfl
  | .apply .complexMeta symbol params _ =>
      have meets := Metavariable.alike_meet
        (Metavariable.same_written .complexTerm symbol params) concretes
      rcases concrete with (_ | ⟨_ | _, symbol', args⟩ | _) | _
      · exact meets
      · exact meets
      · simp only [Term.standard, TermShape.standard, Symbol.same_standard,
          Term.length_standardAll]
        split
        · exact .bind (Term.alike_standardAll params args) meets
        · exact meets
      · exact meets
      · exact meets
  | .apply .function symbol args _ =>
      rcases concrete with (_ | ⟨_ | _, symbol', args'⟩ | _) | _
      · exact .throw rfl
      · simp only [Term.standard, TermShape.standard, Symbol.same_standard,
          Term.length_standardAll]
        exact .ite (Term.alike_standardAll args args') (.throw rfl)
      · exact .throw rfl
      · exact .throw rfl
      · exact .throw rfl
  | .operation symbol left right _ =>
      rcases concrete with (_ | _ | ⟨symbol', left', right'⟩) | _
      · exact .throw rfl
      · exact .throw rfl
      · simp only [Term.standard, TermShape.standard, Symbol.same_standard]
        exact .ite (.bind (Term.alike_standard left left')
          (Term.alike_standard right right')) (.throw rfl)
      · exact .throw rfl

theorem Term.alike_standardAll (patterns concretes : List Term) :
    (Term.matchAll patterns concretes).Alike
      (Term.matchAll (Term.standardAll patterns) (Term.standardAll concretes)) := by
  match patterns, concretes with
  | pattern :: patterns, concrete :: concretes =>
      exact .bind (Term.alike_standard pattern concrete)
        (Term.alike_standardAll patterns concretes)
  | [], _ | _ :: _, [] => exact .pure

end

mutual

/-- A match of formulas is alike to the match of their standard forms. -/
theorem Formula.alike_standard (pattern concrete : Formula) :
    (pattern.matchAgainst concrete).Alike
      (pattern.standard.matchAgainst concrete.standard) := by
  match pattern with
  | .plain shape => exact FormulaShape.alike_standard shape concrete
  | .transformed shape transform =>
      cases concrete with
      | transformed shape' transform' =>
          exact .bind (FormulaShape.alike_standard shape (.plain shape'))
            (.bind (Term.alike_standard _ _) (Term.alike_standard _ _))
      | plain shape' =>
          have compared := Matching.Alike.comparison
            (Expression.same_of_standard (.formula (.transformed shape transform)))
            (Expression.same_of_standard (.formula (.plain shape')))
          exact compared

theorem FormulaShape.alike_standard (pattern : FormulaShape) (concrete : Formula) :
    (pattern.matchAgainst concrete).Alike
      (pattern.standard.matchAgainst concrete.standard) := by
  have concretes := Expression.same_of_standard (.formula concrete)
  rw [FormulaShape.matchAgainst.eq_def, FormulaShape.matchAgainst.eq_def]
  match pattern with
  | .leaf kind symbol =>
      simp only [FormulaShape.standard]
      cases kind.family? with
      | some family =>
          exact Metavariable.alike_meet (Metavariable.same_written family symbol [])
            concretes
      | none =>
          rcases concrete with (_ | _ | _ | _ | _ | _ | _) | _
          case plain.leaf =>
            simp only [Formula.standard, FormulaShape.standard,
              Symbol.same_standard]
            exact .ite .pure (.throw rfl)
          all_goals exact .throw rfl
  | .complexMeta symbol params _ =>
      have meets := Metavariable.alike_meet
        (Metavariable.same_written .complexFormula symbol params) concretes
      rcases concrete with (_ | _ | _ | ⟨symbol', args⟩ | _ | _ | _) | _
      case plain.complexMeta =>
        simp only [Formula.standard, FormulaShape.standard, Symbol.same_standard,
          Term.length_standardAll]
        split
        · exact .bind (Term.alike_standardAll params args) meets
        · exact meets
      all_goals exact meets
  | .relation symbol args =>
      rcases concrete with (_ | ⟨symbol', args'⟩ | _ | _ | _ | _ | _) | _
      case plain.relation =>
        simp only [Formula.standard, FormulaShape.standard, Symbol.same_standard,
          Term.length_standardAll]
        exact .ite (Term.alike_standardAll args args') (.throw rfl)
      all_goals exact .throw rfl
  | .comparison symbol left right _ =>
      rcases concrete with (_ | _ | ⟨symbol', left', right'⟩ | _ | _ | _ | _) | _
      case plain.comparison =>
        simp only [Formula.standard, FormulaShape.standard, Symbol.same_standard]
        exact .ite (.bind (left.alike_standard left') (right.alike_standard right'))
          (.throw rfl)
      all_goals exact .throw rfl
  | .negation symbol operand =>
      rcases concrete with (_ | _ | _ | _ | ⟨symbol', operand'⟩ | _ | _) | _
      case plain.negation =>
        simp only [Formula.standard, FormulaShape.standard, Symbol.same_standard]
        exact .ite (Formula.alike_standard operand operand') (.throw rfl)
      all_goals exact .throw rfl
  | .binary symbol connective left right _ =>
      rcases concrete with
        (_ | _ | _ | _ | _ | ⟨symbol', connective', left', right'⟩ | _) | _
      case plain.binary =>
        simp only [Formula.standard, FormulaShape.standard, Symbol.same_standard]
        exact .ite (.bind (Formula.alike_standard left left')
          (Formula.alike_standard right right')) (.throw rfl)
      all_goals exact .throw rfl
  | .quantified symbol quantifier boundVariable restriction scope =>
      rcases concrete with
        (_ | _ | _ | _ | _ | _ |
          ⟨symbol', quantifier', boundVariable', restriction', scope'⟩) | _
      case plain.quantified =>
        simp only [Formula.standard, FormulaShape.standard, Symbol.same_standard]
        have scopes := Formula.alike_standard scope scope'
        refine .ite (.bind (.widening ?_ _ _ _ _) scopes) (.bind (.throw rfl) scopes)
        exact .bind (boundVariable.alike_standard boundVariable')
          (Restriction.alike_standard restriction restriction' (.throw rfl))
      all_goals exact .throw rfl

/-- A match of restrictions is alike to the match of their standard forms. -/
theorem Restriction.alike_standard
    (pattern concrete : Restriction)
    {mismatch mismatch' : Matching Unit}
    (alike : mismatch.Alike mismatch') :
    (pattern.matchAgainst concrete mismatch).Alike
      (pattern.standard.matchAgainst concrete.standard mismatch') := by
  rw [Restriction.matchAgainst.eq_def, Restriction.matchAgainst.eq_def]
  match pattern, concrete with
  | .unrestricted, .unrestricted => exact .pure
  | .bounded relation bound _, .bounded relation' bound' _ =>
      simp only [Restriction.standard, Symbol.same_standard]
      exact .ite (bound.alike_standard bound') alike
  | .restricted divider formula _, .restricted divider' formula' _ =>
      simp only [Restriction.standard, Symbol.same_standard]
      exact .ite (Formula.alike_standard formula formula') alike
  | .unrestricted, .bounded .. | .unrestricted, .restricted ..
  | .bounded .., .unrestricted | .bounded .., .restricted ..
  | .restricted .., .unrestricted | .restricted .., .bounded .. => exact alike

end

/-- Formulas that are the same match alike. -/
theorem Formula.matchAgainst_alike
    {pattern pattern' concrete concrete' : Formula}
    (patterns : pattern.same pattern' = true)
    (concretes : concrete.same concrete' = true) :
    (pattern.matchAgainst concrete).Alike (pattern'.matchAgainst concrete') := by
  have standard := pattern.alike_standard concrete
  rw [(Formula.same_iff _ _).mp patterns, (Formula.same_iff _ _).mp concretes]
    at standard
  exact standard.trans (pattern'.alike_standard concrete').symm

namespace Session

/-- Formulas, terms and sessions that are the same cannot be told apart. Matching
ends alike and leaves sessions that are alike; instantiating, resolving and
substituting give what is the same; and formulas that are the same have the same
level and the same operands, and are both basic or schematic, or neither is. -/
theorem presentation_immaterial
    {pattern pattern' concrete concrete' : Formula}
    {target target' replacement replacement' : Term}
    {session session' : Session}
    (patterns : pattern.same pattern' = true)
    (concretes : concrete.same concrete' = true)
    (targets : target.same target' = true)
    (replacements : replacement.same replacement' = true)
    (sessions : session.Alike session') :
    EndAlike ((pattern.matchAgainst concrete).runFrom session)
        ((pattern'.matchAgainst concrete').runFrom session') ∧
      (session.instantiateFormula pattern).same
        (session'.instantiateFormula pattern') = true ∧
      (session.resolveFormula pattern).same
        (session'.resolveFormula pattern') = true ∧
      (pattern.substitute target replacement).same
        (pattern'.substitute target' replacement') = true ∧
      pattern.level = pattern'.level ∧
      pattern.isBasic = pattern'.isBasic ∧
      List.Forall₂ (fun operand operand' => operand.same operand' = true)
        pattern.shape.operands pattern'.shape.operands ∧
      pattern.isSchematic = pattern'.isSchematic := by
  have same : (Expression.formula pattern).same (.formula pattern') = true := patterns
  have standard : pattern.standard = pattern'.standard :=
    (Formula.same_iff _ _).mp patterns
  refine ⟨Formula.matchAgainst_alike patterns concretes session session' sessions,
    Expression.same_readBy sessions.instantiate same,
    Expression.same_readBy sessions.resolve same, ?_, ?_,
    Formula.isBasic_eq_of_same patterns, ?_, ?_⟩
  · rw [Term.same_iff] at targets replacements
    rw [Formula.same_iff, Formula.standard_substitute,
      Formula.standard_substitute, standard, targets, replacements]
  · rw [← pattern.level_standard, standard, Formula.level_standard]
  · have operands := congrArg (fun formula => formula.shape.operands) standard
    simp only [Formula.shape_standard, FormulaShape.operands_standard] at operands
    rw [← List.forall₂_eq_eq_eq, List.forall₂_map_left_iff,
      List.forall₂_map_right_iff] at operands
    exact operands.imp fun _ _ => (Formula.same_iff _ _).mpr
  · rw [← pattern.isSchematic_standard, standard, Formula.isSchematic_standard]

/-- A metavariable that is bound to `(P ∧ Q)` cannot match `(P ∧ P)`, nor one that is
bound to `[P ∧ Q]` match `[P ∧ P]`. -/
theorem presentation_immaterial_conflict :
    let letter (text : String) : Formula := .leaf .letter ⟨text, .sentenceLetter⟩
    let both (left right : Formula) (brackets : Option Brackets) : Formula :=
      .plain (.binary ⟨"∧", .connective⟩ .conjunction left right brackets)
    let key : Metavariable := ⟨.formula, ⟨"A", .formulaMeta⟩, []⟩
    let session (brackets : Brackets) : Session :=
      (empty.register key).assign key
        (.formula (both (letter "P") (letter "Q") (some brackets)))
    let pattern : Formula := .leaf .formulaMeta ⟨"A", .formulaMeta⟩
    let matched (brackets : Brackets) : Except MatchError Unit × Session :=
      (pattern.matchAgainst
        (both (letter "P") (letter "P") (some brackets))).runFrom (session brackets)
    (matched .round).1.mapError MatchError.kind = .error .variableConflict ∧
      (matched .square).1.mapError MatchError.kind =
        .error .variableConflict := by
  intro letter both key session pattern matched
  have conflict : (matched .round).1.mapError MatchError.kind =
      .error .variableConflict := rfl
  have sessions : (session .round).Alike (session .square) :=
    ((Alike.refl empty).register rfl).assign rfl rfl
  have concretes : (both (letter "P") (letter "P") (some .round)).same
      (both (letter "P") (letter "P") (some .square)) = true := rfl
  obtain ⟨ends, -⟩ := presentation_immaterial pattern.same_refl concretes
    (Term.leaf .constant ⟨"a", .constant⟩).same_refl
    (Term.leaf .constant ⟨"a", .constant⟩).same_refl sessions
  exact ⟨conflict, ends.outcomes.symm.trans conflict⟩

end Session
end SymbolicLogic
