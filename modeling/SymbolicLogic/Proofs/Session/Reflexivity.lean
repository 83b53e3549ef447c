import SymbolicLogic.Proofs.Expression.Metavariables
import SymbolicLogic.Proofs.Session.Alike

/-!
# Matching an expression with itself

An expression matches itself. Its metavariables are bound to themselves on the way, as
they are written at one place or another, and as long as this is so, all its parts are
instantiated to themselves. So the parameters of a metavariable lead to the key that the
metavariable is, and a value that the key has already is the metavariable again. Only
metavariables for variables and those that are written as a formula and as a term do not
stand for themselves.
-/

namespace SymbolicLogic

open Session Matching

namespace Expression

/-- The expression is a node of the whole, with the substitution taken off that is
pending there. -/
def IsWrittenIn (expression whole : Expression) : Prop :=
  ∃ node : Expression, node.IsWithin whole ∧ node.withoutTransform = expression

/-- Every node of the expression is one of the whole, apart from the substitutions. -/
def IsMadeFrom (expression whole : Expression) : Prop :=
  expression.Throughout fun node => node.withoutTransform.IsWrittenIn whole

/-- Each metavariable of the expression may stand for itself. -/
structure IsUniform (expression : Expression) : Prop where
  /-- No metavariable is for variables. -/
  noVariables :
    expression.Throughout fun node => ∀ metavariable,
      node.metaNode? = some metavariable ->
        metavariable.family ≠ .objectVariable
  /-- No metavariable that is for expressions of either sort is written as a formula and
  as a term. -/
  sorts {left right : Expression} {metavariable metavariable' : Metavariable} :
    left.IsWithin expression -> right.IsWithin expression ->
    left.metaNode? = some metavariable ->
    right.metaNode? = some metavariable' ->
    metavariable.same metavariable' = true ->
    metavariable.family = .anyExpression ->
      left.isSentence = right.isSentence

variable {expression whole left right : Expression}
  {metavariable metavariable' : Metavariable}

theorem isMadeFrom_self (expression : Expression) :
    expression.IsMadeFrom expression :=
  fun node within => ⟨node, within, rfl⟩

/-- The carrier of what is made from an expression is made from it too. -/
theorem IsMadeFrom.withoutTransform
    (made : expression.IsMadeFrom whole) :
    expression.withoutTransform.IsMadeFrom whole := by
  refine Throughout.withoutTransform made ?_
  rw [withoutTransform_of_plain transform?_withoutTransform]
  exact made expression .whole

/-- A plain node that is made from an expression is written in it. -/
theorem IsMadeFrom.isWrittenIn
    (made : expression.IsMadeFrom whole)
    (plain : expression.transform? = none) : expression.IsWrittenIn whole := by
  have written : expression.withoutTransform.IsWrittenIn whole :=
    made expression .whole
  rwa [withoutTransform_of_plain plain] at written

/-- A metavariable that is written in an expression is one of its nodes, of the same sort.
-/
theorem IsWrittenIn.exists_metaNode?
    (written : expression.IsWrittenIn whole)
    (writes : expression.Writes metavariable) :
    ∃ node : Expression, node.IsWithin whole ∧
      node.metaNode? = some metavariable ∧
      node.isSentence = expression.isSentence := by
  obtain ⟨node, within, rfl⟩ := written
  refine ⟨node, within, ?_, isSentence_withoutTransform.symm⟩
  rw [← metaNode?_withoutTransform]
  exact writes.metaNode?_eq

namespace IsUniform

variable (uniform : whole.IsUniform)

include uniform

/-- A metavariable accepts itself as its value, as it is written. -/
theorem accepts
    (written : expression.IsWrittenIn whole)
    (writes : expression.Writes metavariable) :
    metavariable.family.accepts expression = true := by
  obtain ⟨node, within, isMetavariable, -⟩ := written.exists_metaNode? writes
  exact writes.accepts (uniform.noVariables node within metavariable isMetavariable)

/-- Occurrences of one metavariable are the same. -/
theorem same
    (written : left.IsWrittenIn whole)
    (written' : right.IsWrittenIn whole)
    (writes : left.Writes metavariable)
    (writes' : right.Writes metavariable')
    (same : metavariable.same metavariable' = true) : left.same right = true := by
  refine writes.same_of_same writes' same ?_
  have accepts := uniform.accepts written writes
  rw [((Metavariable.same_iff _ _).mp same).1] at accepts
  refine writes'.isSentence_eq accepts fun any => ?_
  obtain ⟨node, within, isMetavariable, sort⟩ := written.exists_metaNode? writes
  obtain ⟨node', within', isMetavariable', sort'⟩ := written'.exists_metaNode? writes'
  rw [← ((Metavariable.same_iff _ _).mp same).1] at any
  rw [← sort, ← sort']
  exact uniform.sorts within within' isMetavariable isMetavariable' same any

end IsUniform

/-- It is enough that all metavariables for expressions of either sort are written with
one sort. -/
theorem IsUniform.of_sort
    {sort : Bool}
    (throughout : expression.Throughout fun node => ∀ metavariable,
      node.metaNode? = some metavariable ->
        metavariable.family ≠ .objectVariable ∧
          (metavariable.family = .anyExpression -> node.isSentence = sort)) :
    expression.IsUniform where
  noVariables node within metavariable isMetavariable :=
    (throughout node within metavariable isMetavariable).1
  sorts {left right metavariable metavariable'} within within' isMetavariable
      isMetavariable' same any := by
    have any' := ((Metavariable.same_iff _ _).mp same).1.symm.trans any
    calc
      left.isSentence
      _ = sort := (throughout left within metavariable isMetavariable).2 any
      _ = right.isSentence :=
        ((throughout right within' metavariable' isMetavariable').2 any').symm

end Expression

/-- Every value is the metavariable that it is the value of, in the way in which that is
written in the expression. -/
def Session.BindsAsWritten (session : Session) (whole : Expression) : Prop :=
  session.EachValue fun key value =>
    value.IsWrittenIn whole ∧
      ∃ metavariable, value.Writes metavariable ∧ metavariable.same key = true

namespace Expression

variable {expression whole : Expression} {metavariable : Metavariable}
  {session before after : Session}

/-- The key of a metavariable whose parameters come out as themselves is the metavariable
itself. -/
theorem same_key
    (writes : expression.Writes metavariable)
    (parts : ∀ part ∈ expression.children,
      (part.readBy (.instantiate session)).same part = true) :
    (session.key metavariable.family metavariable.symbol metavariable.params).same
      metavariable = true := by
  rw [writes.children_eq, List.forall_mem_map] at parts
  refine (Metavariable.same_iff_parts _ _).mpr ⟨rfl, rfl, ?_⟩
  rw [key, Term.readAllBy_eq_map, List.forall₂_map_left_iff, List.forall₂_same]
  exact parts

/-- As long as metavariables stand for themselves, every expression is instantiated to
itself. -/
theorem same_instantiate
    (binds : session.BindsAsWritten whole)
    (expression : Expression) :
    (expression.readBy (.instantiate session)).same expression = true := by
  induction expression using nodeInduction with
  | plain expression plain inductionHypothesis =>
      cases isMetavariable : expression.metaNode? with
      | none =>
          obtain ⟨readPlain, readHead, readParts⟩ :=
            readBy_parts (.instantiate session) plain isMetavariable
          refine (same_iff_parts readPlain plain).mpr ⟨readHead, ?_⟩
          rw [readParts, List.forall₂_map_left_iff, List.forall₂_same]
          exact inductionHypothesis
      | some metavariable =>
          have writes := writes_of_metaNode? plain isMetavariable
          have keys := same_key writes inductionHypothesis
          rcases meaning_or_keeps (.instantiate session) plain with
            ⟨other, isOther, meaning⟩ | keeps
          · cases isMetavariable.symm.trans isOther
            have bound : session.value? (session.key metavariable.family
                metavariable.symbol metavariable.params) = _ := meaning
            obtain ⟨key, keys', -, metavariable', writes', same⟩ :=
              EachValue.of_value? binds bound
            rw [Metavariable.same_congr keys', Metavariable.same_congr keys] at same
            exact writes'.same_of_same writes same (isSentence_readBy _ _)
          · exact (writes.writes_readBy keeps).same_of_same writes keys
              (isSentence_readBy _ _)
  | transformed expression transform pending carrier target replacement =>
      have transforms :
          (transform.readBy (.instantiate session)).same transform = true :=
        Bool.and_eq_true_iff.mpr ⟨target, replacement⟩
      have attached :=
        (Alike.refl session).instantiate.attach _ _ _ _ carrier transforms
      rw [Reading.attach_instantiate, Reading.attach_instantiate,
        withTransform_withoutTransform pending] at attached
      rw [readBy_of_pending pending, Reading.attach_instantiate]
      exact attached

/-- A metavariable of the whole can be bound to itself once its parameters are known. -/
theorem exists_bound_self
    (uniform : whole.IsUniform)
    (binds : before.BindsAsWritten whole)
    (written : expression.IsWrittenIn whole)
    (writes : expression.Writes metavariable)
    (params : ∀ part ∈ expression.children, part.unbound? before = none) :
    ∃ after, metavariable.Bound expression (before.enter metavariable) after ∧
      after.BindsAsWritten whole := by
  have keys := same_key writes fun part _ => same_instantiate binds part
  generalize keyEq : before.key metavariable.family metavariable.symbol
    metavariable.params = key at keys
  have known : before.resolvedKey metavariable = .ok key := by
    rw [writes.children_eq, ← unboundAmong?_eq_none_iff] at params
    exact resolvedKey_eq_ok.mpr ⟨params, keyEq⟩
  have enterEq : before.enter metavariable = before.register key := by
    rw [enter, known]
  have accepts := uniform.accepts written writes
  have known' : (before.enter metavariable).resolvedKey metavariable = .ok key :=
    (metavariable.growsTo_enter before).preserves.resolvedKey_eq_ok known
  have entered : (before.enter metavariable).BindsAsWritten whole :=
    enterEq ▸ EachValue.register binds key
  cases found : (before.enter metavariable).value? key with
  | some existing =>
      obtain ⟨other, keys', written', metavariable', writes', same⟩ :=
        EachValue.of_value? entered found
      rw [Metavariable.same_congr keys', Metavariable.same_congr keys] at same
      exact ⟨_, .found accepts known' found
        (uniform.same written' written writes' writes same), entered⟩
  | none =>
      refine ⟨_, .entered accepts known' found, ?_⟩
      refine EachValue.assign (EachValue.register entered key) fun other same => ?_
      refine ⟨written, metavariable, writes, ?_⟩
      rw [Metavariable.same_congr same, Metavariable.same_comm]
      exact keys

/-- A metavariable matches itself by its parameters first, and is then met. -/
theorem succeeds_self_iff (writes : expression.Writes metavariable) :
    (expression.matchPart expression).Succeeds before after ↔
      ∃ middle, Walks expression.children expression.children before middle ∧
        metavariable.Bound expression (middle.enter metavariable) after := by
  rw [writes.children_eq]
  simp only [walks_terms_iff, true_and, ← Metavariable.succeeds_meet_iff]
  rw [← succeeds_bind]
  cases writes with
  | formulaLeaf symbol familyEq =>
      simp [matchPart, Formula.matchAgainst, FormulaShape.matchAgainst, familyEq,
        Term.matchAll]
  | termLeaf symbol familyEq =>
      simp [matchPart, Term.matchAgainst, TermShape.matchAgainst, familyEq,
        Term.matchAll]
  | complexFormula symbol params brackets =>
      simp [matchPart, Formula.matchAgainst, FormulaShape.matchAgainst]
  | complexTerm symbol params brackets =>
      simp [matchPart, Term.matchAgainst, TermShape.matchAgainst]

/-- What the whole is made from matches itself, and metavariables stand for themselves
as before. -/
theorem exists_succeeds_self
    (uniform : whole.IsUniform)
    (made : expression.IsMadeFrom whole)
    (binds : before.BindsAsWritten whole) :
    ∃ after, (expression.matchPart expression).Succeeds before after ∧
      after.BindsAsWritten whole := by
  induction expression using nodeInduction generalizing before with
  | plain expression plain inductionHypothesis =>
      have each : List.Forall₂ (fun part part' =>
          ∀ before, Session.BindsAsWritten before whole ->
            ∃ after, (part.matchPart part').Succeeds before after ∧
              Session.BindsAsWritten after whole)
          expression.children expression.children :=
        List.forall₂_same.mpr fun part member before binds =>
          inductionHypothesis part member (Throughout.part made member) binds
      obtain ⟨middle, walks, binds⟩ := Walks.exists_of_forall₂ each binds
      cases isMetavariable : expression.metaNode? with
      | none =>
          exact ⟨middle, (succeeds_iff_parts plain isMetavariable).mpr
            ⟨plain, rfl, walks⟩, binds⟩
      | some metavariable =>
          have writes := writes_of_metaNode? plain isMetavariable
          have fits : List.Forall₂ (fun part part' => Fits part part' middle)
              expression.children expression.children :=
            walks.forall₂ Fits.of_extends fun _ _ => fits_of_succeeds
          obtain ⟨after, bound, binds⟩ := exists_bound_self uniform binds
            (made.isWrittenIn plain) writes
            fun part member => (List.forall₂_same.mp fits part member).bound
          exact ⟨after, (succeeds_self_iff writes).mpr ⟨middle, walks, bound⟩, binds⟩
  | transformed expression transform pending carrier target replacement =>
      obtain ⟨first, carriers, binds⟩ := carrier made.withoutTransform binds
      obtain ⟨second, targets, binds⟩ :=
        target (Throughout.target made pending) binds
      obtain ⟨after, replacements, binds⟩ :=
        replacement (Throughout.replacement made pending) binds
      exact ⟨after, (succeeds_iff_of_transformed pending pending).mpr
        ⟨first, second, carriers, targets, replacements⟩, binds⟩

end Expression

namespace Session

/-- On a new session, a formula matches itself if no metavariable in it is for variables
and none is written as a formula and as a term. Then all its metavariables have values,
every value is the metavariable itself as it is written in the formula, and the formula
is instantiated to itself. -/
theorem matchAgainst_self
    (formula : Formula)
    (uniform : (Expression.formula formula).IsUniform) :
    ∃ after, (formula.matchAgainst formula).Succeeds empty after ∧
      formula.unbound? after = none ∧
      after.BindsAsWritten (.formula formula) ∧
      (after.instantiateFormula formula).same formula = true := by
  have made := (Expression.formula formula).isMadeFrom_self
  obtain ⟨after, succeeds, binds⟩ :=
    Expression.exists_succeeds_self uniform made EachValue.empty
  have bound := (Expression.fits_of_succeeds succeeds).bound
  have instantiated := Expression.same_instantiate binds (.formula formula)
  exact ⟨after, succeeds, bound, binds, instantiated⟩

/-- In `A(u(t)) ∧ G`, where `a` is put for `x` in the parameter `u(t)` of `A`, all four
metavariables are bound to themselves. -/
theorem matchAgainst_self_parameter :
    let t : Term := .leaf .termMeta ⟨"t", .termMeta⟩
    let x : Term := .leaf .objectVariable ⟨"x", .objectVariable⟩
    let a : Term := .leaf .constant ⟨"a", .constant⟩
    let carrier : TermShape := .apply .complexMeta ⟨"u", .termMeta⟩ [t] .round
    let param : Term := .transformed carrier x a false
    let schema : Formula :=
      .plain (.complexMeta ⟨"A", .formulaMeta⟩ [param] .round)
    let any : Formula := .leaf .anyMeta ⟨"G", .anyMeta⟩
    let formula : Formula :=
      .plain (.binary ⟨"∧", .connective⟩ .conjunction schema any none)
    let after := empty.perform (.matchFormula formula formula)
    (Expression.formula formula).IsUniform ∧
      (formula.matchAgainst formula).Succeeds empty after ∧
      after.boundCount = 4 ∧
      formula.unbound? after = none ∧
      after.BindsAsWritten (.formula formula) ∧
      (after.instantiateFormula formula).same formula = true := by
  intro t x a carrier param schema any formula after
  let suits (node : Expression) : Prop := ∀ metavariable,
    node.metaNode? = some metavariable ->
      metavariable.family ≠ .objectVariable ∧
        (metavariable.family = .anyExpression -> node.isSentence = true)
  have parameter : (Expression.term t).Throughout suits := by
    refine .of_parts rfl ?_ nofun
    rintro _ ⟨⟩
    exact ⟨nofun, nofun⟩
  have applied : suits (.term (.plain carrier)) := by
    rintro _ ⟨⟩
    exact ⟨nofun, nofun⟩
  have argument : (Expression.term param).Throughout suits :=
    .of_transformed rfl applied
      (.of_parts rfl applied (List.forall_mem_singleton.mpr parameter))
      (.of_parts rfl nofun nofun) (.of_parts rfl nofun nofun)
  have left : (Expression.formula schema).Throughout suits := by
    refine .of_parts rfl ?_ (List.forall_mem_singleton.mpr argument)
    rintro _ ⟨⟩
    exact ⟨nofun, nofun⟩
  have right : (Expression.formula any).Throughout suits := by
    refine .of_parts rfl ?_ nofun
    rintro _ ⟨⟩
    exact ⟨nofun, fun _ => rfl⟩
  have uniform : (Expression.formula formula).IsUniform :=
    .of_sort (.of_parts rfl nofun
      (List.forall_mem_cons.mpr ⟨left, List.forall_mem_singleton.mpr right⟩))
  obtain ⟨after', succeeds, others⟩ := matchAgainst_self formula uniform
  have same : after = after' := congrArg Prod.snd succeeds
  rw [← same] at succeeds others
  have count : after.boundCount = 4 := by decide +kernel
  exact ⟨uniform, succeeds, count, others⟩

end Session
end SymbolicLogic
