import SymbolicLogic.Proofs.Expression.Congruence
import SymbolicLogic.Proofs.Outcome
import SymbolicLogic.Proofs.Session.Walk

/-!
# Matching is sound

After a pattern has matched an expression, all its metavariables have values.
Reading the pattern with these values and carrying out the substitutions gives the
expression with its own substitutions carried out; and if the pattern has no
substitutions, putting the values in their places gives the expression itself.
Values are for good, so what was matched first still fits when the last part has
been matched.
-/

namespace SymbolicLogic

open Session Matching

namespace Expression

variable {expression : Expression} {session before after : Session}

/-- An ordinary plain node is bound exactly if its parts are. -/
theorem unbound?_eq_none_iff_parts
    (plain : expression.transform? = none)
    (ordinary : expression.metaNode? = none) :
    expression.unbound? session = none ↔
      ∀ part ∈ expression.children, part.unbound? session = none := by
  match expression with
  | .formula (.plain shape) =>
      cases shape with
      | leaf kind =>
          cases kind <;> cases ordinary
          exact iff_of_true rfl (List.forall_mem_nil _)
      | relation symbol args =>
          rw [unbound?, Formula.unbound?, FormulaShape.unbound?,
            Term.unboundAmong?_eq_findSome?, List.findSome?_eq_none_iff, children,
            Formula.shape, FormulaShape.children, List.forall_mem_map]
          rfl
      | complexMeta => cases ordinary
      | comparison | negation | binary =>
          simp [children, FormulaShape.children, unbound?, Formula.unbound?,
            FormulaShape.unbound?]
      | quantified symbol quantifier boundVariable restriction scope =>
          cases restriction <;>
            simp [children, FormulaShape.children,
              FormulaShape.restrictionChildren, unbound?, Formula.unbound?,
              FormulaShape.unbound?, Restriction.unbound?]
  | .term (.plain shape) =>
      cases shape with
      | leaf kind =>
          cases kind <;> cases ordinary <;>
            exact iff_of_true rfl (List.forall_mem_nil _)
      | apply head symbol args =>
          cases head with
          | complexMeta => cases ordinary
          | function =>
              rw [unbound?, Term.unbound?, TermShape.unbound?,
                Term.unboundAmong?_eq_findSome?, List.findSome?_eq_none_iff,
                children, Term.shape, TermShape.children, List.forall_mem_map]
              rfl
      | operation =>
          simp [children, TermShape.children, unbound?, Term.unbound?,
            TermShape.unbound?]

/-- A metavariable has a value when its parameters are known and its key has one. -/
theorem unbound?_eq_none_iff_value
    {metavariable : Metavariable}
    (writes : expression.Writes metavariable) :
    expression.unbound? session = none ↔
      Term.unboundAmong? metavariable.params session = none ∧
        (session.value? (session.key metavariable.family metavariable.symbol
          metavariable.params)).isSome = true := by
  rw [Option.isSome_iff_ne_none]
  cases writes with
  | formulaLeaf symbol familyEq =>
      simp [unbound?, Formula.unbound?, FormulaShape.unbound?, familyEq,
        Term.unboundAmong?]
  | termLeaf symbol familyEq =>
      simp [unbound?, Term.unbound?, TermShape.unbound?, familyEq,
        Term.unboundAmong?]
  | complexFormula => simp [unbound?, Formula.unbound?, FormulaShape.unbound?]
  | complexTerm => simp [unbound?, Term.unbound?, TermShape.unbound?]

/-- A metavariable that has a value is bound. -/
theorem unbound?_eq_none_of_get?
    {metavariable : Metavariable}
    {value : Expression}
    (plain : expression.transform? = none)
    (isMetavariable : expression.metaNode? = some metavariable)
    (found : session.get? metavariable = some value) :
    expression.unbound? session = none := by
  obtain ⟨key, known, valueEq⟩ := get?_eq_some.mp found
  obtain ⟨params, rfl⟩ := resolvedKey_eq_ok.mp known
  rw [unbound?_eq_none_iff_value (writes_of_metaNode? plain isMetavariable),
    valueEq]
  exact ⟨params, rfl⟩

/-- A metavariable with a value is read as this value, if it is of its sort. -/
theorem readBy_of_get?
    {metavariable : Metavariable}
    {value : Expression}
    (plain : expression.transform? = none)
    (isMetavariable : expression.metaNode? = some metavariable)
    (found : session.get? metavariable = some value)
    (sort : value.isSentence = expression.isSentence) :
    expression.readBy (.instantiate session) = value ∧
      expression.readBy (.resolve session) = value.carryOut := by
  obtain ⟨key, known, valueEq⟩ := get?_eq_some.mp found
  obtain ⟨-, rfl⟩ := resolvedKey_eq_ok.mp known
  constructor
  · exact readBy_of_meaning _ plain isMetavariable valueEq sort
  · refine readBy_of_meaning _ plain isMetavariable ?_ ?_
    · simp [valueEq]
    · rw [← sort]
      cases value <;> rfl

/-- In the session the pattern reads as the concrete expression does. -/
structure Fits (pattern concrete : Expression) (session : Session) : Prop where
  /-- Every metavariable has a value. -/
  bound : pattern.unbound? session = none
  /-- With substitutions carried out, the two are the same. -/
  resolved :
    (pattern.readBy (.resolve session)).same concrete.carryOut = true
  /-- Without substitutions, they are the same as they stand. -/
  instantiated :
    (pattern.Everywhere fun node => node.transform? = none) ->
      (pattern.readBy (.instantiate session)).same concrete = true

variable {pattern concrete : Expression}

/-- What is fitted stays fitted when the session becomes larger. -/
theorem Fits.of_extends
    (fits : pattern.Fits concrete before)
    (larger : before.Extends after) : pattern.Fits concrete after := by
  obtain ⟨unbound, instantiated, resolved⟩ :=
    readBy_of_extends larger fits.bound
  refine ⟨unbound, ?_, ?_⟩
  · rw [resolved]
    exact fits.resolved
  · rw [instantiated]
    exact fits.instantiated

/-- A metavariable fits what is the same as its value. -/
theorem fits_of_get?
    {metavariable : Metavariable}
    {value : Expression}
    (plain : pattern.transform? = none)
    (isMetavariable : pattern.metaNode? = some metavariable)
    (found : session.get? metavariable = some value)
    (same : value.same concrete = true)
    (sorts : pattern.isSentence = concrete.isSentence) :
    pattern.Fits concrete session := by
  have sort : value.isSentence = pattern.isSentence :=
    (isSentence_eq_of_same same).trans sorts.symm
  obtain ⟨instantiated, resolved⟩ :=
    readBy_of_get? plain isMetavariable found sort
  refine ⟨unbound?_eq_none_of_get? plain isMetavariable found, ?_, fun _ => ?_⟩
  · rw [resolved]
    exact same_carryOut same
  · rw [instantiated]
    exact same

/-- A metavariable fits the expression it was bound to. -/
theorem fits_of_metavariable
    {metavariable : Metavariable}
    (plain : pattern.transform? = none)
    (isMetavariable : pattern.metaNode? = some metavariable)
    (succeeds : (pattern.matchPart concrete).Succeeds before after) :
    pattern.Fits concrete after := by
  obtain ⟨sorts, middle, bound⟩ :=
    exists_bound_of_succeeds plain isMetavariable succeeds
  obtain ⟨value, found, same⟩ := bound.exists_get?
  exact fits_of_get? plain isMetavariable found same sorts

/-- A node that is not a metavariable fits when its parts do. -/
theorem fits_of_parts
    (plain : pattern.transform? = none)
    (ordinary : pattern.metaNode? = none)
    (plain' : concrete.transform? = none)
    (heads : pattern.head = concrete.head)
    (parts : List.Forall₂ (fun pattern concrete => Fits pattern concrete after)
      pattern.children concrete.children) :
    pattern.Fits concrete after := by
  have ordinary' := metaNode?_eq_none_of_head heads ordinary
  refine ⟨(unbound?_eq_none_iff_parts plain ordinary).mpr ?_, ?_, fun simple => ?_⟩
  · intro part member
    obtain ⟨_, _, fits⟩ := exists_of_mem_of_forall₂ parts.flip member
    exact fits.bound
  · obtain ⟨resolvedPlain, resolvedHead, resolvedParts⟩ :=
      readBy_parts (.resolve after) plain ordinary
    obtain ⟨carriedPlain, carriedHead, carriedParts⟩ :=
      readBy_parts .carryOut plain' ordinary'
    refine (same_iff_parts resolvedPlain carriedPlain).mpr
      ⟨resolvedHead.trans (heads.trans carriedHead.symm), ?_⟩
    rw [resolvedParts, carriedParts, List.forall₂_map_left_iff,
      List.forall₂_map_right_iff]
    exact parts.imp fun _ _ fits => fits.resolved
  · obtain ⟨readPlain, readHead, readParts⟩ :=
      readBy_parts (.instantiate after) plain ordinary
    refine (same_iff_parts readPlain plain').mpr ⟨readHead.trans heads, ?_⟩
    rw [readParts, List.forall₂_map_left_iff]
    refine ((List.forall₂_and_left _ _).mpr
      ⟨fun _ member => simple.part member, parts⟩).imp ?_
    exact fun _ _ ⟨simple, fits⟩ => fits.instantiated simple

/-- A pattern with a substitution fits an expression with one when both the
carriers and the substitutions do. -/
theorem fits_of_transformed
    {transform transform' : Transform}
    (pending : pattern.transform? = some transform)
    (pending' : concrete.transform? = some transform')
    (carriers : pattern.withoutTransform.Fits concrete.withoutTransform after)
    (targets : Fits (.term transform.target) (.term transform'.target) after)
    (replacements :
      Fits (.term transform.replacement) (.term transform'.replacement) after) :
    pattern.Fits concrete after := by
  have bound : transform.unbound? after = none :=
    (Option.orElse_eq_none _ _).mpr ⟨targets.bound, replacements.bound⟩
  have transforms :
      (transform.readBy (.resolve after)).standard =
        (transform'.readBy .carryOut).standard :=
    (Transform.same_iff _ _).mp
      (Bool.and_eq_true_iff.mpr ⟨targets.resolved, replacements.resolved⟩)
  match pattern with
  | .formula (.plain _) | .term (.plain _) => cases pending
  | .formula (.transformed shape _) =>
      cases pending
      cases concrete with
      | term => cases carriers.resolved
      | formula concrete =>
          cases concrete with
          | plain => cases pending'
          | transformed shape' =>
              cases pending'
              refine ⟨(Option.orElse_eq_none _ _).mpr ⟨carriers.bound, bound⟩, ?_,
                fun simple => ?_⟩
              · refine (Formula.same_iff _ _).mpr ?_
                have carriersEq := (Formula.same_iff _ _).mp carriers.resolved
                calc
                  _ = Formula.settle _ _ := Formula.standard_settle _ _
                  _ = Formula.settle _ _ :=
                    congrArg₂ Formula.settle carriersEq transforms
                  _ = _ := (Formula.standard_settle _ _).symm
              · cases simple.whole
  | .term (.transformed shape _ _ _) =>
      cases pending
      cases concrete with
      | formula => cases carriers.resolved
      | term concrete =>
          cases concrete with
          | plain => cases pending'
          | transformed shape' =>
              cases pending'
              refine ⟨(Option.orElse_eq_none _ _).mpr ⟨carriers.bound, bound⟩, ?_,
                fun simple => ?_⟩
              · refine (Term.same_iff _ _).mpr ?_
                have carriersEq := (Term.same_iff _ _).mp carriers.resolved
                calc
                  _ = Term.settle _ _ := Term.standard_settle _ _
                  _ = Term.settle _ _ := congrArg₂ Term.settle carriersEq transforms
                  _ = _ := (Term.standard_settle _ _).symm
              · cases simple.whole

/-- A pattern with a substitution matches an expression with one part by part. -/
theorem succeeds_iff_of_transformed
    {transform transform' : Transform}
    (pending : pattern.transform? = some transform)
    (pending' : concrete.transform? = some transform') :
    (pattern.matchPart concrete).Succeeds before after ↔
      ∃ first second,
        (pattern.withoutTransform.matchPart concrete.withoutTransform).Succeeds
          before first ∧
        ((Expression.term transform.target).matchPart
          (.term transform'.target)).Succeeds first second ∧
        ((Expression.term transform.replacement).matchPart
          (.term transform'.replacement)).Succeeds second after := by
  match pattern, concrete with
  | .formula (.plain _), _ | .term (.plain _), _ => cases pending
  | _, .formula (.plain _) | _, .term (.plain _) => cases pending'
  | .formula (.transformed ..), .term (.transformed ..)
  | .term (.transformed ..), .formula (.transformed ..) =>
      exact iff_of_false not_succeeds_throw fun ⟨_, _, carriers, _⟩ =>
        not_succeeds_throw carriers
  | .formula (.transformed ..), .formula (.transformed ..) =>
      cases pending
      cases pending'
      simp only [matchPart, Formula.matchAgainst, Transform.matchAgainst,
        succeeds_bind, ← exists_and_left]
      rfl
  | .term (.transformed ..), .term (.transformed ..) =>
      cases pending
      cases pending'
      simp only [matchPart, Term.matchAgainst, succeeds_bind, ← exists_and_left]
      rfl

/-- Against an expression of its sort without one, it is compared as a whole. -/
theorem matchPart_eq_comparison
    {transform : Transform}
    (pending : pattern.transform? = some transform)
    (plain : concrete.transform? = none)
    (sorts : pattern.isSentence = concrete.isSentence) :
    pattern.matchPart concrete = comparison pattern concrete := by
  match pattern, concrete with
  | .formula (.plain _), _ | .term (.plain _), _ => cases pending
  | _, .formula (.transformed ..) | _, .term (.transformed ..) => cases plain
  | .formula (.transformed ..), .term (.plain _)
  | .term (.transformed ..), .formula (.plain _) => cases sorts
  | .formula (.transformed ..), .formula (.plain _)
  | .term (.transformed ..), .term (.plain _) => rfl

/-- Against an expression without one, it is compared once all its metavariables
have values, and nothing is bound. -/
theorem succeeds_iff_of_compared
    {transform : Transform}
    (pending : pattern.transform? = some transform)
    (plain : concrete.transform? = none) :
    (pattern.matchPart concrete).Succeeds before after ↔
      pattern.Fits concrete before ∧ after = before := by
  by_cases sorts : pattern.isSentence = concrete.isSentence
  · rw [matchPart_eq_comparison pending plain sorts, succeeds_comparison]
    refine and_congr_left fun _ => ⟨fun ⟨bound, compared⟩ => ?_, fun fits => ?_⟩
    · refine ⟨bound, compared, fun simple => ?_⟩
      rw [simple.whole] at pending
      cases pending
    · exact ⟨fits.bound, fits.resolved⟩
  · refine iff_of_false (fun succeeds => ?_) fun ⟨fits, _⟩ => ?_
    · exact sorts (isSentence_eq_of_succeeds succeeds)
    · cases pattern <;> cases concrete
      · exact sorts rfl
      · cases fits.resolved
      · cases fits.resolved
      · exact sorts rfl

/-- A pattern that has matched fits. -/
theorem fits_of_succeeds
    (succeeds : (pattern.matchPart concrete).Succeeds before after) :
    pattern.Fits concrete after := by
  induction pattern using nodeInduction generalizing concrete before after with
  | plain pattern plain inductionHypothesis =>
      cases isMetavariable : pattern.metaNode? with
      | some metavariable =>
          exact fits_of_metavariable plain isMetavariable succeeds
      | none =>
          obtain ⟨plain', heads, walks⟩ :=
            (succeeds_iff_parts plain isMetavariable).mp succeeds
          exact fits_of_parts plain isMetavariable plain' heads
            (walks.forall₂ Fits.of_extends inductionHypothesis)
  | transformed pattern transform pending carrier target replacement =>
      cases pending' : concrete.transform? with
      | none =>
          obtain ⟨fits, rfl⟩ := (succeeds_iff_of_compared pending pending').mp succeeds
          exact fits
      | some transform' =>
          obtain ⟨first, second, matched, targets, replacements⟩ :=
            (succeeds_iff_of_transformed pending pending').mp succeeds
          have carriersKept := ((growsTo_of_succeeds targets).trans
            (growsTo_of_succeeds replacements)).preserves
          have targetsKept := (growsTo_of_succeeds replacements).preserves
          exact fits_of_transformed pending pending'
            ((carrier matched).of_extends carriersKept)
            ((target targets).of_extends targetsKept) (replacement replacements)

end Expression

namespace Session

/-- From any session, a pattern that matches an expression of its sort is resolved
to the expression with its substitutions carried out. If the pattern has no
substitutions, it is instantiated to the expression itself. -/
theorem matching_sound (before after : Session) :
    (∀ pattern concrete : Formula,
      (pattern.matchAgainst concrete).Succeeds before after ->
      (after.resolveFormula pattern).same (empty.resolveFormula concrete) = true ∧
      (((Expression.formula pattern).Everywhere fun node =>
          node.transform? = none) ->
        (after.instantiateFormula pattern).same concrete = true)) ∧
    ∀ pattern concrete : Term,
      (pattern.matchAgainst concrete).Succeeds before after ->
      (after.resolveTerm pattern).same (empty.resolveTerm concrete) = true ∧
      (((Expression.term pattern).Everywhere fun node =>
          node.transform? = none) ->
        (after.instantiateTerm pattern).same concrete = true) := by
  constructor
  · intro pattern concrete succeeds
    have fits : Expression.Fits (.formula pattern) (.formula concrete) after :=
      Expression.fits_of_succeeds succeeds
    exact ⟨fits.resolved, fits.instantiated⟩
  · intro pattern concrete succeeds
    have fits : Expression.Fits (.term pattern) (.term concrete) after :=
      Expression.fits_of_succeeds succeeds
    exact ⟨fits.resolved, fits.instantiated⟩

/-- A formula metavariable that stands for `Fa` matches `Fa` and is instantiated
to it. With `b` put for `a` it matches `Fb`, and is resolved to `Fb`. -/
theorem matching_sound_substitution :
    let a : Term := .leaf .constant ⟨"a", .constant⟩
    let b : Term := .leaf .constant ⟨"b", .constant⟩
    let applied (term : Term) : Formula := .plain (.relation ⟨"F", .relation⟩ [term])
    let symbol : Symbol := ⟨"A", .formulaMeta⟩
    let key : Metavariable := ⟨.formula, symbol, []⟩
    let session := (empty.register key).assign key (.formula (applied a))
    let schema : Formula := .leaf .formulaMeta symbol
    let pattern : Formula := schema.withTransform ⟨a, b, false⟩
    ((schema.matchAgainst (applied a)).Succeeds session session ∧
      ((Expression.formula schema).Everywhere fun node =>
        node.transform? = none) ∧
      (session.instantiateFormula schema).same (applied a) = true) ∧
    (pattern.matchAgainst (applied b)).Succeeds session session ∧
      (session.resolveFormula pattern).same (empty.resolveFormula (applied b)) =
        true := by
  intro a b applied symbol key session schema pattern
  have sound := (matching_sound session session).1
  have matched : (schema.matchAgainst (applied a)).Succeeds session session := rfl
  have plain : (Expression.formula schema).Everywhere fun node =>
      node.transform? = none := .of_parts rfl (List.forall_mem_nil _)
  have substituted : (pattern.matchAgainst (applied b)).Succeeds session session :=
    rfl
  exact ⟨⟨matched, plain, (sound schema (applied a) matched).2 plain⟩,
    substituted, (sound pattern (applied b) substituted).1⟩

end Session
end SymbolicLogic
