import SymbolicLogic.Proofs.Expression.Readings
import SymbolicLogic.Proofs.Session.Stability

/-!
# Resolving is instantiating and carrying out

Resolving does in one reading what instantiating and carrying out do in two, node by
node. The two differ at one place only. Instantiating attaches the substitution of a
schema to the value of its metavariable, where it takes the place of one that the
value has itself; resolving carries out the one of the value first. So they agree on
every expression none of whose substitutions meets such a value.
-/

namespace SymbolicLogic

open Session

namespace Reading

variable (session : Session) (carrier : Expression) (transform : Transform)

@[simp] theorem attach_instantiate :
    (instantiate session).attach carrier transform =
      carrier.withTransform transform := by
  cases carrier <;> rfl

@[simp] theorem attach_resolve :
    (resolve session).attach carrier transform = carrier.settle transform := by
  cases carrier <;> rfl

/-- Resolving gives a metavariable what instantiating gives it, carried out. -/
theorem meaningOf_resolve (metavariable : Metavariable) :
    (resolve session).meaningOf metavariable =
      ((instantiate session).meaningOf metavariable).map Expression.carryOut :=
  rfl

end Reading

/-- Nowhere in the expression does a pending substitution meet a metavariable whose
value has a pending substitution of its own. -/
def Session.KeepsSubstitutions (session : Session) (expression : Expression) : Prop :=
  expression.Throughout fun node =>
    ∀ transform, node.transform? = some transform ->
      (node.withoutTransform.readBy (.instantiate session)).transform? = none

namespace Expression

/-- The expression is resolved to what it is instantiated to, with the substitutions
carried out. -/
def Resolves (session : Session) (expression : Expression) : Prop :=
  expression.readBy (.resolve session) =
    (expression.readBy (.instantiate session)).carryOut

variable {session : Session} {expression : Expression}

/-- For a formula, resolving is instantiating and then carrying out. -/
@[simp] theorem resolves_formula_iff {f : Formula} :
    (formula f).Resolves session ↔
      f.readBy (.resolve session) =
        (f.readBy (.instantiate session)).readBy .carryOut := by
  simp [Resolves, readBy, carryOut]

/-- For a term, resolving is instantiating and then carrying out. -/
@[simp] theorem resolves_term_iff {t : Term} :
    (term t).Resolves session ↔
      t.readBy (.resolve session) =
        (t.readBy (.instantiate session)).readBy .carryOut := by
  simp [Resolves, readBy, carryOut]

/-- So it is for a list of terms, if it is for each of them. -/
theorem readAllBy_of_resolves
    {terms : List Term}
    (resolves : ∀ part ∈ terms.map term, part.Resolves session) :
    Term.readAllBy terms (.resolve session) =
      Term.readAllBy (Term.readAllBy terms (.instantiate session)) .carryOut := by
  rw [Term.readAllBy_eq_map, Term.readAllBy_eq_map, Term.readAllBy_eq_map,
    List.map_map]
  refine List.map_congr_left fun term member => ?_
  exact resolves_term_iff.mp (resolves _ (List.mem_map_of_mem member))

/-- A metavariable is resolved to its value with the substitutions carried out. -/
theorem resolves_of_meaning
    {metavariable : Metavariable}
    (plain : expression.transform? = none)
    (isMetavariable : expression.metaNode? = some metavariable)
    (meaning : (Reading.instantiate session).meaningOf metavariable =
      some (expression.readBy (.instantiate session))) :
    expression.Resolves session := by
  have resolved : (Reading.resolve session).meaningOf metavariable =
      some (expression.readBy (.instantiate session)).carryOut := by
    rw [Reading.meaningOf_resolve, meaning, Option.map_some]
  refine readBy_of_meaning _ plain isMetavariable resolved ?_
  rw [carryOut, isSentence_readBy, isSentence_readBy]

/-- One that has no value stays, and its parameters are resolved. -/
theorem resolves_of_metavariable
    {metavariable : Metavariable}
    (plain : expression.transform? = none)
    (isMetavariable : expression.metaNode? = some metavariable)
    (parts : ∀ part ∈ expression.children, part.Resolves session) :
    expression.Resolves session := by
  rcases meaning_or_keeps (.instantiate session) plain with
    ⟨metavariable, isMetavariable, meaning⟩ | keeps
  · exact resolves_of_meaning plain isMetavariable meaning
  · have keeps' : (Reading.resolve session).Keeps expression := by
      intro metavariable value isMetavariable meaning
      rw [Reading.meaningOf_resolve, Option.map_eq_some_iff] at meaning
      obtain ⟨value, meaning, rfl⟩ := meaning
      rw [carryOut, isSentence_readBy]
      exact keeps metavariable value isMetavariable meaning
    have writes := writes_of_metaNode? plain isMetavariable
    have staying := writes.writes_readBy keeps
    rw [writes.children_eq] at parts
    rw [Resolves, carryOut, staying.readBy_of_keeps (Reading.Keeps.carryOut _),
      writes.readBy_of_keeps keeps, writes.readBy_of_keeps keeps',
      writes.withParams_withParams, readAllBy_of_resolves parts]

/-- Any other node without a pending substitution is resolved part by part. -/
theorem resolves_of_parts
    (plain : expression.transform? = none)
    (ordinary : expression.metaNode? = none)
    (parts : ∀ part ∈ expression.children, part.Resolves session) :
    expression.Resolves session := by
  match expression with
  | .formula (.plain shape) =>
      cases shape with
      | leaf kind => cases kind <;> cases ordinary; rfl
      | relation symbol args =>
          have args := readAllBy_of_resolves parts
          simp [Formula.readBy, FormulaShape.readBy, args]
      | complexMeta => cases ordinary
      | comparison | negation | binary =>
          simpa [children, FormulaShape.children, Formula.readBy,
            FormulaShape.readBy] using parts
      | quantified _ _ _ restriction =>
          cases restriction <;>
            simpa [children, FormulaShape.children,
              FormulaShape.restrictionChildren, Formula.readBy,
              FormulaShape.readBy, Restriction.readBy] using parts
  | .term (.plain shape) =>
      cases shape with
      | leaf kind => cases kind <;> cases ordinary <;> rfl
      | apply head symbol args =>
          cases head with
          | complexMeta => cases ordinary
          | function =>
              have args : Term.readAllBy args _ = _ :=
                readAllBy_of_resolves parts
              simp [Term.readBy, TermShape.readBy, args]
      | operation =>
          simpa [children, TermShape.children, Term.readBy, TermShape.readBy]
            using parts

/-- A node with a substitution is resolved in this way if the node without it and
both sides are, and the substitution is kept. -/
theorem resolves_of_transformed
    {transform : Transform}
    (pending : expression.transform? = some transform)
    (kept : (expression.withoutTransform.readBy (.instantiate session)).transform? =
      none)
    (carrier : expression.withoutTransform.Resolves session)
    (target : (term transform.target).Resolves session)
    (replacement : (term transform.replacement).Resolves session) :
    expression.Resolves session := by
  have sides : transform.readBy (.resolve session) =
      (transform.readBy (.instantiate session)).readBy .carryOut := by
    rw [resolves_term_iff] at target replacement
    simp [Transform.readBy, target, replacement]
  calc
    expression.readBy (.resolve session)
    _ = (expression.withoutTransform.readBy (.resolve session)).settle
          (transform.readBy (.resolve session)) := by
      rw [readBy_of_pending pending, Reading.attach_resolve]
    _ = ((expression.withoutTransform.readBy (.instantiate session)).readBy
          .carryOut).settle
          ((transform.readBy (.instantiate session)).readBy .carryOut) := by
      rw [carrier, sides, carryOut]
    _ = ((expression.withoutTransform.readBy (.instantiate session)).withTransform
          (transform.readBy (.instantiate session))).readBy .carryOut := by
      rw [readBy_of_pending transform?_withTransform, Reading.attach_carryOut,
        withoutTransform_withTransform, withoutTransform_of_plain kept]
    _ = (expression.readBy (.instantiate session)).carryOut := by
      rw [readBy_of_pending pending, Reading.attach_instantiate, carryOut]

/-- An expression whose substitutions are kept is resolved to what it is instantiated
to, with the substitutions carried out. -/
theorem resolves_of_keepsSubstitutions
    (keeps : session.KeepsSubstitutions expression) :
    expression.Resolves session := by
  induction expression using nodeInduction with
  | plain expression plain inductionHypothesis =>
      have parts : ∀ part ∈ expression.children, part.Resolves session :=
        fun part member =>
          inductionHypothesis part member (Throughout.part keeps member)
      cases isMetavariable : expression.metaNode? with
      | none => exact resolves_of_parts plain isMetavariable parts
      | some => exact resolves_of_metavariable plain isMetavariable parts
  | transformed expression transform pending carrier target replacement =>
      have kept := Throughout.whole keeps transform pending
      have keepsCarrier := Throughout.withoutTransform keeps (by simp)
      exact resolves_of_transformed pending kept (carrier keepsCarrier)
        (target (Throughout.target keeps pending))
        (replacement (Throughout.replacement keeps pending))

end Expression

namespace Session

variable {session : Session}

/-- Where no value has a substitution of its own, all substitutions are kept. -/
theorem keepsSubstitutions_of_plain_values
    (plain : ∀ key value, session.value? key = some value ->
      value.transform? = none)
    (expression : Expression) : session.KeepsSubstitutions expression := by
  intro node _ _ _
  have bare : node.withoutTransform.transform? = none :=
    Expression.transform?_withoutTransform
  rcases Expression.meaning_or_keeps (.instantiate session) bare with
    ⟨_, -, meaning⟩ | keeps
  · exact plain _ _ meaning
  · exact Expression.transform?_readBy_of_keeps bare keeps

/-- In any session, an expression whose substitutions are kept is resolved to what
carrying out makes of its instance. -/
theorem resolve_eq_carryOut_instantiate (session : Session) :
    (∀ formula : Formula,
      session.KeepsSubstitutions (.formula formula) ->
      session.resolveFormula formula =
        empty.resolveFormula (session.instantiateFormula formula)) ∧
    ∀ term : Term,
      session.KeepsSubstitutions (.term term) ->
      session.resolveTerm term =
        empty.resolveTerm (session.instantiateTerm term) := by
  constructor
  · intro formula keeps
    exact Expression.resolves_formula_iff.mp
      (Expression.resolves_of_keepsSubstitutions keeps)
  · intro term keeps
    exact Expression.resolves_term_iff.mp
      (Expression.resolves_of_keepsSubstitutions keeps)

/-- Let `A` stand for `Fa`. Then `A`, with `b` put for `a`, is resolved to what
carrying out makes of `Fa`, with `b` put for `a`. -/
theorem resolve_eq_carryOut_instantiate_substitution :
    let a : Term := .leaf .constant ⟨"a", .constant⟩
    let b : Term := .leaf .constant ⟨"b", .constant⟩
    let applied (term : Term) : Formula := .plain (.relation ⟨"F", .relation⟩ [term])
    let symbol : Symbol := ⟨"A", .formulaMeta⟩
    let key : Metavariable := ⟨.formula, symbol, []⟩
    let session := (empty.register key).assign key (.formula (applied a))
    let schema := (Formula.leaf .formulaMeta symbol).withTransform ⟨a, b, false⟩
    session.KeepsSubstitutions (.formula schema) ∧
      session.resolveFormula schema =
        empty.resolveFormula (session.instantiateFormula schema) ∧
      session.resolveFormula schema = applied b := by
  intro a b applied symbol key session schema
  have keeps : session.KeepsSubstitutions (.formula schema) := by
    refine keepsSubstitutions_of_plain_values (fun key value bound => ?_) _
    obtain ⟨_, member, -, bound⟩ := exists_binding_of_value? bound
    cases List.mem_singleton.mp member
    cases bound
    rfl
  exact ⟨keeps, (resolve_eq_carryOut_instantiate session).1 schema keeps, rfl⟩

/-- Let `A` stand for `Fx`, with `a` put for `x`. Then `A`, with `b` put for `y`, is
resolved to `Fa`, while its instance is `Fx`, with `b` put for `y`, and carrying out
makes `Fx` of that. -/
theorem resolve_ne_carryOut_instantiate :
    let x : Term := .leaf .objectVariable ⟨"x", .objectVariable⟩
    let y : Term := .leaf .objectVariable ⟨"y", .objectVariable⟩
    let a : Term := .leaf .constant ⟨"a", .constant⟩
    let b : Term := .leaf .constant ⟨"b", .constant⟩
    let applied (term : Term) : Formula := .plain (.relation ⟨"F", .relation⟩ [term])
    let symbol : Symbol := ⟨"A", .formulaMeta⟩
    let key : Metavariable := ⟨.formula, symbol, []⟩
    let value := (applied x).withTransform ⟨x, a, false⟩
    let session := (empty.register key).assign key (.formula value)
    let schema := (Formula.leaf .formulaMeta symbol).withTransform ⟨y, b, false⟩
    session.IsGround ∧
      session.resolveFormula schema = applied a ∧
      session.instantiateFormula schema =
        (applied x).withTransform ⟨y, b, false⟩ ∧
      empty.resolveFormula (session.instantiateFormula schema) = applied x ∧
      (applied a).same (applied x) = false := by
  intro x y a b applied symbol key value session schema
  refine ⟨fun key value bound => ?_, rfl, rfl, rfl, rfl⟩
  obtain ⟨_, member, -, bound⟩ := exists_binding_of_value? bound
  cases List.mem_singleton.mp member
  cases bound
  rfl

end Session
end SymbolicLogic
