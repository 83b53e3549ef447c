import SymbolicLogic.Proofs.Expression.NormalForm
import SymbolicLogic.Proofs.Session.Permanence
import SymbolicLogic.Proofs.Session.Soundness

/-!
# Instances of a universal quantification

Universal instantiation leads from `∀να` to `α[τ/ν]`. The schema of the premise is matched
first, which gives `ν` and `α` their values, and `τ` is bound. The schema of the conclusion
has a substitution then, all of whose metavariables have values. So it is compared as a
whole, and matches exactly the formulas that come out of the scope of the premise when the
term is put for the bound variable.
-/

namespace SymbolicLogic

open Session Matching

/-- The quantification over everything. -/
def Formula.universal
    (glyph : Symbol)
    (boundVariable : Term)
    (scope : Formula) : Formula :=
  .plain (.quantified glyph .universal boundVariable .unrestricted scope)

namespace Expression

variable {pattern concrete concrete' : Expression} {transform : Transform}
  {session after : Session}

/-- A pattern with a substitution fits whatever carrying out makes the same as something
that it fits. -/
theorem Fits.iff_same_carryOut
    (fits : pattern.Fits concrete session)
    (pending : pattern.transform? = some transform) :
    pattern.Fits concrete' session ↔
      concrete.carryOut.same concrete'.carryOut = true := by
  constructor
  · intro fits'
    exact same_trans (same_symm fits.resolved) fits'.resolved
  · intro same
    refine ⟨fits.bound, same_trans fits.resolved same, fun simple => ?_⟩
    rw [simple.whole] at pending
    cases pending

/-- In concrete expressions a pending substitution is carried out by substituting. -/
theorem IsConcrete.carryOut_withTransform
    (carrier : concrete.IsConcrete)
    (target : (term transform.target).IsConcrete)
    (replacement : (term transform.replacement).IsConcrete) :
    (concrete.withTransform transform).carryOut =
      concrete.substitute transform.target transform.replacement := by
  have sides : transform.readBy .carryOut = transform := by
    have target := term.inj target.isBare.carryOut_eq_self
    have replacement := term.inj replacement.isBare.carryOut_eq_self
    rw [Transform.readBy, target, replacement]
  have ground : transform.isSchematic = false :=
    Bool.or_eq_false_iff.mpr
      ⟨target.isSchematic_eq_false, replacement.isSchematic_eq_false⟩
  calc
    (concrete.withTransform transform).carryOut
    _ = concrete.withoutTransform.carryOut.settle (transform.readBy .carryOut) := by
      rw [carryOut_eq_settle transform?_withTransform, withoutTransform_withTransform]
    _ = concrete.settle transform := by
      rw [sides, withoutTransform_of_plain carrier.whole.1, carrier.isBare.carryOut_eq_self]
    _ = concrete.substitute transform.target transform.replacement :=
      settle_of_ground carrier.isSchematic_eq_false ground

/-- Let a pattern with a substitution fit a concrete expression with a substitution of its
own. Then it matches the expressions that come out of carrying this one out, and binds
nothing. -/
theorem succeeds_iff_of_fits_substitution
    (pending : pattern.transform? = some transform)
    {transform' : Transform}
    (fits : pattern.Fits (concrete.withTransform transform') session)
    (carrier : concrete.IsConcrete)
    (target : (term transform'.target).IsConcrete)
    (replacement : (term transform'.replacement).IsConcrete)
    (plain : concrete'.transform? = none) :
    (pattern.matchPart concrete').Succeeds session after ↔
      (concrete.substitute transform'.target transform'.replacement).same
        concrete'.carryOut = true ∧ after = session := by
  rw [succeeds_iff_of_compared pending plain, fits.iff_same_carryOut pending,
    carrier.carryOut_withTransform target replacement]

end Expression

/-- Once a universal schema has matched a universal quantification, what it quantifies fits
the bound variable and the scope. -/
theorem Formula.fits_of_succeeds_universal
    {glyph glyph' : Symbol}
    {boundVariable boundVariable' : Term}
    {scope scope' : Formula}
    {before after : Session}
    (matched : ((universal glyph boundVariable scope).matchAgainst
      (universal glyph' boundVariable' scope')).Succeeds before after) :
    (Expression.term boundVariable).Fits (.term boundVariable') after ∧
      (Expression.formula scope).Fits (.formula scope') after := by
  have matched : ((Expression.formula (universal glyph boundVariable scope)).matchPart
      (.formula (universal glyph' boundVariable' scope'))).Succeeds before after := matched
  obtain ⟨-, -, walks⟩ := (Expression.succeeds_iff_parts rfl rfl).mp matched
  have fits : List.Forall₂ (fun part part' => Expression.Fits part part' after)
      [.term boundVariable, .formula scope] [.term boundVariable', .formula scope'] :=
    walks.forall₂ Expression.Fits.of_extends fun _ _ => Expression.fits_of_succeeds
  obtain ⟨fitsVariable, fits⟩ := List.forall₂_cons.mp fits
  obtain ⟨fitsScope, -⟩ := List.forall₂_cons.mp fits
  exact ⟨fitsVariable, fitsScope⟩

namespace Session

open Expression

/-- Let the schema `∀να` have matched a universal quantification of a concrete formula, from
any session and before any operations, and let `τ` have a concrete value by then. Then
`α[τ/ν]` matches a formula without a substitution of its own exactly if carrying out makes
this formula what the scope becomes when the value is put for the bound variable. Nothing is
bound by that. -/
theorem match_universal_instance
    (before middle after : Session)
    (operations : List Operation)
    {glyph glyph' ν α τ x : Symbol}
    {scope conclusion : Formula}
    {replacement : Term}
    {value : Expression}
    (stacked : Bool)
    (concrete : (Expression.formula scope).IsConcrete)
    (concreteTerm : (Expression.term replacement).IsConcrete)
    (plain : conclusion.transform? = none)
    (matched : Matching.Succeeds
      ((Formula.universal glyph (.leaf .variableMeta ν) (.leaf .formulaMeta α)).matchAgainst
        (Formula.universal glyph' (.leaf .objectVariable x) scope)) before middle)
    (found : (middle.performAll operations).get? ⟨.term, τ, []⟩ = some value)
    (same : value.same (.term replacement) = true) :
    let session := middle.performAll operations
    let schema := (Formula.leaf .formulaMeta α).withTransform
      ⟨.leaf .variableMeta ν, .leaf .termMeta τ, stacked⟩
    (schema.matchAgainst conclusion).Succeeds session after ↔
      (scope.substitute (.leaf .objectVariable x) replacement).same
        (empty.resolveFormula conclusion) = true ∧ after = session := by
  intro session schema
  have later := (middle.growsTo_performAll operations).preserves
  obtain ⟨fitsVariable, fitsScope⟩ := Formula.fits_of_succeeds_universal matched
  have fitsTerm : (Expression.term (.leaf .termMeta τ)).Fits (.term replacement) session :=
    fits_of_get? rfl rfl found same rfl
  have fits : (Expression.formula schema).Fits
      ((Expression.formula scope).withTransform
        ⟨.leaf .objectVariable x, replacement, stacked⟩) session := by
    refine fits_of_transformed rfl transform?_withTransform ?_
      (fitsVariable.of_extends later) fitsTerm
    rw [withoutTransform_withTransform, withoutTransform_of_plain concrete.whole.1]
    exact fitsScope.of_extends later
  have concreteVariable : (Expression.term (.leaf .objectVariable x)).IsConcrete :=
    .of_parts ⟨rfl, rfl⟩ nofun
  have plain : (Expression.formula conclusion).transform? = none := plain
  exact succeeds_iff_of_fits_substitution rfl fits concrete concreteVariable concreteTerm
    plain

/-- Let `∀να` have matched `∀x(Fx → Gx)`, and let `τ` stand for `a`. Then `α[τ/ν]` matches
`Fa → Ga`, and does not match `Fa → Gb`. -/
theorem match_universal_instance_conditional :
    let x : Term := .leaf .objectVariable ⟨"x", .objectVariable⟩
    let constant (name : String) : Term := .leaf .constant ⟨name, .constant⟩
    let applied (name : String) (term : Term) : Formula :=
      .plain (.relation ⟨name, .relation⟩ [term])
    let conditional (left right : Term) : Formula :=
      .plain (.binary ⟨"→", .connective⟩ .conditional (applied "F" left)
        (applied "G" right) (some .round))
    let ν : Symbol := ⟨"ν", .variableMeta⟩
    let α : Symbol := ⟨"α", .formulaMeta⟩
    let τ : Symbol := ⟨"τ", .termMeta⟩
    let universal := Formula.universal ⟨"∀", .quantifier⟩
    let premise := universal (.leaf .variableMeta ν) (.leaf .formulaMeta α)
    let quantification := universal x (conditional x x)
    let middle := empty.perform (.matchFormula premise quantification)
    let operations : List Operation := [.bind ⟨.term, τ, []⟩ (.term (constant "a"))]
    let session := middle.performAll operations
    let schema := (Formula.leaf .formulaMeta α).withTransform
      ⟨.leaf .variableMeta ν, .leaf .termMeta τ, true⟩
    (Expression.formula (conditional x x)).IsConcrete ∧
      (Expression.term (constant "a")).IsConcrete ∧
      (premise.matchAgainst quantification).Succeeds empty middle ∧
      session.get? ⟨.term, τ, []⟩ = some (.term (constant "a")) ∧
      (schema.matchAgainst (conditional (constant "a") (constant "a"))).Succeeds session
        session ∧
      ∀ after, ¬(schema.matchAgainst
        (conditional (constant "a") (constant "b"))).Succeeds session after := by
  intro x constant applied conditional ν α τ universal premise quantification middle
    operations session schema
  have leaf (kind : TermLeaf) (symbol : Symbol) (ordinary : kind.family? = none) :
      (Expression.term (.leaf kind symbol)).IsConcrete := by
    refine .of_parts ⟨rfl, ?_⟩ nofun
    cases kind <;> cases ordinary <;> rfl
  have atom (name : String) : (Expression.formula (applied name x)).IsConcrete :=
    .of_parts ⟨rfl, rfl⟩ (List.forall_mem_singleton.mpr (leaf _ _ rfl))
  have concrete : (Expression.formula (conditional x x)).IsConcrete :=
    .of_parts ⟨rfl, rfl⟩
      (List.forall_mem_cons.mpr ⟨atom "F", List.forall_mem_singleton.mpr (atom "G")⟩)
  have concreteTerm : (Expression.term (constant "a")).IsConcrete := leaf _ _ rfl
  have matched : (premise.matchAgainst quantification).Succeeds empty middle := rfl
  have found : session.get? ⟨.term, τ, []⟩ = some (.term (constant "a")) := rfl
  have instance_iff (right : Term) (after : Session) :
      (schema.matchAgainst (conditional (constant "a") right)).Succeeds session after ↔
        ((conditional x x).substitute x (constant "a")).same
          (empty.resolveFormula (conditional (constant "a") right)) = true ∧
          after = session :=
    match_universal_instance empty middle after operations true concrete concreteTerm rfl
      matched found rfl
  refine ⟨concrete, concreteTerm, matched, found, ?_, fun after succeeds => ?_⟩
  · exact (instance_iff (constant "a") session).mpr ⟨rfl, rfl⟩
  · cases ((instance_iff (constant "b") after).mp succeeds).1

end Session
end SymbolicLogic
