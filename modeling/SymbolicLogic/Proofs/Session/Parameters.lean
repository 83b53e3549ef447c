import SymbolicLogic.Proofs.Expression.NormalForm
import SymbolicLogic.Proofs.Session.Permanence
import SymbolicLogic.Proofs.Session.Resolution
import SymbolicLogic.Proofs.Session.Walk

/-!
# Two occurrences of a metavariable with parameters

A metavariable with parameters has its value at the terms that the parameters are
instantiated to. So two occurrences whose parameters are instantiated to the same terms
share one value, and any other two are bound independently of each other. What the
parameters are resolved to does not matter. The two differ where a substitution is pending
in an instantiated parameter, so there a metavariable may have two values at one term.
-/

namespace SymbolicLogic

open Session Matching

namespace Session

variable {session : Session} {key metavariable : Metavariable} {value : Expression}

/-- Keys are the same when the parameters are instantiated to the same terms. -/
theorem same_key_iff
    (session : Session)
    (family : MetaFamily)
    {symbol symbol' : Symbol}
    {params params' : List Term}
    (symbols : symbol.same symbol' = true) :
    (session.key family symbol params).same (session.key family symbol' params') = true ↔
      Term.sameAll (params.map session.instantiateTerm)
        (params'.map session.instantiateTerm) = true := by
  rw [key, key, Term.readAllBy_eq_map, Term.readAllBy_eq_map, Metavariable.same, symbols,
    decide_eq_true rfl]
  rfl

/-- The key has no value other than the one given. -/
def Admits (session : Session) (key : Metavariable) (value : Expression) : Prop :=
  ∀ existing, session.value? key = some existing -> existing.same value = true

/-- Entering a metavariable does not change which values are admitted. -/
@[simp] theorem admits_enter :
    (session.enter metavariable).Admits key value ↔ session.Admits key value := by
  simp only [Admits, value?_enter]

end Session

namespace Metavariable

variable {session before after : Session} {metavariable first second : Metavariable}
  {key key' : Metavariable} {value value' : Expression}

/-- Once its parameters are known, a metavariable can be bound to what its family accepts
and its key admits. -/
theorem exists_bound_iff (known : session.resolvedKey metavariable = .ok key) :
    (∃ after, metavariable.Bound value session after) ↔
      metavariable.family.accepts value = true ∧ session.Admits key value := by
  constructor
  · rintro ⟨_, ⟨accepts, known', bound, same⟩ | ⟨accepts, known', unbound⟩⟩
    · cases known.symm.trans known'
      refine ⟨accepts, fun existing found => ?_⟩
      cases bound.symm.trans found
      exact same
    · cases known.symm.trans known'
      refine ⟨accepts, fun existing found => ?_⟩
      cases unbound.symm.trans found
  · rintro ⟨accepts, admits⟩
    cases found : session.value? key with
    | some existing => exact ⟨_, .found accepts known found (admits existing found)⟩
    | none => exact ⟨_, .entered accepts known found⟩

/-- What a key admits after a binding: what it did before, and at the key of the binding
only what is the same as its value. -/
theorem Bound.admits_iff
    (bound : metavariable.Bound value before after)
    (known : before.resolvedKey metavariable = .ok key) :
    after.Admits key' value' ↔
      before.Admits key' value' ∧ (key.same key' = true -> value.same value' = true) := by
  cases bound with
  | found accepts known' bound same =>
      cases known.symm.trans known'
      refine (and_iff_left_of_imp fun admits keys => ?_).symm
      rw [before.value?_congr keys] at bound
      exact Expression.same_trans (Expression.same_symm same) (admits _ bound)
  | entered accepts known' unbound =>
      cases known.symm.trans known'
      cases keys : key.same key' with
      | true =>
          rw [before.value?_congr keys] at unbound
          simp [Admits, unbound, before.value?_bound value keys]
      | false => simp [Admits, before.value?_bound_of_other value keys]

/-- Two metavariables of known parameters can be met one after the other if each could
be met alone, and the values are the same if the keys are. -/
theorem exists_both_met_iff
    (known : session.resolvedKey first = .ok key)
    (known' : session.resolvedKey second = .ok key') :
    (∃ middle after, (first.meet value).Succeeds session middle ∧
      (second.meet value').Succeeds middle after) ↔
      (first.family.accepts value = true ∧ session.Admits key value) ∧
      (second.family.accepts value' = true ∧ session.Admits key' value') ∧
      (key.same key' = true -> value.same value' = true) := by
  have entered : (session.enter first).resolvedKey first = .ok key :=
    (first.growsTo_enter session).preserves.resolvedKey_eq_ok known
  have knownAfter {middle : Session}
      (bound : first.Bound value (session.enter first) middle) :
      (middle.enter second).resolvedKey second = .ok key' :=
    (((first.growsTo_enter session).trans (growsTo_of_bound bound)).trans
      (second.growsTo_enter middle)).preserves.resolvedKey_eq_ok known'
  simp only [succeeds_meet_iff]
  constructor
  · rintro ⟨middle, after, bound, bound'⟩
    obtain ⟨accepts, admits⟩ := (exists_bound_iff entered).mp ⟨middle, bound⟩
    obtain ⟨accepts', admits'⟩ := (exists_bound_iff (knownAfter bound)).mp ⟨after, bound'⟩
    rw [admits_enter] at admits admits'
    rw [bound.admits_iff entered, admits_enter] at admits'
    exact ⟨⟨accepts, admits⟩, ⟨accepts', admits'.1⟩, admits'.2⟩
  · rintro ⟨⟨accepts, admits⟩, ⟨accepts', admits'⟩, agree⟩
    obtain ⟨middle, bound⟩ :=
      (exists_bound_iff entered).mpr ⟨accepts, admits_enter.mpr admits⟩
    have admitsAfter : middle.Admits key' value' := by
      rw [bound.admits_iff entered, admits_enter]
      exact ⟨admits', agree⟩
    obtain ⟨after, bound'⟩ :=
      (exists_bound_iff (knownAfter bound)).mpr ⟨accepts', admits_enter.mpr admitsAfter⟩
    exact ⟨middle, after, bound, bound'⟩

end Metavariable

namespace Expression

variable {pattern concrete expression : Expression} {metavariable : Metavariable}
  {session : Session}

/-- A metavariable is met at once with what is no metavariable with parameters. -/
theorem matchPart_eq_meet_of_ordinary
    (writes : pattern.Writes metavariable)
    (ordinary : concrete.isComplex = false)
    (sorts : pattern.isSentence = concrete.isSentence) :
    pattern.matchPart concrete = metavariable.meet concrete := by
  cases complex : pattern.isComplex with
  | false =>
      exact matchPart_eq_meet writes.transform?_eq writes.metaNode?_eq complex sorts
  | true =>
      cases writes with
      | @formulaLeaf kind => cases kind <;> cases complex
      | @termLeaf kind => cases kind <;> cases complex
      | complexFormula =>
          cases concrete with
          | term => cases sorts
          | formula =>
              rw [matchPart, Formula.matchAgainst, FormulaShape.matchAgainst.eq_def]
              dsimp only
              split
              · cases ordinary
              · rfl
      | complexTerm =>
          cases concrete with
          | formula => cases sorts
          | term =>
              rw [matchPart, Term.matchAgainst, TermShape.matchAgainst.eq_def]
              dsimp only
              split
              · cases ordinary
              · rfl

/-- What is instantiated to an expression without substitutions is resolved to the same
expression. -/
theorem readBy_resolve_of_isBare
    (bare : (expression.readBy (.instantiate session)).IsBare) :
    expression.readBy (.resolve session) = expression.readBy (.instantiate session) := by
  suffices resolves : expression.Resolves session from
    resolves.trans bare.carryOut_eq_self
  induction expression using nodeInduction with
  | plain expression plain inductionHypothesis =>
      rcases meaning_or_keeps (.instantiate session) plain with
        ⟨metavariable, isMetavariable, meaning⟩ | keeps
      · exact resolves_of_meaning plain isMetavariable meaning
      · have parts : ∀ part ∈ expression.children, part.Resolves session := by
          intro part member
          refine inductionHypothesis part member (bare.part ?_)
          rw [children_readBy_of_keeps plain keeps]
          exact List.mem_map_of_mem member
        cases isMetavariable : expression.metaNode? with
        | none => exact resolves_of_parts plain isMetavariable parts
        | some => exact resolves_of_metavariable plain isMetavariable parts
  | transformed expression transform pending =>
      -- The instance has the substitution as well.
      have whole := bare.whole
      rw [readBy_of_pending pending, Reading.attach_instantiate,
        transform?_withTransform] at whole
      cases whole

end Expression

namespace Session

open Expression

variable {symbol symbol' : Symbol} {params params' : List Term}
  {concrete concrete' : Formula}

/-- Terms that are instantiated without substitutions are resolved to the same terms. -/
theorem map_resolveTerm
    {session : Session}
    (bare : ∀ param ∈ params, (term (session.instantiateTerm param)).IsBare) :
    params.map session.resolveTerm = params.map session.instantiateTerm := by
  refine List.map_congr_left fun param member => ?_
  have instanceBare : ((term param).readBy (.instantiate session)).IsBare :=
    bare param member
  exact term.inj (readBy_resolve_of_isBare instanceBare)

/-- Two occurrences of a metavariable are matched one after the other if each could be
matched alone, and the formulas are the same if the parameters are instantiated to the
same terms. -/
theorem exists_both_matched_iff
    (session : Session)
    (brackets brackets' : Brackets)
    (symbols : symbol.same symbol' = true)
    (known : Term.unboundAmong? params session = none)
    (known' : Term.unboundAmong? params' session = none)
    (ordinary : (formula concrete).isComplex = false)
    (ordinary' : (formula concrete').isComplex = false) :
    (∃ middle after,
      (Formula.matchAgainst (.plain (.complexMeta symbol params brackets))
        concrete).Succeeds session middle ∧
      (Formula.matchAgainst (.plain (.complexMeta symbol' params' brackets'))
        concrete').Succeeds middle after) ↔
      session.Admits (session.key .complexFormula symbol params) (.formula concrete) ∧
      session.Admits (session.key .complexFormula symbol' params')
        (.formula concrete') ∧
      (Term.sameAll (params.map session.instantiateTerm)
          (params'.map session.instantiateTerm) = true ->
        concrete.same concrete' = true) := by
  have met : Formula.matchAgainst (.plain (.complexMeta symbol params brackets)) concrete =
      Metavariable.meet ⟨.complexFormula, symbol, params⟩ (.formula concrete) :=
    matchPart_eq_meet_of_ordinary (.complexFormula symbol params brackets) ordinary rfl
  have met' :
      Formula.matchAgainst (.plain (.complexMeta symbol' params' brackets')) concrete' =
        Metavariable.meet ⟨.complexFormula, symbol', params'⟩ (.formula concrete') :=
    matchPart_eq_meet_of_ordinary (.complexFormula symbol' params' brackets') ordinary' rfl
  rw [← same_key_iff session .complexFormula symbols, met, met',
    Metavariable.exists_both_met_iff (resolvedKey_eq_ok.mpr ⟨known, rfl⟩)
      (resolvedKey_eq_ok.mpr ⟨known', rfl⟩)]
  simp [MetaFamily.accepts, Expression.same]

/-- From any session, two occurrences of a metavariable of known parameters are matched
one after the other, with formulas that are no metavariables with parameters, exactly if
their keys admit these and either the parameters are instantiated to different terms or
the two formulas are the same. If no substitution is pending in what the parameters are
instantiated to, the formulas are the same as soon as the parameters are resolved to the
same terms. -/
theorem match_occurrences
    (session : Session)
    (brackets brackets' : Brackets)
    (symbols : symbol.same symbol' = true)
    (known : Term.unboundAmong? params session = none)
    (known' : Term.unboundAmong? params' session = none)
    (ordinary : (formula concrete).isComplex = false)
    (ordinary' : (formula concrete').isComplex = false) :
    let first : Formula := .plain (.complexMeta symbol params brackets)
    let second : Formula := .plain (.complexMeta symbol' params' brackets')
    let bothMatch := ∃ middle after,
      (first.matchAgainst concrete).Succeeds session middle ∧
        (second.matchAgainst concrete').Succeeds middle after
    (bothMatch ↔
      session.Admits (session.key .complexFormula symbol params) (.formula concrete) ∧
      session.Admits (session.key .complexFormula symbol' params')
        (.formula concrete') ∧
      (Term.sameAll (params.map session.instantiateTerm)
          (params'.map session.instantiateTerm) = true ->
        concrete.same concrete' = true)) ∧
    ((∀ param ∈ params ++ params', (term (session.instantiateTerm param)).IsBare) ->
      Term.sameAll (params.map session.resolveTerm)
        (params'.map session.resolveTerm) = true ->
      bothMatch -> concrete.same concrete' = true) := by
  intro first second bothMatch
  have both_iff := exists_both_matched_iff session brackets brackets' symbols known known'
    ordinary ordinary'
  refine ⟨both_iff, fun bare resolved matched => ?_⟩
  obtain ⟨-, -, agree⟩ := both_iff.mp matched
  obtain ⟨bare, bare'⟩ := List.forall_mem_append.mp bare
  rw [map_resolveTerm bare, map_resolveTerm bare'] at resolved
  exact agree resolved

/-- Where `t` stands for `a`, `A(t)` and `A(a)` are not matched with `P` and with `Q`. -/
theorem match_occurrences_constant :
    let a : Term := .leaf .constant ⟨"a", .constant⟩
    let t : Term := .leaf .termMeta ⟨"t", .termMeta⟩
    let occurrence (param : Term) : Formula :=
      .plain (.complexMeta ⟨"A", .formulaMeta⟩ [param] .round)
    let letter (name : String) : Formula := .leaf .letter ⟨name, .sentenceLetter⟩
    let session := empty.performAll [.bind ⟨.term, ⟨"t", .termMeta⟩, []⟩ (.term a)]
    Term.unboundAmong? [t] session = none ∧ Term.unboundAmong? [a] session = none ∧
      (∀ name, (Expression.formula (letter name)).isComplex = false) ∧
      ¬∃ middle after, ((occurrence t).matchAgainst (letter "P")).Succeeds session middle ∧
        ((occurrence a).matchAgainst (letter "Q")).Succeeds middle after := by
  intro a t occurrence letter session
  have known : Term.unboundAmong? [t] session = none := rfl
  have known' : Term.unboundAmong? [a] session = none := rfl
  have ordinary (name : String) : (Expression.formula (letter name)).isComplex = false :=
    rfl
  have symbols : Symbol.same ⟨"A", .formulaMeta⟩ ⟨"A", .formulaMeta⟩ = true := rfl
  obtain ⟨both_iff, -⟩ := match_occurrences session .round .round symbols known known'
    (ordinary "P") (ordinary "Q")
  refine ⟨known, known', ordinary, fun matched => ?_⟩
  obtain ⟨-, -, agree⟩ := both_iff.mp matched
  cases agree rfl

/-- The parameters of `A(f(x[a/x]))` and of `A(f(a))` are both resolved to `f(a)`. But
they are instantiated to different terms, so the one is matched with `P` and the other
with `Q`. -/
theorem match_occurrences_pending :
    let x : Term := .leaf .objectVariable ⟨"x", .objectVariable⟩
    let a : Term := .leaf .constant ⟨"a", .constant⟩
    let applied (term : Term) : Term :=
      .plain (.apply .function ⟨"f", .function⟩ [term] .round)
    let params := [applied (x.withTransform ⟨x, a, false⟩)]
    let params' := [applied a]
    let occurrence (params : List Term) : Formula :=
      .plain (.complexMeta ⟨"A", .formulaMeta⟩ params .round)
    let letter (name : String) : Formula := .leaf .letter ⟨name, .sentenceLetter⟩
    let middle := empty.perform (.matchFormula (occurrence params) (letter "P"))
    let after := middle.perform (.matchFormula (occurrence params') (letter "Q"))
    Term.unboundAmong? params empty = none ∧ Term.unboundAmong? params' empty = none ∧
      Term.sameAll (params.map empty.resolveTerm) (params'.map empty.resolveTerm) = true ∧
      (∀ name, (Expression.formula (letter name)).isComplex = false) ∧
      ((occurrence params).matchAgainst (letter "P")).Succeeds empty middle ∧
      ((occurrence params').matchAgainst (letter "Q")).Succeeds middle after ∧
      (letter "P").same (letter "Q") = false := by
  intro x a applied params params' occurrence letter middle after
  exact ⟨rfl, rfl, rfl, fun _ => rfl, rfl, rfl, rfl⟩

end Session
end SymbolicLogic
