import SymbolicLogic.Proofs.Expression.Elementary
import SymbolicLogic.Proofs.Session.Resolution

/-!
# Substituting before and after carrying out

A pending substitution binds its variable in what it is attached to. Another
substitution, which puts in a term without variables, can be made before the pending
ones are carried out or after, except at two kinds of nodes. Where the pending
substitution is for the same variable, the other one is made beneath it, although the
variable is bound there. And where a pending substitution is attached to a variable
itself, the other one passes this variable over.
-/

namespace SymbolicLogic

open Session

namespace Expression

variable {expression : Expression} {transform : Transform}
  {x z : Symbol} {s t : Term}

@[simp] theorem kind_withoutTransform :
    expression.withoutTransform.kind = expression.kind := by
  cases expression <;> rfl

/-- Substitution for a variable leaves a substitution pending, with its sides substituted.
-/
theorem transform?_substitute (pending : expression.transform? = some transform) :
    (expression.substitute (.ofVariable x) t).transform? =
      some (transform.substitute (.ofVariable x) t) := by
  match expression with
  | .formula (.transformed ..) =>
      cases pending
      rfl
  | .term (.transformed ..) =>
      cases pending
      simp [substitute, Term.substitute, Term.same, Term.ofVariable, Term.leaf,
        transform?, Term.transform?, Transform.substitute]
  | .formula (.plain _) | .term (.plain _) => cases pending

/-- A variable that a substitution is attached to is passed over. -/
theorem withoutTransform_substitute_of_variable
    (pending : expression.transform? = some transform)
    (named : expression.withoutTransform.variableName? = some x.text) :
    (expression.substitute (.ofVariable x) t).withoutTransform =
      expression.withoutTransform := by
  match expression with
  | .formula _ => cases named
  | .term (.transformed (.leaf ..) ..) =>
      simp [substitute, Term.substitute, Term.same, Term.ofVariable, Term.leaf,
        TermShape.substitute, withoutTransform, Term.withoutTransform, Term.shape]
  | .term (.transformed (.apply ..) ..) | .term (.transformed (.operation ..) ..) =>
      cases named
  | .term (.plain _) => cases pending

/-- It changes the carrier as it changes any node, unless the carrier is the variable. -/
theorem withoutTransform_substitute
    (pending : expression.transform? = some transform)
    (other : expression.withoutTransform.variableName? ≠ some x.text) :
    (expression.substitute (.ofVariable x) t).withoutTransform =
      expression.withoutTransform.substitute (.ofVariable x) t := by
  match expression with
  | .formula (.transformed ..) => rfl
  | .term (.transformed shape _ _ _) =>
      have different : (Term.plain shape).same (.ofVariable x) = false := by
        rw [Bool.eq_false_iff, ne_eq, Term.same_ofVariable_iff]
        exact other
      simp [substitute, Term.substitute, Term.ofVariable, Term.leaf, withoutTransform,
        Term.withoutTransform, Term.shape, Term.same] at different ⊢
      simp [different]
  | .formula (.plain _) | .term (.plain _) => cases pending

/-- A substitution for a variable is carried out last. -/
theorem carryOut_of_pending
    (pending : expression.transform? = some transform)
    (target : transform.target = .ofVariable z)
    (ground : expression.withoutTransform.carryOut.isSchematic = false)
    (groundReplacement : transform.replacement.carryOut.isSchematic = false) :
    expression.carryOut = expression.withoutTransform.carryOut.substitute
      (.ofVariable z) transform.replacement.carryOut := by
  have targetRead : (transform.readBy .carryOut).target = .ofVariable z := by
    rw [Transform.readBy, target]
    rfl
  have groundTransform : (transform.readBy .carryOut).isSchematic = false := by
    rw [Transform.isSchematic, targetRead, Bool.or_eq_false_iff]
    exact ⟨rfl, groundReplacement⟩
  rw [carryOut_eq_settle pending, settle_of_ground ground groundTransform, targetRead]
  rfl

/-- The expression is elementary but for pending substitutions, which are for
variables. -/
def IsDeferred (expression : Expression) : Prop :=
  expression.Throughout fun node =>
    node.kind.isMetavariable = false ∧ node.kind.isQuantifier = false ∧
      ∀ transform, node.transform? = some transform ->
        ∃ variableSymbol, transform.target = .ofVariable variableSymbol

/-- The carrier of a deferred expression is deferred. -/
theorem IsDeferred.withoutTransform (deferred : expression.IsDeferred) :
    expression.withoutTransform.IsDeferred := by
  refine Throughout.withoutTransform deferred ?_
  rw [kind_withoutTransform, transform?_withoutTransform]
  exact ⟨deferred.whole.1, deferred.whole.2.1, nofun⟩

theorem IsDeferred.replacement
    (deferred : expression.IsDeferred)
    (pending : expression.transform? = some transform) :
    (term transform.replacement).IsDeferred :=
  Throughout.replacement deferred pending

/-- Carrying out leaves an elementary expression. -/
theorem IsDeferred.carryOut (deferred : expression.IsDeferred) :
    expression.carryOut.IsElementary := by
  induction expression using nodeInduction with
  | plain expression plain inductionHypothesis =>
      obtain ⟨ordinary, unquantified, -⟩ := deferred.whole
      rw [Expression.carryOut,
        readBy_eq_mapParts .carryOut plain ordinary unquantified]
      refine .mapParts ordinary unquantified (fun part member => ?_)
        fun part member => ?_
      · have child := term_mem_children member
        exact inductionHypothesis _ child (deferred.part child)
      · have child := formula_mem_children member
        exact inductionHypothesis _ child (deferred.part child)
  | transformed expression transform pending carrier target replacement =>
      obtain ⟨z, targetEq⟩ := deferred.whole.2.2 transform pending
      have elementary := carrier deferred.withoutTransform
      have elementaryTerm := replacement (deferred.replacement pending)
      rw [carryOut_of_pending pending targetEq elementary.isSchematic_eq_false
        elementaryTerm.isSchematic_eq_false]
      exact elementary.substitute elementaryTerm

/-- A deferred substitution is carried out in what the carrier comes to. -/
theorem IsDeferred.carryOut_eq
    (deferred : expression.IsDeferred)
    (pending : expression.transform? = some transform)
    (target : transform.target = .ofVariable z) :
    expression.carryOut = expression.withoutTransform.carryOut.substitute
      (.ofVariable z) transform.replacement.carryOut := by
  have replacement := (deferred.replacement pending).carryOut
  exact carryOut_of_pending pending target
    deferred.withoutTransform.carryOut.isSchematic_eq_false
    replacement.isSchematic_eq_false

/-- The result of substituting in the node is carried out to the same expression in
which substituting after carrying out results. -/
def Exchanges (x : Symbol) (t : Term) (expression : Expression) : Prop :=
  (expression.substitute (.ofVariable x) t).carryOut.same
    (expression.carryOut.substitute (.ofVariable x) t) = true

/-- A pending substitution stands in the way of another one for `x`. Either it is
attached to `x` itself and is not for `x`. Or it is for `x`, which is free in what it
is attached to, and does not put in what the other one puts in. -/
def Interferes (x : Symbol) (t : Term) (expression : Expression) : Prop :=
  ∃ transform, expression.transform? = some transform ∧
    (transform.target.variableName? ≠ some x.text ∧
        expression.withoutTransform.variableName? = some x.text ∨
      transform.target.variableName? = some x.text ∧
        expression.withoutTransform.variableName? ≠ some x.text ∧
        x.text ∈ expression.withoutTransform.carryOut.freeVariables ∧
        (transform.replacement.carryOut.substitute (.ofVariable x) t).same t = false)

/-- Only a pending substitution interferes at its node. -/
theorem not_interferes_of_plain (plain : expression.transform? = none) :
    ¬expression.Interferes x t := by
  rintro ⟨transform, pending, -⟩
  rw [plain] at pending
  cases pending

/-- A variable is not changed when substitutions are carried out. -/
theorem carryOut_of_variable
    {name : String}
    (named : expression.variableName? = some name) :
    expression.carryOut = expression := by
  cases expression with
  | formula => cases named
  | term whole =>
      obtain ⟨symbol, rfl, -⟩ := Term.exists_of_variableName? named
      rfl

/-- What is the same as a variable is that variable, by name. -/
theorem variableName?_of_same
    {expression' : Expression}
    {name : String}
    (same : expression.same expression' = true)
    (named : expression.variableName? = some name) :
    expression'.variableName? = some name := by
  cases expression with
  | formula => cases named
  | term whole =>
      obtain ⟨symbol, rfl, rfl⟩ := Term.exists_of_variableName? named
      cases expression' with
      | formula => cases same
      | term whole' => exact (whole'.same_ofVariable_iff symbol).mp (same_symm same)

section Closed

variable (elementary : (term t).IsElementary)

include elementary

/-- Where substitution and carrying out can be exchanged, no metavariables are left. -/
theorem Exchanges.isSchematic_eq_false
    (exchanges : expression.Exchanges x t)
    (deferred : expression.IsDeferred) :
    (expression.substitute (.ofVariable x) t).carryOut.isSchematic = false := by
  rw [isSchematic_eq_of_same exchanges]
  exact (deferred.carryOut.substitute elementary).isSchematic_eq_false

/-- Without a pending substitution the two are exchanged part by part. -/
theorem exchanges_of_parts
    (plain : expression.transform? = none)
    (ordinary : expression.kind.isMetavariable = false)
    (unquantified : expression.kind.isQuantifier = false)
    (parts : ∀ part ∈ expression.children, part.Exchanges x t) :
    expression.Exchanges x t := by
  have read := readBy_eq_mapParts .carryOut plain ordinary unquantified
  by_cases named : expression.variableName? = some x.text
  · rw [Exchanges, carryOut_of_variable named, substitute_of_variable named,
      elementary.carryOut_eq_self]
    exact same_refl _
  rw [Exchanges, carryOut, carryOut, read,
    substitute_eq_mapParts_of_unquantified plain unquantified named,
    substitute_eq_mapParts_of_unquantified transform?_mapParts
      (by rwa [kind_mapParts]) (by rwa [variableName?_mapParts plain]),
    readBy_eq_mapParts .carryOut transform?_mapParts (by rwa [kind_mapParts])
      (by rwa [kind_mapParts]),
    mapParts_mapParts, mapParts_mapParts, same_mapParts_iff]
  exact ⟨fun part member => parts _ (term_mem_children member),
    fun part member => parts _ (formula_mem_children member)⟩

/-- What a pending substitution is attached to, and what it puts in, are substituted in
when substituting comes first. -/
theorem carryOut_substitute_of_pending
    (deferred : expression.IsDeferred)
    (pending : expression.transform? = some transform)
    (target : transform.target = .ofVariable z)
    (replacement : (term transform.replacement).Exchanges x t)
    {carrier : Expression}
    (reached : (expression.substitute (.ofVariable x) t).withoutTransform = carrier)
    (ground : carrier.carryOut.isSchematic = false) :
    (expression.substitute (.ofVariable x) t).carryOut =
      carrier.carryOut.substitute (.ofVariable z)
        (transform.replacement.substitute (.ofVariable x) t).carryOut := by
  subst reached
  exact carryOut_of_pending (transform?_substitute pending) target ground
    (replacement.isSchematic_eq_false elementary (deferred.replacement pending))

variable (closed : t.freeVariables = ∅)

include closed

/-- A variable that a substitution is attached to is reached by this substitution
only. -/
theorem exchanges_iff_of_variable
    (deferred : expression.IsDeferred)
    (pending : expression.transform? = some transform)
    (target : transform.target = .ofVariable z)
    (named : expression.withoutTransform.variableName? = some x.text)
    (replacement : (term transform.replacement).Exchanges x t) :
    expression.Exchanges x t ↔ z.text = x.text := by
  have elementaryCarrier := deferred.withoutTransform.carryOut
  have passed : (expression.substitute (.ofVariable x) t).withoutTransform =
      expression.withoutTransform :=
    withoutTransform_substitute_of_variable pending named
  have first := carryOut_substitute_of_pending elementary deferred pending target
    replacement passed elementaryCarrier.isSchematic_eq_false
  have second := deferred.carryOut_eq pending target
  rw [carryOut_of_variable named] at first second elementaryCarrier
  rw [Exchanges, first, second]
  by_cases names : z.text = x.text
  · rw [← names] at named
    rw [substitute_of_variable named, substitute_of_variable named]
    exact iff_of_true replacement names
  · have bare := elementaryCarrier.isBare
    have other : z.text ∉ expression.withoutTransform.freeVariables := by
      rw [freeVariables_of_variable named, Finset.mem_singleton]
      exact names
    rw [substitute_of_not_free bare other, substitute_of_not_free bare other,
      substitute_of_variable named]
    refine iff_of_false (fun same => ?_) names
    have free : (term t).freeVariables = {x.text} :=
      freeVariables_of_variable (variableName?_of_same same named)
    exact Finset.singleton_ne_empty _ (free.symm.trans closed)

/-- At a node with a pending substitution the two are exchanged unless they interfere. -/
theorem exchanges_iff_of_pending
    (deferred : expression.IsDeferred)
    (pending : expression.transform? = some transform)
    (carrier : expression.withoutTransform.Exchanges x t)
    (replacement : (term transform.replacement).Exchanges x t) :
    expression.Exchanges x t ↔ ¬expression.Interferes x t := by
  obtain ⟨z, target⟩ := deferred.whole.2.2 transform pending
  have interferes : expression.Interferes x t ↔ _ :=
    ⟨fun ⟨_, found, ways⟩ => by cases pending.symm.trans found; exact ways,
      fun ways => ⟨transform, pending, ways⟩⟩
  rw [interferes, target]
  by_cases named : expression.withoutTransform.variableName? = some x.text
  · rw [exchanges_iff_of_variable elementary closed deferred pending target named
      replacement]
    simp [named]
  · have elementaryCarrier := deferred.withoutTransform.carryOut
    have elementaryReplacement : (term transform.replacement.carryOut).IsElementary :=
      (deferred.replacement pending).carryOut
    have first := carryOut_substitute_of_pending elementary deferred pending target
      replacement (withoutTransform_substitute pending named)
      (carrier.isSchematic_eq_false elementary deferred.withoutTransform)
    have second := deferred.carryOut_eq pending target
    have replaced :
        (term (transform.replacement.substitute (.ofVariable x) t).carryOut).same
          (term (transform.replacement.carryOut.substitute (.ofVariable x) t)) = true :=
      replacement
    rw [Exchanges, first, second,
      same_congr (same_substitute carrier replaced) (same_refl _)]
    refine (same_substitute_substitute_iff elementary closed elementaryCarrier
      elementaryReplacement).trans ?_
    simp [named]

/-- The two are exchanged in an expression without nodes where they interfere. -/
theorem exchanges_of_not_interferes
    (deferred : expression.IsDeferred)
    (apart : expression.Throughout fun node => ¬node.Interferes x t) :
    expression.Exchanges x t := by
  induction expression using nodeInduction with
  | plain expression plain inductionHypothesis =>
      exact exchanges_of_parts elementary plain deferred.whole.1 deferred.whole.2.1
        fun part member => inductionHypothesis part member (deferred.part member)
          (apart.part member)
  | transformed expression transform pending carrier target replacement =>
      have beneath := carrier deferred.withoutTransform
        (apart.withoutTransform (not_interferes_of_plain transform?_withoutTransform))
      have inside := replacement (deferred.replacement pending)
        (apart.replacement pending)
      exact (exchanges_iff_of_pending elementary closed deferred pending beneath
        inside).mpr apart.whole

/-- They are exchanged at every node exactly if there is no node where they interfere. -/
theorem throughout_exchanges_iff
    (deferred : expression.IsDeferred) :
    expression.Throughout (Exchanges x t) ↔
      expression.Throughout fun node => ¬node.Interferes x t := by
  constructor
  · intro exchanges node within
    have deferredNode : node.IsDeferred := deferred.of_within within
    have exchangesNode : node.Throughout (Exchanges x t) := exchanges.of_within within
    cases pending : node.transform? with
    | none => exact not_interferes_of_plain pending
    | some transform =>
        refine (exchanges_iff_of_pending elementary closed deferredNode pending ?_
          (exchangesNode.replacement pending).whole).mp exchangesNode.whole
        have carrier := deferredNode.withoutTransform
        refine exchanges_of_parts elementary transform?_withoutTransform
          carrier.whole.1 carrier.whole.2.1 fun part member => ?_
        rw [children_withoutTransform] at member
        exact (exchangesNode.part member).whole
  · intro apart node within
    exact exchanges_of_not_interferes elementary closed (deferred.of_within within)
      (apart.of_within within)

end Closed

end Expression

namespace Session

variable {f : Formula} {x : Symbol} {t : Term}

/-- Let a formula have neither quantifiers nor metavariables, its pending substitutions
being for variables, and let a term have no variables at all. If the two do not
interfere at any node, substituting before carrying out gives the same formula as
substituting afterwards. At all nodes it does so only then. -/
theorem resolveFormula_substitute
    (deferred : (Expression.formula f).IsDeferred)
    (elementary : (Expression.term t).IsElementary)
    (closed : t.freeVariables = ∅) :
    ((Expression.formula f).Throughout (fun node => ¬node.Interferes x t) ->
      (empty.resolveFormula (f.substitute (.ofVariable x) t)).same
        ((empty.resolveFormula f).substitute (.ofVariable x) t) = true) ∧
      ((Expression.formula f).Throughout (Expression.Exchanges x t) ↔
        (Expression.formula f).Throughout fun node => ¬node.Interferes x t) :=
  ⟨Expression.exchanges_of_not_interferes elementary closed deferred,
    Expression.throughout_exchanges_iff elementary closed deferred⟩

/-- The formula `Fxy[s/x]`. -/
def substituted (x y : Symbol) (s : Term) : Formula :=
  .transformed (.relation ⟨"F", .relation⟩ [.ofVariable x, .ofVariable y])
    ⟨.ofVariable x, s, false⟩

theorem throughout_substituted
    {holds : Expression -> Prop}
    {x y symbol : Symbol}
    {kind : TermLeaf}
    (whole : holds (.formula (substituted x y (.leaf kind symbol))))
    (carrier : holds
      (Expression.formula (substituted x y (.leaf kind symbol))).withoutTransform)
    (others : ∀ symbol, holds (.term (.ofVariable symbol)))
    (replacement : holds (.term (.leaf kind symbol))) :
    (Expression.formula (substituted x y (.leaf kind symbol))).Throughout holds := by
  have leaf (symbol : Symbol) :
      (Expression.term (.ofVariable symbol)).Throughout holds :=
    .of_parts rfl (others symbol) nofun
  refine .of_transformed rfl whole (.of_parts rfl carrier ?_) (leaf x)
    (.of_parts rfl replacement nofun)
  exact List.forall_mem_cons.mpr ⟨leaf x, List.forall_mem_singleton.mpr (leaf y)⟩

theorem isDeferred_substituted
    {x y symbol : Symbol}
    {kind : TermLeaf}
    (ordinary : (Expression.term (.leaf kind symbol)).kind.isMetavariable = false) :
    (Expression.formula (substituted x y (.leaf kind symbol))).IsDeferred := by
  refine throughout_substituted ⟨rfl, rfl, ?_⟩ ⟨rfl, rfl, nofun⟩
    (fun _ => ⟨rfl, rfl, nofun⟩) ⟨ordinary, ?_, nofun⟩
  · rintro transform pending
    cases pending
    exact ⟨x, rfl⟩
  · cases kind <;> rfl

/-- Putting in `b` for `y` in `Fxy[y/x]`. -/
theorem resolveFormula_substitute_replacement :
    let x : Symbol := ⟨"x", .objectVariable⟩
    let y : Symbol := ⟨"y", .objectVariable⟩
    let b : Term := .leaf .constant ⟨"b", .constant⟩
    let f := substituted x y (.ofVariable y)
    ((Expression.formula f).IsDeferred ∧ (Expression.term b).IsElementary ∧
        b.freeVariables = ∅ ∧
        (Expression.formula f).Throughout fun node => ¬node.Interferes y b) ∧
      (f.substitute (.ofVariable y) b).text = "Fxb[b/x]" ∧
      (empty.resolveFormula (f.substitute (.ofVariable y) b)).text = "Fbb" ∧
      (empty.resolveFormula (f.substitute (.ofVariable y) b)).same
        ((empty.resolveFormula f).substitute (.ofVariable y) b) = true := by
  intro x y b f
  have deferred : (Expression.formula f).IsDeferred := isDeferred_substituted rfl
  have elementary : (Expression.term b).IsElementary := .of_parts ⟨rfl, rfl, rfl⟩ nofun
  have closed : b.freeVariables = ∅ := rfl
  have apart : (Expression.formula f).Throughout fun node => ¬node.Interferes y b := by
    refine throughout_substituted ?_ (Expression.not_interferes_of_plain rfl)
      (fun _ => Expression.not_interferes_of_plain rfl)
      (Expression.not_interferes_of_plain rfl)
    rintro ⟨transform, pending, ways⟩
    cases pending
    revert ways
    decide
  exact ⟨⟨deferred, elementary, closed, apart⟩, by rfl, by rfl,
    (resolveFormula_substitute deferred elementary closed).1 apart⟩

/-- Putting in `b` for `x` in `Fxy[a/x]`. The occurrence of `x` that waits for `a` is
replaced, although it is bound. -/
theorem resolveFormula_substitute_differs :
    let x : Symbol := ⟨"x", .objectVariable⟩
    let y : Symbol := ⟨"y", .objectVariable⟩
    let a : Term := .leaf .constant ⟨"a", .constant⟩
    let b : Term := .leaf .constant ⟨"b", .constant⟩
    let f := substituted x y a
    ((Expression.formula f).IsDeferred ∧ (Expression.term b).IsElementary ∧
        b.freeVariables = ∅) ∧
      x.text ∉ f.freeVariables ∧
      (f.substitute (.ofVariable x) b).text = "Fby[a/x]" ∧
      (empty.resolveFormula (f.substitute (.ofVariable x) b)).text = "Fby" ∧
      ((empty.resolveFormula f).substitute (.ofVariable x) b).text = "Fay" ∧
      (empty.resolveFormula (f.substitute (.ofVariable x) b)).same
        ((empty.resolveFormula f).substitute (.ofVariable x) b) = false := by
  intro x y a b f
  have elementary : (Expression.term b).IsElementary := .of_parts ⟨rfl, rfl, rfl⟩ nofun
  exact ⟨⟨isDeferred_substituted rfl, elementary, rfl⟩, by decide, by rfl, by rfl,
    by rfl, by rfl⟩

/-- A variable with a substitution for another one is passed over: in `F` of `x[a/y]`
nothing is put in for `x`. -/
example :
    let x : Symbol := ⟨"x", .objectVariable⟩
    let constant (text : String) : Term := .leaf .constant ⟨text, .constant⟩
    let f : Formula := .plain (.relation ⟨"F", .relation⟩
      [.transformed (.leaf .objectVariable x) (.ofVariable ⟨"y", .objectVariable⟩)
        (constant "a") false])
    (empty.resolveFormula (f.substitute (.ofVariable x) (constant "b"))).text = "Fx" ∧
      ((empty.resolveFormula f).substitute (.ofVariable x) (constant "b")).text =
        "Fb" := by
  constructor <;> rfl

end Session
end SymbolicLogic
