import SymbolicLogic.Proofs.Session.Permanence
import SymbolicLogic.Proofs.Session.Resolution
import SymbolicLogic.Proofs.Session.Soundness

/-!
# Looking a metavariable up and instantiating it

A metavariable can be looked up, and an occurrence of it can be instantiated. The
first needs to know its parameters, the second takes them as they come out. So the
two differ where a parameter that is not known comes out as the parameter of a key
with a value. If all values are ground, this does not happen. For every metavariable
in the parameters of a key with a value has a value then, and what is not known
comes out with a metavariable that has none.
-/

namespace SymbolicLogic

open Session Expression

namespace Session

variable {session before after : Session} {expression left right : Expression}

/-- Every metavariable in the expression has a value, with the parameters as they
are written. -/
def Settles (session : Session) (expression : Expression) : Prop :=
  expression.Throughout fun node =>
    ∀ metavariable, node.metaNode? = some metavariable ->
      (session.value? metavariable).isSome = true

/-- Every metavariable in the parameters of a key with a value has a value. -/
def SettlesKeys (session : Session) : Prop :=
  ∀ key value, session.value? key = some value ->
    ∀ param ∈ key.params, session.Settles (.term param)

/-- An expression that a session settles is settled by every larger one. -/
theorem Extends.settles
    (larger : before.Extends after)
    (settles : before.Settles expression) : after.Settles expression := by
  intro node within metavariable isMetavariable
  have bound := settles node within metavariable isMetavariable
  rw [larger.value?_eq bound]
  exact bound

/-- A ground expression is settled by every session. -/
theorem settles_of_ground
    (ground : expression.isSchematic = false) : session.Settles expression := by
  intro node within metavariable isMetavariable
  rw [Expression.throughout_of_ground ground node within] at isMetavariable
  cases isMetavariable

/-- The carrier of an expression that is settled is settled. -/
theorem Settles.withoutTransform
    (settles : session.Settles expression) :
    session.Settles expression.withoutTransform :=
  Throughout.withoutTransform settles (by simpa using Throughout.whole settles)

/-- A substitution may take the place of another. -/
theorem Settles.withTransform
    {transform : Transform}
    (settles : session.Settles expression)
    (target : session.Settles (.term transform.target))
    (replacement : session.Settles (.term transform.replacement)) :
    session.Settles (expression.withTransform transform) := by
  refine .of_transformed transform?_withTransform ?_ ?_ target replacement
  · simpa using Throughout.whole settles
  · rw [withoutTransform_withTransform]
    exact settles.withoutTransform

/-- Being settled does not depend on spelling. -/
theorem Settles.of_same
    (settles : session.Settles left)
    (same : left.same right = true) : session.Settles right := by
  induction left using nodeInduction generalizing right with
  | plain left plain inductionHypothesis =>
      have plain' := transform?_eq_none_of_same plain same
      obtain ⟨-, parts⟩ := (same_iff_parts plain plain').mp same
      refine .of_parts plain' (fun metavariable isMetavariable => ?_)
        fun part member => ?_
      · obtain ⟨metavariable', isMetavariable', same'⟩ :=
          exists_metaNode?_of_same plain same isMetavariable
        rw [← session.value?_congr same']
        exact Throughout.whole settles metavariable' isMetavariable'
      · obtain ⟨part', member', same'⟩ := exists_of_mem_of_forall₂ parts member
        exact inductionHypothesis part' member' (Throughout.part settles member')
          same'
  | transformed left transform pending carrier target replacement =>
      obtain ⟨_, pending', transforms, carriers⟩ :=
        exists_transform?_of_same pending same
      obtain ⟨targets, replacements⟩ := Bool.and_eq_true_iff.mp transforms
      have settlesRight := carrier settles.withoutTransform carriers
      refine .of_transformed pending' ?_ settlesRight
        (target (Throughout.target settles pending) targets)
        (replacement (Throughout.replacement settles pending) replacements)
      simpa using Throughout.whole settlesRight

end Session

namespace Expression

variable {session : Session} {expression : Expression}

/-- Terms are all bound exactly if each of them is. -/
theorem unboundAmong?_eq_none_iff {terms : List Term} :
    Term.unboundAmong? terms session = none ↔
      ∀ part ∈ terms.map term, part.unbound? session = none := by
  rw [Term.unboundAmong?_eq_findSome?, List.findSome?_eq_none_iff,
    List.forall_mem_map]
  rfl

/-- A node with a substitution is bound exactly if its carrier and both sides are. -/
theorem unbound?_eq_none_iff_of_transformed
    {transform : Transform}
    (pending : expression.transform? = some transform) :
    expression.unbound? session = none ↔
      expression.withoutTransform.unbound? session = none ∧
        (term transform.target).unbound? session = none ∧
        (term transform.replacement).unbound? session = none := by
  match expression with
  | .formula (.transformed ..) =>
      cases pending
      simp [unbound?, Formula.unbound?, Transform.unbound?, withoutTransform,
        Formula.withoutTransform, Formula.shape]
  | .term (.transformed ..) =>
      cases pending
      simp [unbound?, Term.unbound?, withoutTransform, Term.withoutTransform,
        Term.shape]
  | .formula (.plain _) | .term (.plain _) => cases pending

/-- A metavariable whose key has no value stays. -/
theorem keeps_of_unbound
    {metavariable : Metavariable}
    (isMetavariable : expression.metaNode? = some metavariable)
    (unbound : session.value? (session.key metavariable.family
      metavariable.symbol metavariable.params) = none) :
    (Reading.instantiate session).Keeps expression := by
  intro metavariable' value isMetavariable' meaning
  cases isMetavariable.symm.trans isMetavariable'
  cases unbound.symm.trans meaning

/-- In a session of ground values, what is known comes out settled. -/
theorem settles_readBy
    (ground : session.IsGround)
    (known : expression.unbound? session = none) :
    session.Settles (expression.readBy (.instantiate session)) := by
  induction expression using nodeInduction with
  | plain expression plain inductionHypothesis =>
      rcases meaning_or_keeps (.instantiate session) plain with ⟨_, -, meaning⟩ | keeps
      · exact settles_of_ground (ground _ _ meaning)
      cases isMetavariable : expression.metaNode? with
      | some metavariable =>
          have writes := writes_of_metaNode? plain isMetavariable
          obtain ⟨params, bound⟩ := (unbound?_eq_none_iff_value writes).mp known
          have staying := writes.writes_readBy keeps
          refine .of_parts staying.transform?_eq ?_ ?_
          · rw [staying.metaNode?_eq]
            rintro _ ⟨⟩
            exact bound
          · rw [staying.children_eq, Term.readAllBy_eq_map, List.map_map]
            rw [unboundAmong?_eq_none_iff] at params
            rw [writes.children_eq] at inductionHypothesis
            refine List.forall_mem_map.mpr fun param member => ?_
            have member := List.mem_map_of_mem (f := term) member
            exact inductionHypothesis _ member (params _ member)
      | none =>
          obtain ⟨plain', head, parts⟩ :=
            readBy_parts (.instantiate session) plain isMetavariable
          rw [unbound?_eq_none_iff_parts plain isMetavariable] at known
          have ordinary := metaNode?_eq_none_of_head head.symm isMetavariable
          refine .of_parts plain' ?_ ?_
          · rw [ordinary]
            nofun
          · rw [parts]
            exact List.forall_mem_map.mpr fun part member =>
              inductionHypothesis part member (known part member)
  | transformed expression transform pending carrier target replacement =>
      obtain ⟨knownCarrier, knownTarget, knownReplacement⟩ :=
        (unbound?_eq_none_iff_of_transformed pending).mp known
      rw [readBy_of_pending pending, Reading.attach_instantiate]
      exact (carrier knownCarrier).withTransform (target knownTarget)
        (replacement knownReplacement)

/-- In a session of ground values whose keys have settled parameters, nothing comes
out settled but what is known. -/
theorem known_of_settles_readBy
    (ground : session.IsGround)
    (keys : session.SettlesKeys)
    (settles : session.Settles (expression.readBy (.instantiate session))) :
    expression.unbound? session = none := by
  induction expression using nodeInduction with
  | plain expression plain inductionHypothesis =>
      cases isMetavariable : expression.metaNode? with
      | some metavariable =>
          have writes := writes_of_metaNode? plain isMetavariable
          rw [writes.children_eq] at inductionHypothesis
          rw [unbound?_eq_none_iff_value writes, unboundAmong?_eq_none_iff]
          cases bound : session.value? (session.key metavariable.family
              metavariable.symbol metavariable.params) with
          | some value =>
              refine ⟨fun part member => ?_, rfl⟩
              obtain ⟨param, placed, rfl⟩ := List.mem_map.mp member
              refine inductionHypothesis _ member (keys _ value bound _ ?_)
              rw [Session.key, Term.readAllBy_eq_map]
              exact List.mem_map_of_mem placed
          | none =>
              have keeps := keeps_of_unbound isMetavariable bound
              have staying := (writes.writes_readBy keeps).metaNode?_eq
              have settled := Throughout.whole settles _ staying
              rw [← Session.key, bound] at settled
              cases settled
      | none =>
          obtain ⟨-, -, parts⟩ :=
            readBy_parts (.instantiate session) plain isMetavariable
          rw [unbound?_eq_none_iff_parts plain isMetavariable]
          intro part member
          refine inductionHypothesis part member (Throughout.part settles ?_)
          rw [parts]
          exact List.mem_map_of_mem member
  | transformed expression transform pending carrier target replacement =>
      rw [readBy_of_pending pending, Reading.attach_instantiate] at settles
      rw [unbound?_eq_none_iff_of_transformed pending]
      refine ⟨carrier ?_,
        target (Throughout.target settles transform?_withTransform),
        replacement (Throughout.replacement settles transform?_withTransform)⟩
      have bare : expression.withoutTransform.transform? = none :=
        transform?_withoutTransform
      rcases meaning_or_keeps (.instantiate session) bare with ⟨_, -, meaning⟩ | keeps
      · exact settles_of_ground (ground _ _ meaning)
      · have plain := transform?_readBy_of_keeps bare keeps
        have settlesCarrier := settles.withoutTransform
        rw [withoutTransform_withTransform, withoutTransform_of_plain plain]
          at settlesCarrier
        exact settlesCarrier

end Expression

namespace Session

variable {session : Session}

/-- In a session of ground values, known parameters come out settled. -/
theorem settles_of_resolvedKey
    {metavariable key : Metavariable}
    (ground : session.IsGround)
    (known : session.resolvedKey metavariable = .ok key) :
    ∀ param ∈ key.params, session.Settles (.term param) := by
  obtain ⟨params, rfl⟩ := resolvedKey_eq_ok.mp known
  rw [unboundAmong?_eq_none_iff] at params
  rw [Session.key, Term.readAllBy_eq_map]
  exact List.forall_mem_map.mpr fun param member =>
    settles_readBy ground (params _ (List.mem_map_of_mem member))

/-- A session of ground values that has grown from the empty one has keys with settled
parameters. -/
theorem GrowsTo.settlesKeys
    (grows : empty.GrowsTo session)
    (ground : session.IsGround) : session.SettlesKeys := by
  induction grows with
  | refl => nofun
  | @register middle grows key inductionHypothesis =>
      have larger := (GrowsTo.refl.register key : middle.GrowsTo _).preserves
      intro key' value bound param member
      rw [value?_register] at bound
      exact larger.settles
        (inductionHypothesis (larger.isGround ground) key' value bound param member)
  | @bind middle key value grows accepts known unbound inductionHypothesis =>
      have larger := (GrowsTo.refl.bind accepts known unbound).preserves
      have groundMiddle := larger.isGround ground
      intro key' value' bound param member
      refine larger.settles ?_
      cases same : key.same key' with
      | false =>
          rw [middle.value?_bound_of_other value same] at bound
          exact inductionHypothesis groundMiddle key' value' bound param member
      | true =>
          obtain ⟨metavariable, known⟩ := known
          have settled := settles_of_resolvedKey groundMiddle known
          obtain ⟨-, -, params⟩ := (Metavariable.same_iff_parts _ _).mp same
          obtain ⟨param', member', same'⟩ := exists_of_mem_of_forall₂ params member
          exact (settled param' member').of_same same'

/-- A metavariable of known parameters is looked up by its key. -/
theorem get?_of_known
    {metavariable : Metavariable}
    (known : Term.unboundAmong? metavariable.params session = none) :
    session.get? metavariable =
      session.value? (session.key metavariable.family metavariable.symbol
        metavariable.params) := by
  rw [get?, resolvedKey, known]

/-- In a session of ground values, a metavariable that is not found is none that a
value is bound to. -/
theorem value?_eq_none_of_get?_eq_none
    {metavariable : Metavariable}
    (ground : session.IsGround)
    (keys : session.SettlesKeys)
    (missing : session.get? metavariable = none) :
    session.value? (session.key metavariable.family metavariable.symbol
      metavariable.params) = none := by
  rw [Option.eq_none_iff_forall_ne_some]
  intro value bound
  have params : Term.unboundAmong? metavariable.params session = none := by
    rw [unboundAmong?_eq_none_iff]
    refine List.forall_mem_map.mpr fun param member => ?_
    refine known_of_settles_readBy ground keys (keys _ value bound _ ?_)
    rw [Session.key, Term.readAllBy_eq_map]
    exact List.mem_map_of_mem member
  rw [get?_of_known params, bound] at missing
  cases missing

end Session

namespace Metavariable

/-- Only a metavariable of a complex family has parameters. -/
def IsWellFormed (metavariable : Metavariable) : Prop :=
  metavariable.params = [] ∨ metavariable.family = .complexFormula ∨
    metavariable.family = .complexTerm

/-- A well-formed metavariable stands in the expression that is made of it. -/
theorem writes_toExpression
    {metavariable : Metavariable}
    (wellFormed : metavariable.IsWellFormed) :
    metavariable.toExpression.Writes metavariable := by
  rcases metavariable with ⟨family, symbol, params⟩
  rcases wellFormed with rfl | rfl | rfl
  · cases family with
    | formula | anyExpression => exact .formulaLeaf symbol rfl
    | term | objectVariable => exact .termLeaf symbol rfl
    | complexFormula => exact .complexFormula symbol [] .round
    | complexTerm => exact .complexTerm symbol [] .round
  · exact .complexFormula symbol params .round
  · exact .complexTerm symbol params .round

end Metavariable

namespace Session

variable {session : Session} {metavariable : Metavariable}

/-- An any-expression metavariable on its own may change its sort, and no other
metavariable. -/
theorem instantiate_eq_readBy
    (other : metavariable.family = .anyExpression ->
      session.value? ⟨.anyExpression, metavariable.symbol, []⟩ = none) :
    session.instantiate metavariable.toExpression =
      metavariable.toExpression.readBy (.instantiate session) := by
  rcases metavariable with ⟨family, symbol, params⟩
  cases family with
  | anyExpression =>
      simp [instantiate, Metavariable.toExpression, Formula.leaf, other rfl]
  | _ => rfl

/-- A metavariable whose key has a value is instantiated to this value. -/
theorem instantiate_of_value
    {value : Expression}
    (wellFormed : metavariable.IsWellFormed)
    (accepts : metavariable.family.accepts value = true)
    (bound : session.value? (session.key metavariable.family metavariable.symbol
      metavariable.params) = some value) :
    session.instantiate metavariable.toExpression = value := by
  by_cases any : metavariable.family = .anyExpression
  · rcases metavariable with ⟨family, symbol, params⟩
    cases any
    rcases wellFormed with rfl | complex | complex
    · rw [key_nil] at bound
      simp [instantiate, Metavariable.toExpression, Formula.leaf, bound]
    · cases complex
    · cases complex
  · have writes := Metavariable.writes_toExpression wellFormed
    rw [instantiate_eq_readBy fun family => absurd family any]
    refine readBy_of_meaning _ writes.transform?_eq writes.metaNode?_eq bound ?_
    rcases metavariable with ⟨family, symbol, params⟩
    cases family <;> cases value <;>
      simp_all [MetaFamily.accepts, Metavariable.toExpression, isSentence]

/-- A metavariable whose key has no value is instantiated to an occurrence of the
key. -/
theorem instantiate_of_unbound
    (wellFormed : metavariable.IsWellFormed)
    (unbound : session.value? (session.key metavariable.family metavariable.symbol
      metavariable.params) = none) :
    session.instantiate metavariable.toExpression =
      (session.key metavariable.family metavariable.symbol
        metavariable.params).toExpression := by
  have writes := Metavariable.writes_toExpression wellFormed
  have keeps := keeps_of_unbound writes.metaNode?_eq unbound
  rw [instantiate_eq_readBy, writes.readBy_of_keeps keeps]
  · rcases metavariable with ⟨family, symbol, params⟩
    cases family <;> rfl
  · intro any
    rcases metavariable with ⟨family, symbol, params⟩
    cases any
    rcases wellFormed with rfl | complex | complex
    · exact unbound
    · cases complex
    · cases complex

/-- After any operations, a metavariable that is found has the value it is
instantiated to. One that is not found is instantiated to an occurrence of its key,
which has no value, or else to a value of its key. In the latter case some parameter
is not known, and some value holds a metavariable. -/
theorem instantiate_agrees_with_lookup
    (operations : List Operation)
    (metavariable : Metavariable)
    (wellFormed : metavariable.IsWellFormed) :
    let session := empty.performAll operations
    let key := session.key metavariable.family metavariable.symbol
      metavariable.params
    (∀ value, session.get? metavariable = some value ->
      session.instantiate metavariable.toExpression = value) ∧
    (session.get? metavariable = none ->
      session.value? key = none ∧
        session.instantiate metavariable.toExpression = key.toExpression ∨
      ∃ value, session.value? key = some value ∧
        session.instantiate metavariable.toExpression = value ∧
        (Term.unboundAmong? metavariable.params session).isSome = true ∧
        ¬session.IsGround) := by
  intro session key
  have grows : empty.GrowsTo session := empty.growsTo_performAll operations
  have wellSorted := grows.isWellSorted .empty
  constructor
  · intro value found
    obtain ⟨_, known, bound⟩ := get?_eq_some.mp found
    obtain ⟨-, rfl⟩ := resolvedKey_eq_ok.mp known
    have accepts := wellSorted.accepts_of_value? bound
    exact instantiate_of_value wellFormed accepts bound
  · intro missing
    cases bound : session.value? key with
    | none => exact .inl ⟨rfl, instantiate_of_unbound wellFormed bound⟩
    | some value =>
        have accepts := wellSorted.accepts_of_value? bound
        refine .inr ⟨value, rfl, instantiate_of_value wellFormed accepts bound,
          ?_, fun ground => ?_⟩
        · rw [Option.isSome_iff_ne_none]
          intro known
          rw [get?_of_known known] at missing
          cases bound.symm.trans missing
        · have unbound := value?_eq_none_of_get?_eq_none ground
            (grows.settlesKeys ground) missing
          cases bound.symm.trans unbound

/-- Let `t` stand for `a`, and `A(t)` for `P`. Then `A(a)` has the value `P` and is
instantiated to it. -/
theorem instantiate_agrees_with_lookup_parameter :
    let a : Term := .leaf .constant ⟨"a", .constant⟩
    let t : Symbol := ⟨"t", .termMeta⟩
    let handle (param : Term) : Metavariable :=
      ⟨.complexFormula, ⟨"A", .formulaMeta⟩, [param]⟩
    let letter : Expression := .formula (.leaf .letter ⟨"P", .sentenceLetter⟩)
    let session := empty.performAll
      [.bind ⟨.term, t, []⟩ (.term a), .bind (handle (.leaf .termMeta t)) letter]
    (handle a).IsWellFormed ∧ session.get? (handle a) = some letter ∧
      session.instantiate (handle a).toExpression = letter := by
  intro a t handle letter session
  have wellFormed : (handle a).IsWellFormed := .inr (.inl rfl)
  have found : session.get? (handle a) = some letter := rfl
  obtain ⟨agrees, -⟩ := instantiate_agrees_with_lookup _ (handle a) wellFormed
  exact ⟨wellFormed, found, agrees letter found⟩

/-- Let `t` stand for `s`, and `A(t)` for `P`. Then `A(s)` is not found, as `s` is not
known, but it is instantiated to `P`. -/
theorem instantiate_differs_from_lookup :
    let s : Symbol := ⟨"s", .termMeta⟩
    let t : Symbol := ⟨"t", .termMeta⟩
    let handle (param : Symbol) : Metavariable :=
      ⟨.complexFormula, ⟨"A", .formulaMeta⟩, [.leaf .termMeta param]⟩
    let letter : Expression := .formula (.leaf .letter ⟨"P", .sentenceLetter⟩)
    let session := empty.performAll
      [.bind ⟨.term, t, []⟩ (.term (.leaf .termMeta s)), .bind (handle t) letter]
    (handle s).IsWellFormed ∧ session.get? (handle s) = none ∧
      session.instantiate (handle s).toExpression = letter ∧
      letter.metaNode? = none := by
  intro s t handle letter session
  exact ⟨.inr (.inl rfl), rfl, rfl, rfl⟩

end Session
end SymbolicLogic
