import SymbolicLogic.Proofs.Session.Soundness

/-!
# Matching is complete and most general

For a pattern without substitutions and without parameters, matching is solving an
equation: it succeeds exactly if some assignment of values to the metavariables of
the pattern agrees with the session and turns the pattern into the concrete
expression. The session then holds that assignment, and nothing else is changed in
it.
-/

namespace SymbolicLogic

open Session Matching

/-- Values for metavariables. Metavariables that are the same have one value, so
without parameters the family and the symbol decide. -/
structure Assignment where
  value? : Metavariable -> Option Expression
  congr :
    ∀ {left right : Metavariable}, left.same right = true ->
      value? left = value? right

/-- The values a session holds. -/
def Session.assignment (session : Session) : Assignment where
  value? := session.value?
  congr := session.value?_congr

/-- Metavariables stand for the values assigned to them. -/
def Assignment.reading (assignment : Assignment) : Reading where
  meaning := fun family symbol _ read => assignment.value? ⟨family, symbol, read⟩
  attachTerm := Term.withTransform
  attachFormula := Formula.withTransform

/-- The metavariable is a node of the expression. -/
def Metavariable.OccursIn
    (metavariable : Metavariable)
    (expression : Expression) : Prop :=
  ∃ node : Expression, node.OccursIn expression ∧
    node.metaNode? = some metavariable

/-- No substitution is pending in the expression, and its metavariables have no
parameters. -/
def Expression.IsSimple (expression : Expression) : Prop :=
  expression.Everywhere fun node =>
    node.transform? = none ∧ node.isComplex = false

namespace Assignment

/-- Every metavariable of the pattern has a value which its family accepts and
which is of the sort of its place. -/
def Covers (assignment : Assignment) (pattern : Expression) : Prop :=
  ∀ (node : Expression) (metavariable : Metavariable),
    node.OccursIn pattern -> node.metaNode? = some metavariable ->
    ∃ value, assignment.value? metavariable = some value ∧
      metavariable.family.accepts value = true ∧
      value.isSentence = node.isSentence

/-- On the metavariables in question, the values of the session are the ones
assigned. -/
def Agrees
    (assignment : Assignment)
    (session : Session)
    (concerns : Metavariable -> Prop) : Prop :=
  ∀ metavariable existing value, concerns metavariable ->
    session.value? metavariable = some existing ->
    assignment.value? metavariable = some value ->
    existing.same value = true

/-- The assignment fits the session and makes the pattern the same as the concrete
expression. -/
structure Solves
    (assignment : Assignment)
    (session : Session)
    (pattern concrete : Expression) : Prop where
  covers : assignment.Covers pattern
  agrees :
    assignment.Agrees session fun metavariable => metavariable.OccursIn pattern
  same : (pattern.readBy assignment.reading).same concrete = true

end Assignment

namespace Expression

variable {node pattern : Expression} {metavariable : Metavariable}
  {assignment : Assignment}

/-- A metavariable without parameters has no parts. -/
theorem children_of_metavariable
    (plain : pattern.transform? = none)
    (isMetavariable : pattern.metaNode? = some metavariable)
    (simple : pattern.isComplex = false) :
    metavariable.params = [] ∧ pattern.children = [] := by
  cases writes_of_metaNode? plain isMetavariable with
  | formulaLeaf | termLeaf => exact ⟨rfl, rfl⟩
  | complexFormula | complexTerm => cases simple

/-- The only metavariable of a metavariable is itself. -/
theorem eq_of_occursIn_metavariable
    (plain : pattern.transform? = none)
    (isMetavariable : pattern.metaNode? = some metavariable)
    (simple : pattern.isComplex = false)
    (occurs : node.OccursIn pattern) : node = pattern := by
  rcases occurs.eq_or_part with rfl | ⟨part, member, -⟩
  · rfl
  · rw [(children_of_metavariable plain isMetavariable simple).2] at member
    cases member

end Expression

namespace Assignment

variable {assignment : Assignment} {pattern : Expression}
  {before after : Session}

/-- An assignment that covers a pattern covers its parts. -/
theorem Covers.part
    {part : Expression}
    (covers : assignment.Covers pattern)
    (member : part ∈ pattern.children) : assignment.Covers part :=
  fun node metavariable occurs => covers node metavariable (.part member occurs)

/-- An assignment that covers the parts of an ordinary node covers the node. -/
theorem covers_of_parts
    (ordinary : pattern.metaNode? = none)
    (parts : ∀ part ∈ pattern.children, assignment.Covers part) :
    assignment.Covers pattern := by
  intro node metavariable occurs isMetavariable
  rcases occurs.eq_or_part with rfl | ⟨part, member, occurs⟩
  · rw [ordinary] at isMetavariable
    cases isMetavariable
  · exact parts part member node metavariable occurs isMetavariable

/-- What the values of a session cover is covered from then on. -/
theorem Covers.of_extends
    (covers : before.assignment.Covers pattern)
    (larger : before.Extends after) : after.assignment.Covers pattern := by
  intro node metavariable occurs isMetavariable
  obtain ⟨value, found, accepts, sort⟩ :=
    covers node metavariable occurs isMetavariable
  exact ⟨value, larger metavariable value found, accepts, sort⟩

end Assignment

namespace Session

variable {metavariable : Metavariable}

/-- Without parameters a metavariable is its own key. -/
theorem resolvedKey_of_params_eq_nil
    (session : Session)
    (simple : metavariable.params = []) :
    session.resolvedKey metavariable = .ok metavariable := by
  obtain ⟨family, symbol, params⟩ := metavariable
  cases simple
  rfl

/-- A metavariable without parameters is its own key. -/
theorem get?_of_params_eq_nil
    (session : Session)
    (simple : metavariable.params = []) :
    session.get? metavariable = session.value? metavariable := by
  rw [get?, session.resolvedKey_of_params_eq_nil simple]

/-- Entering a metavariable leaves other keys as they are. -/
theorem find?_enter_of_other
    (session : Session)
    (simple : metavariable.params = [])
    {key : Metavariable}
    (other : metavariable.same key = false) :
    (session.enter metavariable).find? key = session.find? key := by
  rw [enter, session.resolvedKey_of_params_eq_nil simple]
  dsimp only
  rw [find?_register, other]
  exact Option.or_none

end Session

namespace Expression

variable {pattern concrete : Expression} {patterns concretes : List Expression}
  {metavariable : Metavariable} {before after : Session}

/-- A key that no match along a list changes is unchanged after all of them. -/
theorem Walks.find?_eq
    {key : Metavariable}
    (keeps : ∀ pattern ∈ patterns, ∀ {before after concrete},
      (pattern.matchPart concrete).Succeeds before after ->
        after.find? key = before.find? key)
    (walks : Walks patterns concretes before after) :
    after.find? key = before.find? key := by
  induction walks with
  | nil => rfl
  | cons first _ inductionHypothesis =>
      obtain ⟨keepsFirst, keepsOthers⟩ := List.forall_mem_cons.mp keeps
      exact (inductionHypothesis keepsOthers).trans (keepsFirst first)

/-- After a match, every metavariable of the pattern has a value. -/
theorem covers_of_succeeds
    (simple : pattern.IsSimple)
    (succeeds : (pattern.matchPart concrete).Succeeds before after) :
    after.assignment.Covers pattern := by
  induction pattern using nodeInduction generalizing concrete before after with
  | plain pattern plain inductionHypothesis =>
      have unparameterized := simple.whole.2
      cases isMetavariable : pattern.metaNode? with
      | some metavariable =>
          obtain ⟨sorts, bound⟩ :=
            (succeeds_iff_bound plain isMetavariable unparameterized).mp succeeds
          obtain ⟨value, found, same⟩ := bound.exists_get?
          have noParams :=
            (children_of_metavariable plain isMetavariable unparameterized).1
          rw [after.get?_of_params_eq_nil noParams] at found
          intro node metavariable' occurs isMetavariable'
          cases eq_of_occursIn_metavariable plain isMetavariable unparameterized
            occurs
          cases isMetavariable.symm.trans isMetavariable'
          exact ⟨value, found,
            (MetaFamily.accepts_eq_of_same _ same).trans bound.accepts,
            (isSentence_eq_of_same same).trans sorts.symm⟩
      | none =>
          obtain ⟨-, -, walks⟩ :=
            (succeeds_iff_parts plain isMetavariable).mp succeeds
          have parts :
              List.Forall₂ (fun part _ => after.assignment.Covers part)
                pattern.children concrete.children :=
            walks.forall₂ (fun covers => covers.of_extends)
              fun part member =>
                inductionHypothesis part member (simple.part member)
          refine Assignment.covers_of_parts isMetavariable fun part member => ?_
          obtain ⟨_, -, covers⟩ := exists_of_mem_of_forall₂ parts.flip member
          exact covers
  | transformed pattern transform pending =>
      rw [simple.whole.1] at pending
      cases pending

/-- A match does nothing to the other metavariables. -/
theorem find?_of_succeeds
    {key : Metavariable}
    (simple : pattern.IsSimple)
    (others : ∀ metavariable : Metavariable, metavariable.OccursIn pattern ->
      metavariable.same key = false)
    (succeeds : (pattern.matchPart concrete).Succeeds before after) :
    after.find? key = before.find? key := by
  induction pattern using nodeInduction generalizing concrete before after with
  | plain pattern plain inductionHypothesis =>
      have unparameterized := simple.whole.2
      cases isMetavariable : pattern.metaNode? with
      | some metavariable =>
          obtain ⟨-, bound⟩ :=
            (succeeds_iff_bound plain isMetavariable unparameterized).mp succeeds
          have noParams :=
            (children_of_metavariable plain isMetavariable unparameterized).1
          have other := others metavariable ⟨pattern, .whole, isMetavariable⟩
          rw [← before.find?_enter_of_other noParams other]
          exact bound.find?_of_other
            (Session.resolvedKey_of_params_eq_nil _ noParams) other
      | none =>
          obtain ⟨-, -, walks⟩ :=
            (succeeds_iff_parts plain isMetavariable).mp succeeds
          refine walks.find?_eq fun part member => ?_
          exact inductionHypothesis part member (simple.part member)
            fun metavariable ⟨node, occurs, isMetavariable⟩ =>
              others metavariable ⟨node, .part member occurs, isMetavariable⟩
  | transformed pattern transform pending =>
      rw [simple.whole.1] at pending
      cases pending

end Expression

section Solutions

variable {assignment : Assignment} {concerns : Metavariable -> Prop}
  {before after : Session}

/-- A metavariable can be bound to what is the same as its assigned value. -/
theorem Assignment.Agrees.exists_bound
    (agrees : assignment.Agrees before concerns)
    {metavariable : Metavariable}
    {value concrete : Expression}
    (concerned : concerns metavariable)
    (noParams : metavariable.params = [])
    (assigned : assignment.value? metavariable = some value)
    (accepts : metavariable.family.accepts value = true)
    (same : value.same concrete = true) :
    ∃ after, metavariable.Bound concrete (before.enter metavariable) after ∧
      assignment.Agrees after concerns := by
  have known := Session.resolvedKey_of_params_eq_nil
    (before.enter metavariable) noParams
  have accepts' := (MetaFamily.accepts_eq_of_same _ same).symm.trans accepts
  have agreesEntered :
      assignment.Agrees (before.enter metavariable) concerns := by
    intro metavariable' existing value' concerned' found
    rw [before.value?_enter] at found
    exact agrees metavariable' existing value' concerned' found
  cases found : (before.enter metavariable).value? metavariable with
  | some existing =>
      have compared := agreesEntered metavariable existing value concerned found
        assigned
      exact ⟨_, .found accepts' known found (Expression.same_trans compared same),
        agreesEntered⟩
  | none =>
      refine ⟨_, .entered accepts' known found, ?_⟩
      intro metavariable' existing value' concerned' found' assigned'
      cases keys : metavariable.same metavariable' with
      | true =>
          rw [Session.value?_bound _ _ keys] at found'
          rw [← assignment.congr keys, assigned] at assigned'
          cases found'
          cases assigned'
          exact Expression.same_symm same
      | false =>
          rw [Session.value?_bound_of_other _ _ keys] at found'
          exact agreesEntered metavariable' existing value' concerned' found'
            assigned'

/-- A pattern matches what an assignment turns it into, from every session that
agrees with the assignment. -/
theorem Expression.exists_succeeds
    {pattern concrete : Expression}
    (simple : pattern.IsSimple)
    (covers : assignment.Covers pattern)
    (concerned : ∀ metavariable : Metavariable, metavariable.OccursIn pattern ->
      concerns metavariable)
    (same : (pattern.readBy assignment.reading).same concrete = true)
    (agrees : assignment.Agrees before concerns) :
    ∃ after, (pattern.matchPart concrete).Succeeds before after ∧
      assignment.Agrees after concerns := by
  induction pattern using nodeInduction generalizing concrete before with
  | plain pattern plain inductionHypothesis =>
      have unparameterized := simple.whole.2
      cases isMetavariable : pattern.metaNode? with
      | some metavariable =>
          obtain ⟨value, assigned, accepts, sort⟩ :=
            covers pattern metavariable .whole isMetavariable
          obtain ⟨noParams, -⟩ :=
            children_of_metavariable plain isMetavariable unparameterized
          have readEq : pattern.readBy assignment.reading = value := by
            refine readBy_of_meaning _ plain isMetavariable ?_ sort
            obtain ⟨family, symbol, params⟩ := metavariable
            cases noParams
            exact assigned
          rw [readEq] at same
          obtain ⟨after, bound, agrees⟩ := agrees.exists_bound
            (concerned metavariable ⟨pattern, .whole, isMetavariable⟩) noParams
            assigned accepts same
          refine ⟨after, ?_, agrees⟩
          rw [succeeds_iff_bound plain isMetavariable unparameterized]
          exact ⟨sort.symm.trans (isSentence_eq_of_same same), bound⟩
      | none =>
          obtain ⟨readPlain, readHead, readParts⟩ :=
            readBy_parts assignment.reading plain isMetavariable
          have plain' := transform?_eq_none_of_same readPlain same
          obtain ⟨heads, parts⟩ := (same_iff_parts readPlain plain').mp same
          rw [readParts, List.forall₂_map_left_iff] at parts
          have each : List.Forall₂ (fun part concrete =>
              ∀ before, assignment.Agrees before concerns ->
                ∃ after, (part.matchPart concrete).Succeeds before after ∧
                  assignment.Agrees after concerns)
              pattern.children concrete.children := by
            have members : ∀ part ∈ pattern.children, part ∈ pattern.children :=
              fun _ member => member
            refine ((List.forall₂_and_left _ _).mpr ⟨members, parts⟩).imp ?_
            intro part _ ⟨member, same⟩ before agrees
            exact inductionHypothesis part member (simple.part member)
              (covers.part member)
              (fun metavariable ⟨node, occurs, isMetavariable⟩ =>
                concerned metavariable ⟨node, .part member occurs, isMetavariable⟩)
              same agrees
          obtain ⟨after, walks, agrees⟩ := Walks.exists_of_forall₂ each agrees
          refine ⟨after, ?_, agrees⟩
          rw [succeeds_iff_parts plain isMetavariable]
          exact ⟨plain', readHead.symm.trans heads, walks⟩
  | transformed pattern transform pending =>
      rw [simple.whole.1] at pending
      cases pending

end Solutions

/-- From the session, the run matches the pattern in the most general way. -/
structure Matching.IsMostGeneral
    (matching : Matching Unit)
    (session : Session)
    (pattern concrete : Expression) : Prop where
  /-- It succeeds exactly if there is a solution. -/
  succeeds_iff :
    (∃ after, matching.Succeeds session after) ↔
      ∃ assignment : Assignment, assignment.Solves session pattern concrete
  /-- The metavariables of the pattern then have the values of every solution. -/
  assigns :
    ∀ {after : Session} {assignment : Assignment},
      matching.Succeeds session after ->
      assignment.Solves session pattern concrete ->
      ∀ metavariable : Metavariable, metavariable.OccursIn pattern ->
        ∃ found value, after.value? metavariable = some found ∧
          assignment.value? metavariable = some value ∧
          found.same value = true
  /-- What was bound before has the value it had. -/
  keeps : ∀ {after : Session}, matching.Succeeds session after ->
    session.Extends after
  /-- Nothing else is entered or bound. -/
  others :
    ∀ {after : Session} {key : Metavariable}, matching.Succeeds session after ->
      (∀ metavariable : Metavariable, metavariable.OccursIn pattern ->
        metavariable.same key = false) ->
      after.find? key = session.find? key

/-- The values after a match are a solution. -/
theorem Expression.solves_of_succeeds
    {pattern concrete : Expression}
    {before after : Session}
    (simple : pattern.IsSimple)
    (succeeds : (pattern.matchPart concrete).Succeeds before after) :
    after.assignment.Solves before pattern concrete := by
  refine ⟨covers_of_succeeds simple succeeds, ?_, ?_⟩
  · intro metavariable existing value _ found assigned
    have kept := (growsTo_of_succeeds succeeds).preserves _ _ found
    cases kept.symm.trans assigned
    exact existing.same_refl
  · exact (fits_of_succeeds succeeds).instantiated
      fun node occurs => (simple node occurs).1

/-- A match of a simple pattern succeeds exactly if an assignment solves it, and binds no
more than it must. -/
theorem Expression.isMostGeneral_matchPart
    {pattern : Expression}
    (simple : pattern.IsSimple)
    (session : Session)
    (concrete : Expression) :
    (pattern.matchPart concrete).IsMostGeneral session pattern concrete where
  succeeds_iff := by
    constructor
    · rintro ⟨after, succeeds⟩
      exact ⟨after.assignment, solves_of_succeeds simple succeeds⟩
    · rintro ⟨assignment, solves⟩
      obtain ⟨after, succeeds, -⟩ := exists_succeeds simple solves.covers
        (fun _ occurs => occurs) solves.same solves.agrees
      exact ⟨after, succeeds⟩
  assigns := by
    intro after assignment succeeds solves metavariable ⟨node, occurs, isNode⟩
    obtain ⟨after', succeeds', agrees⟩ := exists_succeeds simple solves.covers
      (fun _ occurs => occurs) solves.same solves.agrees
    -- There is only one session in which the run can end.
    cases succeeds.symm.trans succeeds'
    obtain ⟨found, foundEq, -⟩ :=
      covers_of_succeeds simple succeeds node metavariable occurs isNode
    obtain ⟨value, assigned, -⟩ := solves.covers node metavariable occurs isNode
    exact ⟨found, value, foundEq, assigned,
      agrees metavariable found value ⟨node, occurs, isNode⟩ foundEq assigned⟩
  keeps := fun succeeds => (growsTo_of_succeeds succeeds).preserves
  others := fun succeeds others => find?_of_succeeds simple others succeeds

namespace Session

/-- From any session, a pattern without substitutions and parameters is matched in
the most general way with any expression of its sort. -/
theorem matching_complete (session : Session) :
    (∀ pattern concrete : Formula, (Expression.formula pattern).IsSimple ->
      (pattern.matchAgainst concrete).IsMostGeneral session (.formula pattern)
        (.formula concrete)) ∧
    ∀ pattern concrete : Term, (Expression.term pattern).IsSimple ->
      (pattern.matchAgainst concrete).IsMostGeneral session (.term pattern)
        (.term concrete) := by
  constructor
  · intro pattern concrete simple
    exact Expression.isMostGeneral_matchPart simple session (.formula concrete)
  · intro pattern concrete simple
    exact Expression.isMostGeneral_matchPart simple session (.term concrete)

/-- A metavariable that occurs twice is matched with `A → A`, so there is a value
for it that makes both sides of the conditional `A`. -/
theorem matching_complete_conditional :
    let implies (left right : Formula) : Formula :=
      .plain (.binary ⟨"→", .connective⟩ .conditional left right none)
    let schema : Formula := .leaf .formulaMeta ⟨"A", .formulaMeta⟩
    let letter : Formula := .leaf .letter ⟨"A", .sentenceLetter⟩
    (Expression.formula (implies schema schema)).IsSimple ∧
      ∃ assignment : Assignment,
        assignment.Solves empty (.formula (implies schema schema))
          (.formula (implies letter letter)) := by
  intro implies schema letter
  have leaf : (Expression.formula schema).IsSimple :=
    .of_parts ⟨rfl, rfl⟩ (List.forall_mem_nil _)
  have simple : (Expression.formula (implies schema schema)).IsSimple :=
    .of_parts ⟨rfl, rfl⟩ (List.forall_mem_cons.mpr
      ⟨leaf, List.forall_mem_singleton.mpr leaf⟩)
  have mostGeneral :=
    (matching_complete empty).1 _ (implies letter letter) simple
  exact ⟨simple, mostGeneral.succeeds_iff.mp ⟨_, rfl⟩⟩

end Session
end SymbolicLogic
